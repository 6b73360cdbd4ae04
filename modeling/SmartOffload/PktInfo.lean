import SmartOffload.FlowKey
import SmartOffload.Lib.DecimalText

/-!
# The log text of a five-tuple

`dump_pkt_info` of `smto_flow_key.c` writes a five-tuple, the port and the queue index into a
buffer of `MAX_PKT_INFO_LENGTH` bytes; `snprintf` cuts off what does not fit.  The text of the
tuple is at most 49 characters long (`length_tupleText_le`), so with the final NUL it always
fits, and only the suffix is cut.

`tupleOfText` reads the five fields back from what is left of the text
(`dumpPktInfo_determines`).
-/

namespace SmartOffload

open TextParser (number expect Reads NoDigit)

/-- `MAX_PKT_INFO_LENGTH` -/
def maxPktInfoLength : ℕ := 50

/-- `rte_be_to_cpu_32` on a little-endian machine. -/
def rteBeToCpu32 (v : UInt32) : UInt32 := bswap32 v

/-- `rte_be_to_cpu_16` on a little-endian machine. -/
def rteBeToCpu16 (v : UInt16) : UInt16 := bswap16 v

/-- The text `snprintf` leaves before the NUL in a buffer of so many bytes. -/
def snprintf (resultLength : ℕ) (text : List Char) : List Char := text.take (resultLength - 1)

/-- The arguments and the format `%d.%d.%d.%d`. -/
def dottedQuad (ip : UInt32) : List Char :=
  decimal (ip >>> 24 &&& 0xff).toNat ++ '.' :: (decimal (ip >>> 16 &&& 0xff).toNat ++
    '.' :: (decimal (ip >>> 8 &&& 0xff).toNat ++ '.' :: decimal (ip &&& 0xff).toNat))

/-- `%d.%d.%d.%d:%u-(%u)-%d.%d.%d.%d:%u`, on the fields in host order. -/
def tupleText (key : RdarmFiveTuple) : List Char :=
  dottedQuad (rteBeToCpu32 key.ip1) ++ ':' :: (decimal (rteBeToCpu16 key.port1).toNat ++
    '-' :: '(' :: (decimal key.proto.toNat ++ ')' :: '-' ::
      (dottedQuad (rteBeToCpu32 key.ip2) ++ ':' :: decimal (rteBeToCpu16 key.port2).toNat)))

/-- `dump_pkt_info`: the NUL-terminated text in the buffer. -/
def dumpPktInfo (key : RdarmFiveTuple) (portId : UInt16) (qi : ℤ) (resultLength : ℕ) :
    List Char :=
  if qi ≥ 0 then
    snprintf resultLength (tupleText key ++ ' ' :: '-' :: ' ' :: 'p' ::
      (decimal portId.toNat ++ 'q' :: decimal qi.toNat))
  else
    snprintf resultLength (tupleText key ++ ' ' :: '-' :: ' ' :: 'p' :: decimal portId.toNat)

/-! ### The length of the text -/

/-- The low byte. -/
theorem toNat_and_ff (v : UInt32) : (v &&& 0xff).toNat = v.toNat % 256 := by
  have hmask : (0xff : UInt32).toNat = 2 ^ 8 - 1 := rfl
  rw [UInt32.toNat_and, hmask, Nat.and_two_pow_sub_one_eq_mod]

theorem length_decimal_byte_le (v : UInt32) : (decimal (v &&& 0xff).toNat).length ≤ 3 := by
  have hlt : v.toNat % 256 < 10 ^ 3 := by omega
  rw [toNat_and_ff]
  exact length_decimal_le (by decide) hlt

theorem length_dottedQuad_le (ip : UInt32) : (dottedQuad ip).length ≤ 15 := by
  have h₁ := length_decimal_byte_le (ip >>> 24)
  have h₂ := length_decimal_byte_le (ip >>> 16)
  have h₃ := length_decimal_byte_le (ip >>> 8)
  have h₄ := length_decimal_byte_le ip
  simp only [dottedQuad, List.length_append, List.length_cons]
  omega

/-- **The text of a tuple fits**: with the NUL it takes the whole buffer at most. -/
theorem length_tupleText_le (key : RdarmFiveTuple) :
    (tupleText key).length ≤ maxPktInfoLength - 1 := by
  have hport : ∀ v : UInt16, (decimal v.toNat).length ≤ 5 := fun v => by
    have hlt := v.toNat_lt
    exact length_decimal_le (by decide) (by omega)
  have hproto : (decimal key.proto.toNat).length ≤ 3 := by
    have hlt := key.proto.toNat_lt
    exact length_decimal_le (by decide) (by omega)
  have h₁ := length_dottedQuad_le (rteBeToCpu32 key.ip1)
  have h₂ := length_dottedQuad_le (rteBeToCpu32 key.ip2)
  have h₃ := hport (rteBeToCpu16 key.port1)
  have h₄ := hport (rteBeToCpu16 key.port2)
  rw [tupleText, List.length_append, List.length_cons, List.length_append, List.length_cons,
    List.length_cons, List.length_append, List.length_cons, List.length_cons, List.length_append,
    List.length_cons, maxPktInfoLength]
  omega

/-- **What is cut off is suffix**: the tuple is followed by nothing, or by a blank. -/
theorem exists_dumpPktInfo_eq (key : RdarmFiveTuple) (portId : UInt16) (qi : ℤ) :
    ∃ suffix, NoDigit suffix ∧
      dumpPktInfo key portId qi maxPktInfoLength = tupleText key ++ suffix := by
  have hcut : ∀ suffix, NoDigit suffix → ∃ suffix', NoDigit suffix' ∧
      snprintf maxPktInfoLength (tupleText key ++ suffix) = tupleText key ++ suffix' := by
    intro suffix hsuffix
    refine ⟨_, hsuffix.take (maxPktInfoLength - 1 - (tupleText key).length), ?_⟩
    rw [snprintf, List.take_append, List.take_of_length_le (length_tupleText_le key)]
  unfold dumpPktInfo
  split
  · exact hcut _ (show (' ').isDigit = false from rfl)
  · exact hcut _ (show (' ').isDigit = false from rfl)

/-! ### Reading it back -/

/-- Four numbers as an address in network order. -/
def quad : TextParser UInt32 := do
  let a ← number
  expect '.'
  let b ← number
  expect '.'
  let c ← number
  expect '.'
  let d ← number
  pure (bswap32 (UInt32.ofNat (((a * 256 + b) * 256 + c) * 256 + d)))

/-- The five fields that are dumped: addresses, ports and protocol. -/
structure DumpedFields where
  ip1 : UInt32
  port1 : UInt16
  proto : UInt8
  ip2 : UInt32
  port2 : UInt16
  deriving DecidableEq, Repr

/-- The dumped fields of a key. -/
def RdarmFiveTuple.dumped (key : RdarmFiveTuple) : DumpedFields :=
  ⟨key.ip1, key.port1, key.proto, key.ip2, key.port2⟩

/-- The fields, in the order of the text. -/
def tupleFields : TextParser DumpedFields := do
  let ip1 ← quad
  expect ':'
  let port1 ← number
  expect '-'
  expect '('
  let proto ← number
  expect ')'
  expect '-'
  let ip2 ← quad
  expect ':'
  let port2 ← number
  pure ⟨ip1, bswap16 (UInt16.ofNat port1), UInt8.ofNat proto, ip2,
    bswap16 (UInt16.ofNat port2)⟩

/-- The fields of the tuple a log text is about. -/
def tupleOfText (text : List Char) : Option DumpedFields := (tupleFields text).map Prod.fst

/-- Four bytes of a word, put together again. -/
theorem ofNat_bytes (v : UInt32) :
    UInt32.ofNat ((((v >>> 24 &&& 0xff).toNat * 256 + (v >>> 16 &&& 0xff).toNat) * 256 +
      (v >>> 8 &&& 0xff).toNat) * 256 + (v &&& 0xff).toNat) = v := by
  have hlt : v.toNat < 4294967296 := v.toNat_lt
  have h₁ : (v >>> 24).toNat = v.toNat / 16777216 := by
    rw [UInt32.toNat_shiftRight]
    exact Nat.shiftRight_eq_div_pow v.toNat 24
  have h₂ : (v >>> 16).toNat = v.toNat / 65536 := by
    rw [UInt32.toNat_shiftRight]
    exact Nat.shiftRight_eq_div_pow v.toNat 16
  have h₃ : (v >>> 8).toNat = v.toNat / 256 := by
    rw [UInt32.toNat_shiftRight]
    exact Nat.shiftRight_eq_div_pow v.toNat 8
  have hvalue : ((v.toNat / 16777216 % 256 * 256 + v.toNat / 65536 % 256) * 256 +
      v.toNat / 256 % 256) * 256 + v.toNat % 256 = v.toNat := by omega
  rw [toNat_and_ff, toNat_and_ff, toNat_and_ff, toNat_and_ff, h₁, h₂, h₃, hvalue,
    UInt32.ofNat_toNat]

theorem reads_quad (ip : UInt32) : Reads quad (dottedQuad (rteBeToCpu32 ip)) ip := by
  unfold quad dottedQuad
  refine (Reads.number _).bind rfl (Reads.expect ?_)
  refine (Reads.number _).bind rfl (Reads.expect ?_)
  refine (Reads.number _).bind rfl (Reads.expect ?_)
  rw [← List.append_nil (decimal (rteBeToCpu32 ip &&& 0xff).toNat)]
  refine (Reads.number _).bind trivial ?_
  rw [ofNat_bytes, rteBeToCpu32, bswap32_bswap32]
  exact Reads.pure ip

/-- The text of a tuple has its fields. -/
theorem reads_tupleText (key : RdarmFiveTuple) :
    Reads tupleFields (tupleText key) key.dumped := by
  unfold tupleFields tupleText
  refine (reads_quad key.ip1).bind rfl (Reads.expect ?_)
  refine (Reads.number _).bind rfl (Reads.expect (Reads.expect ?_))
  refine (Reads.number _).bind rfl (Reads.expect (Reads.expect ?_))
  refine (reads_quad key.ip2).bind rfl (Reads.expect ?_)
  rw [← List.append_nil (decimal (rteBeToCpu16 key.port2).toNat)]
  refine (Reads.number _).bind trivial ?_
  rw [UInt16.ofNat_toNat, UInt16.ofNat_toNat, UInt8.ofNat_toNat, rteBeToCpu16, rteBeToCpu16,
    bswap16_bswap16, bswap16_bswap16]
  exact Reads.pure key.dumped

/-- The fields can be read back, whatever is cut off. -/
theorem tupleOfText_dumpPktInfo (key : RdarmFiveTuple) (portId : UInt16) (qi : ℤ) :
    tupleOfText (dumpPktInfo key portId qi maxPktInfoLength) = some key.dumped := by
  obtain ⟨suffix, hsuffix, heq⟩ := exists_dumpPktInfo_eq key portId qi
  rw [heq, tupleOfText, reads_tupleText key suffix hsuffix]
  rfl

/-- **The log text determines the tuple**: addresses, ports and protocol can be read back, so
keys that differ in one of them never have the same text. -/
theorem dumpPktInfo_determines :
    (∀ key portId qi,
      tupleOfText (dumpPktInfo key portId qi maxPktInfoLength) = some key.dumped) ∧
    ∀ key portId qi key' portId' qi',
      dumpPktInfo key portId qi maxPktInfoLength =
        dumpPktInfo key' portId' qi' maxPktInfoLength → key.dumped = key'.dumped := by
  refine ⟨tupleOfText_dumpPktInfo, fun key portId qi key' portId' qi' htext => ?_⟩
  have hread := tupleOfText_dumpPktInfo key portId qi
  rw [htext, tupleOfText_dumpPktInfo key' portId' qi'] at hread
  exact (Option.some.inj hread).symm

end SmartOffload
