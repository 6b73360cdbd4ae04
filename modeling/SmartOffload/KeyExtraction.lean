import SmartOffload.Packet

/-!
# What a key depends on

`get_ipv4_5tuple` reads sixteen bytes from a fixed offset: the ports are where they are
behind a header of five words.  The filter in front of it admits every packet type with
the bit of `RTE_PTYPE_L3_IPV4`, which the types of headers with options have too, and
behind such a header the ports are further on.

`keyExact_iff`: keys tell frames apart by their protocol, addresses and ports exactly
where no header has options.  With options, frames of one flow have different keys
(`not_keyExact_options`).
-/

namespace SmartOffload

open ByteMemory

/-! ### Frames with and without options -/

/-- `RTE_PTYPE_L3_MASK`. -/
def rtePtypeL3Mask : UInt32 := 0x000000f0

/-- `RTE_PTYPE_L3_IPV4_EXT`. -/
def rtePtypeL3Ipv4Ext : UInt32 := 0x00000030

/-- `RTE_PTYPE_L3_IPV4_EXT_UNKNOWN`. -/
def rtePtypeL3Ipv4ExtUnknown : UInt32 := 0x00000090

/-- The header length field, in words of four bytes. -/
def RteMbuf.ihl (m : RteMbuf) : ℕ := (m.data 14 &&& 0x0f).toNat

/-- Where the TCP or UDP header begins. -/
def RteMbuf.l4Offset (m : RteMbuf) : ℕ := etherHdrLen + 4 * m.ihl

/-- The protocol, the addresses, and the ports of the TCP or UDP header. -/
def RteMbuf.fiveFields (m : RteMbuf) : UInt8 × Addressing (UInt32 × UInt16) :=
  (m.proto, ⟨(m.data.load32 26, m.data.load16 (m.l4Offset + srcPortOffset)),
    (m.data.load32 30, m.data.load16 (m.l4Offset + dstPortOffset))⟩)

/-- **A TCP or UDP frame as the NIC delivers it**: untagged, unfragmented IPv4 with a header
of any length, and a packet type that says so. -/
structure RteMbuf.Ipv4L4 (m : RteMbuf) : Prop where
  untagged : m.Untagged
  version : m.data 14 >>> 4 = 4
  headerLength : 5 ≤ m.ihl
  unfragmented : m.Unfragmented
  l3Type : m.packetType &&& rtePtypeL3Mask = rtePtypeL3Ipv4ExtUnknown ∨
    m.packetType &&& rtePtypeL3Mask = if m.ihl = 5 then rtePtypeL3Ipv4 else rtePtypeL3Ipv4Ext
  l4Type : m.proto = ipprotoTcp ∧ m.ptypeL4 = rtePtypeL4Tcp ∨
    m.proto = ipprotoUdp ∧ m.ptypeL4 = rtePtypeL4Udp

/-- **Keys are exact** for frames of two header lengths: two such frames have one key exactly
when they agree in the five fields. -/
def KeyExact (ihl ihl' : ℕ) : Prop :=
  ∀ m m' : RteMbuf, m.Ipv4L4 → m'.Ipv4L4 → m.ihl = ihl → m'.ihl = ihl' →
    (getIpv4_5tuple m ipv4Mask = getIpv4_5tuple m' ipv4Mask ↔ m.fiveFields = m'.fiveFields)

theorem KeyExact.symm {ihl ihl' : ℕ} (h : KeyExact ihl ihl') : KeyExact ihl' ihl := by
  intro m m' hm hm' hihl hihl'
  rw [eq_comm, h m' m hm' hm hihl' hihl, eq_comm]

/-- A bit that one field of a word has. -/
theorem and_ne_zero_of_and_mask {a mask b : UInt32} (hb : mask &&& b = b)
    (h : (a &&& mask) &&& b ≠ 0) : a &&& b ≠ 0 := by
  rwa [UInt32.and_assoc, hb] at h

/-- `packet_processing` admits such frames, with and without options. -/
theorem RteMbuf.Ipv4L4.supported {m : RteMbuf} (h : m.Ipv4L4) :
    supportedPacketType m.packetType = true := by
  have hl3 : m.packetType &&& rtePtypeL3Ipv4 ≠ 0 := by
    have hbit : rtePtypeL3Mask &&& rtePtypeL3Ipv4 = rtePtypeL3Ipv4 := by decide
    apply and_ne_zero_of_and_mask hbit
    rcases h.l3Type with htype | htype
    · rw [htype]
      decide
    · rw [htype]
      split <;> decide
  have hl4 : m.packetType &&& (rtePtypeL4Udp ||| rtePtypeL4Tcp) ≠ 0 := by
    rw [ptypeL4_and]
    rcases h.l4Type with ⟨-, htype⟩ | ⟨-, htype⟩ <;> rw [htype] <;> decide
  simp [supportedPacketType, hl3, hl4]

/-- **What a key depends on**: the protocol, the addresses, and the two words behind a header
of twenty bytes. -/
theorem getIpv4_5tuple_inj {m m' : RteMbuf} :
    getIpv4_5tuple m ipv4Mask = getIpv4_5tuple m' ipv4Mask ↔
      m.proto = m'.proto ∧ m.addressing = m'.addressing := by
  rw [getIpv4_5tuple_eq, getIpv4_5tuple_eq, RdarmFiveTuple.ofAddressing_inj]

/-- Behind a header without options these words are the ports. -/
theorem fiveFields_of_ihl {m : RteMbuf} (h : m.ihl = 5) : m.fiveFields = (m.proto, m.addressing) := by
  have hoffset : m.l4Offset = 34 := by rw [RteMbuf.l4Offset, h]; rfl
  rw [RteMbuf.fiveFields, hoffset]
  rfl

theorem keyExact_five : KeyExact 5 5 := by
  intro m m' _ _ hihl hihl'
  rw [getIpv4_5tuple_inj, fiveFields_of_ihl hihl, fiveFields_of_ihl hihl', Prod.mk.injEq]

/-! ### Headers with options -/

/-- A UDP frame with a header of `ihl` words: both ports are `port`, and the first words of
the options, if there are any, are `option`. -/
def optionsFrame (ihl : ℕ) (option port : UInt16) : RteMbuf where
  data :=
    let base := (ipv4Frame ipprotoUdp 0 100 ⟨(1, option), (2, option)⟩).data
    let data : ByteMemory := Function.update base 14 (UInt8.ofNat (0x40 + ihl))
    let data := data.store16 (etherHdrLen + 4 * ihl + srcPortOffset) port
    data.store16 (etherHdrLen + 4 * ihl + dstPortOffset) port
  packetType := (if ihl = 5 then rtePtypeL3Ipv4 else rtePtypeL3Ipv4Ext) ||| rtePtypeL4Udp
  pktLen := 100
  l3Len := 0
  l4Len := 0
  olFlags := 0

section

variable {ihl : ℕ} (h : 5 ≤ ihl) (option port : UInt16)
include h

/-- Up to the addresses and the words behind them, such a frame is the plain one but for its
first byte. -/
theorem optionsFrame_data_of_lt {i : ℕ} (hi : i < 34 ∨ 6 ≤ ihl ∧ i < 38) :
    (optionsFrame ihl option port).data i = if i = 14 then UInt8.ofNat (0x40 + ihl)
      else (ipv4Frame ipprotoUdp 0 100 ⟨(1, option), (2, option)⟩).data i := by
  simp only [optionsFrame, etherHdrLen, srcPortOffset, dstPortOffset]
  rw [store16_of_notMem _ _ (by omega), store16_of_notMem _ _ (by omega), Function.update_apply]

/-- The bytes in front of the addresses. -/
theorem optionsFrame_head {i : ℕ} (hi : i < 26) :
    (optionsFrame ihl option port).data i =
      if i = 14 then UInt8.ofNat (0x40 + ihl)
      else if i = 12 then 0x08 else if i = 23 then ipprotoUdp else 0 := by
  rw [optionsFrame_data_of_lt h option port (by omega), ipv4Frame_data_of_lt _ _ _ _ hi]
  split <;> rfl

theorem optionsFrame_proto : (optionsFrame ihl option port).proto = ipprotoUdp :=
  optionsFrame_head h option port (by omega)

/-- The words at the fixed offsets are those of the plain frame, where the ports are not. -/
theorem optionsFrame_load16 {i : ℕ} (hi : 14 < i) (hi' : 6 ≤ ihl ∧ i + 2 ≤ 38) :
    (optionsFrame ihl option port).data.load16 i =
      (ipv4Frame ipprotoUdp 0 100 ⟨(1, option), (2, option)⟩).data.load16 i := by
  refine load16_congr fun j hj => ?_
  rw [optionsFrame_data_of_lt h option port (by omega), if_neg (by omega)]

theorem optionsFrame_load32 {i : ℕ} (hi : 14 < i) (hi' : i + 4 ≤ 34) :
    (optionsFrame ihl option port).data.load32 i =
      (ipv4Frame ipprotoUdp 0 100 ⟨(1, option), (2, option)⟩).data.load32 i := by
  refine load32_congr fun j hj => ?_
  rw [optionsFrame_data_of_lt h option port (by omega), if_neg (by omega)]

/-- The length field says what it should. -/
theorem optionsFrame_ihl (h' : ihl ≤ 15) : (optionsFrame ihl option port).ihl = ihl := by
  rw [RteMbuf.ihl, optionsFrame_head h option port (by omega), if_pos rfl]
  interval_cases ihl <;> rfl

theorem optionsFrame_l4Offset (h' : ihl ≤ 15) :
    (optionsFrame ihl option port).l4Offset = etherHdrLen + 4 * ihl := by
  rw [RteMbuf.l4Offset, optionsFrame_ihl h option port h']

/-- Such a frame is one the NIC delivers. -/
theorem optionsFrame_ipv4L4 (h' : ihl ≤ 15) : (optionsFrame ihl option port).Ipv4L4 where
  untagged := ⟨optionsFrame_head h option port (by omega),
    optionsFrame_head h option port (by omega)⟩
  version := by
    rw [optionsFrame_head h option port (by omega), if_pos rfl]
    interval_cases ihl <;> rfl
  headerLength := by rwa [optionsFrame_ihl h option port h']
  unfragmented := by
    have hflags : (optionsFrame ihl option port).data 20 = 0 :=
      optionsFrame_head h option port (by omega)
    have hoffset : (optionsFrame ihl option port).data 21 = 0 :=
      optionsFrame_head h option port (by omega)
    rw [RteMbuf.Unfragmented, hflags, hoffset]
    decide
  l3Type := by
    rw [optionsFrame_ihl h option port h']
    refine Or.inr ?_
    simp only [optionsFrame]
    split <;> decide
  l4Type := by
    refine Or.inr ⟨optionsFrame_proto h option port, ?_⟩
    simp only [RteMbuf.ptypeL4, optionsFrame]
    split <;> decide

/-- The five fields of such a frame. -/
theorem optionsFrame_fiveFields (h' : ihl ≤ 15) :
    (optionsFrame ihl option port).fiveFields = (ipprotoUdp, ⟨(1, port), (2, port)⟩) := by
  have haddr := ipv4Frame_addressing ipprotoUdp 0 100 ⟨((1 : UInt32), option), (2, option)⟩
  have hsrc := congrArg (fun a => a.src.1) haddr
  have hdst := congrArg (fun a => a.dst.1) haddr
  rw [RteMbuf.fiveFields, optionsFrame_l4Offset h option port h', optionsFrame_proto h,
    optionsFrame_load32 h option port (by omega) (by omega),
    optionsFrame_load32 h option port (by omega) (by omega)]
  refine Prod.ext rfl (Addressing.ext (Prod.ext hsrc ?_) (Prod.ext hdst ?_))
  · simp only [optionsFrame]
    rw [load16_store16_of_disjoint _ _ (by simp only [srcPortOffset, dstPortOffset]; omega),
      load16_store16_self]
  · simp only [optionsFrame]
    rw [load16_store16_self]

/-- What extraction takes for its addressing: with options, their first words. -/
theorem optionsFrame_addressing_of_options (h6 : 6 ≤ ihl) :
    (optionsFrame ihl option port).addressing = ⟨(1, option), (2, option)⟩ := by
  have haddr := ipv4Frame_addressing ipprotoUdp 0 100 ⟨((1 : UInt32), option), (2, option)⟩
  rw [← haddr]
  simp only [RteMbuf.addressing]
  rw [optionsFrame_load32 h option port (by omega) (by omega),
    optionsFrame_load32 h option port (by omega) (by omega),
    optionsFrame_load16 h option port (by omega) (by omega),
    optionsFrame_load16 h option port (by omega) (by omega)]

end

/-- With options in one of the headers, frames of one flow have different keys. -/
theorem not_keyExact_of_options {ihl ihl' : ℕ} (h : 5 ≤ ihl) (hle : ihl ≤ 15)
    (h' : 6 ≤ ihl') (hle' : ihl' ≤ 15) : ¬ KeyExact ihl ihl' := by
  intro hexact
  have h5 : 5 ≤ ihl' := by omega
  have hiff := hexact (optionsFrame ihl 0 1) (optionsFrame ihl' 2 1)
    (optionsFrame_ipv4L4 h 0 1 hle) (optionsFrame_ipv4L4 h5 2 1 hle')
    (optionsFrame_ihl h 0 1 hle) (optionsFrame_ihl h5 2 1 hle')
  have hkey := hiff.mpr (by
    rw [optionsFrame_fiveFields h 0 1 hle, optionsFrame_fiveFields h5 2 1 hle'])
  have haddr := (getIpv4_5tuple_inj.mp hkey).2
  rw [optionsFrame_addressing_of_options h5 2 1 h'] at haddr
  -- extraction finds the port or the option 0 in the first frame, and the option 2 in this one
  rcases Nat.lt_or_ge 5 ihl with h6 | h6
  · rw [optionsFrame_addressing_of_options h 0 1 h6] at haddr
    cases haddr
  · have hihl : ihl = 5 := by omega
    have hfields := optionsFrame_fiveFields h 0 1 hle
    rw [fiveFields_of_ihl (by rw [optionsFrame_ihl h 0 1 hle, hihl])] at hfields
    rw [(Prod.mk.inj hfields).2] at haddr
    cases haddr

/-- **When keys are exact**: where neither header has options. -/
theorem keyExact_iff {ihl ihl' : ℕ} (h : 5 ≤ ihl) (hle : ihl ≤ 15) (h' : 5 ≤ ihl')
    (hle' : ihl' ≤ 15) : KeyExact ihl ihl' ↔ ihl = 5 ∧ ihl' = 5 := by
  constructor
  · intro hexact
    rcases Nat.lt_or_ge 5 ihl' with h6 | h6
    · exact absurd hexact (not_keyExact_of_options h hle h6 hle')
    · rcases Nat.lt_or_ge 5 ihl with h6' | h6'
      · exact absurd hexact.symm (not_keyExact_of_options h' hle' h6' hle)
      · exact ⟨by omega, by omega⟩
  · rintro ⟨rfl, rfl⟩
    exact keyExact_five

/-- Two frames without options. -/
theorem keyExact_plain : KeyExact 5 5 :=
  (keyExact_iff le_rfl (by decide) le_rfl (by decide)).mpr ⟨rfl, rfl⟩

/-- **One flow, two keys**: two UDP frames from one port to one port, with one word of options
each, are admitted, and the options become the ports of their keys. -/
theorem not_keyExact_options :
    (optionsFrame 6 0 1).Ipv4L4 ∧ (optionsFrame 6 2 1).Ipv4L4 ∧
      (optionsFrame 6 0 1).fiveFields = (optionsFrame 6 2 1).fiveFields ∧
      getIpv4_5tuple (optionsFrame 6 0 1) ipv4Mask ≠ getIpv4_5tuple (optionsFrame 6 2 1) ipv4Mask ∧
      ¬ KeyExact 6 6 := by
  have h0 : (optionsFrame 6 0 1).Ipv4L4 := optionsFrame_ipv4L4 (by decide) 0 1 (by decide)
  have h2 : (optionsFrame 6 2 1).Ipv4L4 := optionsFrame_ipv4L4 (by decide) 2 1 (by decide)
  refine ⟨h0, h2, ?_, ?_, not_keyExact_of_options (by decide) (by decide) (by decide) (by decide)⟩
  · rw [optionsFrame_fiveFields (by decide) 0 1 (by decide),
      optionsFrame_fiveFields (by decide) 2 1 (by decide)]
  · rw [ne_eq, getIpv4_5tuple_inj, optionsFrame_addressing_of_options (by decide) 0 1 le_rfl,
      optionsFrame_addressing_of_options (by decide) 2 1 le_rfl]
    decide

end SmartOffload
