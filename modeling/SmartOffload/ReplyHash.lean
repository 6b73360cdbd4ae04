import SmartOffload.Lib.HashFold
import SmartOffload.PktInfo
import SmartOffload.SymmetricRss
import SmartOffload.Translation

/-!
# Where a flow and its replies are hashed to

The key of the default rule repeats after 16 bits already, half the width of an address.  So of
two addresses the hash sees their four halves laid over each other and no more; and as the 16
windows of one period can be told apart, it sees all of that (`rssHash_eq_iff`).

A flow through the translator does not come back to the addresses it was sent from: its replies
are addressed to `SRC_IP`.  The symmetry of the key is then no longer what keeps the two
directions together, and whether a frame and the reply to what it was forwarded as hash alike is
up to the client's address alone (`replyHash_eq_iff`).
-/

namespace SmartOffload

open Toeplitz (toeplitz window xorBits xorBits_map Repeats Reads)

/-! ### Folding an address -/

/-- The bits of half an address, most significant first. -/
def halfBits (v : UInt16) : List Bool :=
  (List.range 16).map fun i => v.toNat.testBit (15 - i)

/-- The two halves of an address laid over each other. -/
def foldAddress (ip : UInt32) : UInt16 := (ip >>> 16).toUInt16 ^^^ ip.toUInt16

theorem length_halfBits (v : UInt16) : (halfBits v).length = 16 := by
  rw [halfBits, List.length_map, List.length_range]

/-- The bits of the low half are the low bits. -/
theorem testBit_lowHalf (ip : UInt32) (i : ℕ) :
    ip.toUInt16.toNat.testBit i = (decide (i < 16) && ip.toNat.testBit i) := by
  rw [UInt32.toNat_toUInt16, Nat.testBit_mod_two_pow]

/-- The bits of the high half are the high bits. -/
theorem testBit_highHalf (ip : UInt32) (i : ℕ) :
    (ip >>> 16).toUInt16.toNat.testBit i = (decide (i < 16) && ip.toNat.testBit (16 + i)) := by
  have hshift : (ip >>> 16).toNat = ip.toNat >>> 16 := rfl
  rw [testBit_lowHalf, hshift, Nat.testBit_shiftRight]

/-- An address is its two halves. -/
theorem addressBits_eq (ip : UInt32) :
    addressBits ip = halfBits (ip >>> 16).toUInt16 ++ halfBits ip.toUInt16 := by
  have hrange : List.range 32 = List.range 16 ++ (List.range 16).map (16 + ·) :=
    List.range_add (n := 16) (m := 16)
  rw [addressBits, hrange, List.map_append, List.map_map, halfBits, halfBits]
  congr 1 <;> refine List.map_congr_left fun i hi => ?_
  · have hlt := List.mem_range.mp hi
    have hindex : 16 + (15 - i) = 31 - i := by omega
    rw [testBit_highHalf, hindex, decide_eq_true (by omega), Bool.true_and]
  · have hlt := List.mem_range.mp hi
    have hindex : 31 - (16 + i) = 15 - i := by omega
    rw [testBit_lowHalf, Function.comp_apply, hindex, decide_eq_true (by omega), Bool.true_and]

theorem xorBits_addressBits (a b : UInt32) :
    xorBits (addressBits a) (addressBits b) = addressBits (a ^^^ b) := by
  rw [addressBits, addressBits, xorBits_map, addressBits]
  refine List.map_congr_left fun i _ => ?_
  rw [UInt32.toNat_xor, Nat.testBit_xor]

theorem xorBits_halfBits (u v : UInt16) :
    xorBits (halfBits u) (halfBits v) = halfBits (u ^^^ v) := by
  rw [halfBits, halfBits, xorBits_map, halfBits]
  refine List.map_congr_left fun i _ => ?_
  rw [UInt16.toNat_xor, Nat.testBit_xor]

/-- The bits determine the half. -/
theorem halfBits_inj {u v : UInt16} : halfBits u = halfBits v ↔ u = v := by
  refine ⟨fun h => UInt16.toNat_inj.mp (Nat.eq_of_testBit_eq fun i => ?_), congrArg _⟩
  by_cases hi : i < 16
  · have hbit := List.map_inj_left.mp h (15 - i) (List.mem_range.mpr (by omega))
    have hindex : 15 - (15 - i) = i := by omega
    rwa [hindex] at hbit
  · have hhigh : ∀ x : UInt16, x.toNat.testBit i = false := fun x =>
      Nat.testBit_lt_two_pow
        (lt_of_lt_of_le x.toNat_lt (Nat.pow_le_pow_right (by decide) (Nat.not_lt.mp hi)))
    rw [hhigh, hhigh]

theorem foldAddress_xor (a b : UInt32) :
    foldAddress (a ^^^ b) = foldAddress a ^^^ foldAddress b := by
  rw [foldAddress, foldAddress, foldAddress, UInt32.shiftRight_xor, UInt32.toUInt16_xor,
    UInt32.toUInt16_xor]
  ac_rfl

/-! ### The hash of two addresses -/

/-- The key repeats after half an address. -/
theorem repeats_half_symmetricRssKey : Repeats 32 16 symmetricRssKey := by decide

/-- The masks that read one period of the key: windows of a key of their own. -/
def keyMask (k : ℕ) : BitVec 32 := (window 16 [0xF9, 0x64, 0xF9, 0x64] k).setWidth 32

theorem reads_keyMask : Reads 32 16 symmetricRssKey keyMask := by decide +kernel

/-- The hash of two addresses is that of their halves laid over each other. -/
theorem rssHash_fold (queuesQuantity : ℕ) (a b : UInt32) :
    rssHash (defaultRssConf queuesQuantity) a b =
      toeplitz 32 symmetricRssKey 0 (halfBits (foldAddress a ^^^ foldAddress b)) :=
  calc toeplitz 32 symmetricRssKey 0 (addressBits a ++ addressBits b)
      = toeplitz 32 symmetricRssKey 0 (addressBits (a ^^^ b)) := by
        rw [Toeplitz.toeplitz_fold repeats_symmetricRssKey (length_addressBits a)
          (length_addressBits b), xorBits_addressBits]
    _ = toeplitz 32 symmetricRssKey 0 (halfBits (foldAddress (a ^^^ b))) := by
        rw [addressBits_eq, Toeplitz.toeplitz_fold repeats_half_symmetricRssKey
          (length_halfBits _) (length_halfBits _), xorBits_halfBits, foldAddress]
    _ = _ := by rw [foldAddress_xor]

/-- **What of two addresses the hash sees**: their halves laid over each other, no more and
no less. -/
theorem rssHash_eq_iff (queuesQuantity : ℕ) (a b c d : UInt32) :
    rssHash (defaultRssConf queuesQuantity) a b = rssHash (defaultRssConf queuesQuantity) c d ↔
      foldAddress a ^^^ foldAddress b = foldAddress c ^^^ foldAddress d := by
  rw [rssHash_fold, rssHash_fold,
    Toeplitz.toeplitz_inj reads_keyMask (length_halfBits _) (length_halfBits _), halfBits_inj]

/-! ### Frames and replies -/

/-- The hash of a frame: over the addresses in its own header. -/
def RteMbuf.rssHash (m : RteMbuf) (conf : RteFlowActionRss) : BitVec 32 :=
  SmartOffload.rssHash conf (rteBeToCpu32 m.ownAddressing.src.1)
    (rteBeToCpu32 m.ownAddressing.dst.1)

/-- Without a tag, these are the addresses the worker reads. -/
theorem rssHash_of_untagged {m : RteMbuf} (h : m.Untagged) (conf : RteFlowActionRss) :
    m.rssHash conf = SmartOffload.rssHash conf (rteBeToCpu32 m.addressing.src.1)
      (rteBeToCpu32 m.addressing.dst.1) := by
  rw [RteMbuf.rssHash, (ownAddresses_of_untagged h).1, (ownAddresses_of_untagged h).2]

/-- What is sent for an untagged frame, and the reply to it, are untagged. -/
theorem untagged_of_packetProcessing {w : World} {m : RteMbuf} {env : PacketEnv}
    {r : PacketResult} (h : m.Untagged) (hr : packetProcessing w m env = some r) :
    r.mbuf.swapEndpoints.Untagged := by
  have hswap : r.mbuf.swapEndpoints.Untagged ↔ r.mbuf.Untagged :=
    untagged_congr fun i hi => stores_of_lt r.mbuf.data r.mbuf.addressing.swap hi
  rw [hswap]
  rcases mbuf_packetProcessing_cases hr with heq | ⟨t, heq⟩ <;> rw [heq]
  · exact h
  · exact (untagged_congr fun i hi => modifyPacket_data_of_notMem m t (Or.inl hi)).mpr h

/-- **A frame that is forwarded is of one of the two legs of a binding.** -/
theorem binding_of_success {w : World} (hw : offloadMachine.Reachable w) {m : RteMbuf}
    {env : PacketEnv} {r : PacketResult} (hr : packetProcessing w m env = some r)
    (hret : r.ret = .success) :
    ∃ b : NatBinding, b.publicEnd.1 = rteCpuToBe32 srcIp ∧
      (m.addressing = b.outLeg.key ∧ r.mbuf.addressing = b.outLeg.out ∨
        m.addressing = b.inLeg.key ∧ r.mbuf.addressing = b.inLeg.out) := by
  have hinv := flowInv_of_reachable hw
  rcases packetProcessing_cases w m env with ⟨heq, -⟩ | ⟨heq, -⟩ | ⟨k, heq, -, hk⟩
  · -- not admitted
    rw [heq] at hr
    obtain rfl := Option.some.inj hr
    cases hret
  · -- the frame opens a flow, and is sent on its out leg
    rw [heq] at hr
    refine ⟨newBinding m.addressing (dequeuePortObject w.portPool).1, rfl, Or.inl ⟨rfl, ?_⟩⟩
    rcases (createFlow_cases hr).2 with ⟨-, rfl⟩ | ⟨hadd, -, hres⟩
    · cases hret
    · cases hadd' : env.addBack with
      | false =>
          rw [hres] at hret
          simp [hadd'] at hret
      | true =>
          rw [addressing_of_createFlow hr, PacketEnv.recorded, hadd, hadd']
          rfl
  · -- the frame is of a stored key, which is paired
    rw [heq] at hr
    obtain rfl := Option.some.inj hr
    obtain ⟨-, htuple, p, b, hp⟩ := hinv.stored _ k hk
    rw [getIpv4_5tuple_eq] at htuple
    refine ⟨b, hp.publicAddr, ?_⟩
    rcases k.eq_out_or_eq_back with hdir | hdir
    · left
      rw [hdir, hp.outTuple, RdarmFiveTuple.ofAddressing_inj] at htuple
      rw [addressing_knownFlow, hdir, hp.outModify, RdarmFiveTuple.addressing_ofAddressing]
      exact ⟨htuple.2.symm, rfl⟩
    · right
      rw [hdir, hp.backTuple, RdarmFiveTuple.ofAddressing_inj] at htuple
      rw [addressing_knownFlow, hdir, hp.backModify, RdarmFiveTuple.addressing_ofAddressing]
      exact ⟨htuple.2.symm, rfl⟩

/-- **When a reply is hashed like the frame it answers.**  Whatever untagged frame is forwarded
in a reachable state, in either direction and for any number of queues: the reply to what was sent
has the hash of what came in exactly if the client's address folds like `SRC_IP`. -/
theorem replyHash_eq_iff {w : World} (hw : offloadMachine.Reachable w) {m : RteMbuf}
    {env : PacketEnv} {r : PacketResult} (htag : m.Untagged)
    (hr : packetProcessing w m env = some r) (hret : r.ret = .success) (queuesQuantity : ℕ) :
    ∃ b : NatBinding, b.publicEnd.1 = rteCpuToBe32 srcIp ∧
      (m.addressing = b.outLeg.key ∧ r.mbuf.addressing = b.outLeg.out ∨
        m.addressing = b.inLeg.key ∧ r.mbuf.addressing = b.inLeg.out) ∧
      (r.mbuf.swapEndpoints.rssHash (defaultRssConf queuesQuantity) =
          m.rssHash (defaultRssConf queuesQuantity) ↔
        foldAddress (rteBeToCpu32 b.inside.src.1) = foldAddress srcIp) := by
  obtain ⟨b, hpublic, hleg⟩ := binding_of_success hw hr hret
  have hwire : rteBeToCpu32 b.publicEnd.1 = srcIp := by
    rw [hpublic, rteBeToCpu32, rteCpuToBe32, bswap32_bswap32]
  refine ⟨b, hpublic, hleg, ?_⟩
  rw [rssHash_of_untagged (untagged_of_packetProcessing htag hr), rssHash_of_untagged htag,
    rssHash_eq_iff, swapEndpoints_addressing]
  rcases hleg with ⟨hin, hout⟩ | ⟨hin, hout⟩
  · rw [hin, hout]
    show foldAddress (rteBeToCpu32 b.inside.dst.1) ^^^ foldAddress (rteBeToCpu32 b.publicEnd.1) =
      foldAddress (rteBeToCpu32 b.inside.src.1) ^^^ foldAddress (rteBeToCpu32 b.inside.dst.1) ↔ _
    rw [hwire, UInt16.xor_comm, UInt16.xor_left_inj]
    exact eq_comm
  · rw [hin, hout]
    show foldAddress (rteBeToCpu32 b.inside.src.1) ^^^ foldAddress (rteBeToCpu32 b.inside.dst.1) =
      foldAddress (rteBeToCpu32 b.inside.dst.1) ^^^ foldAddress (rteBeToCpu32 b.publicEnd.1) ↔ _
    rw [hwire, UInt16.xor_comm, UInt16.xor_right_inj]

/-- The client `10.0.0.1` does not get its replies by the hash of its requests. -/
theorem replyHash_ne_firstCall :
    (firstCall.get firstCall_isSome).mbuf.swapEndpoints.rssHash (defaultRssConf 2) ≠
      (udpFrame 100 ⟨client, server⟩).rssHash (defaultRssConf 2) := by
  have hreach : offloadMachine.Reachable initialSingle :=
    ⟨_, [], [], init_initialSingle, .nil _⟩
  have hr : packetProcessing initialSingle (udpFrame 100 ⟨client, server⟩) .allSucceed =
      some (firstCall.get firstCall_isSome) := (Option.some_get firstCall_isSome).symm
  have hret : (firstCall.get firstCall_isSome).ret = .success := by decide +kernel
  have houtside : server.1 ≠ rteCpuToBe32 srcIp := by decide +kernel
  obtain ⟨b, hpublic, hleg, hiff⟩ := replyHash_eq_iff hreach (udpFrame_fixedLayout 100 _).1 hr hret 2
  rw [udpFrame_addressing] at hleg
  rcases hleg with ⟨hin, -⟩ | ⟨hin, -⟩
  · have hclient := congrArg Addressing.src hin
    rw [Ne, hiff, ← show client = b.inside.src from hclient]
    decide
  · have hserver : server = b.publicEnd := (Addressing.mk.inj hin).2
    exact absurd ((congrArg Prod.fst hserver).trans hpublic) houtside

end SmartOffload
