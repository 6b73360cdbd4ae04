import SmartOffload.FlowKey
import Mathlib.Tactic.IntervalCases

/-!
# Frames: key extraction and header rewriting

The part of `smto_worker.c` that touches packet memory.  A frame is the memory
from `rte_pktmbuf_mtod` on; the offsets are those of an untagged Ethernet frame
(`struct rte_ether_hdr`, `struct rte_ipv4_hdr`, `struct rte_tcp_hdr`).

`getIpv4_5tuple` is the 16-byte vector load and mask, with the union of
`struct smto_flow_key` re-read through its other layout.  Everything proved
later uses its value, `getIpv4_5tuple_eq`: the protocol and the addressing of the
frame, with the protocol byte left over in the prefix.
-/

namespace SmartOffload

open ByteMemory

/-- `struct rte_mbuf`: the frame, what the NIC says about it, and the transmit
metadata the worker fills in. -/
structure RteMbuf where
  /-- The bytes from `rte_pktmbuf_mtod` on. -/
  data : ByteMemory
  packetType : UInt32
  pktLen : UInt32
  l3Len : ℕ
  l4Len : ℕ
  olFlags : UInt64

/-! ### Header layout -/

/-- `sizeof(struct rte_ether_hdr)`. -/
def etherHdrLen : ℕ := 14

/-- `sizeof(struct rte_ipv4_hdr)`. -/
def ipv4HdrLen : ℕ := 20

/-- `sizeof(struct rte_tcp_hdr)`. -/
def tcpHdrLen : ℕ := 20

/-- `offsetof(struct rte_ipv4_hdr, time_to_live)`. -/
def timeToLiveOffset : ℕ := 8

/-- `offsetof(struct rte_ipv4_hdr, next_proto_id)`. -/
def nextProtoIdOffset : ℕ := 9

/-- `offsetof(struct rte_ipv4_hdr, src_addr)`. -/
def srcAddrOffset : ℕ := 12

/-- `offsetof(struct rte_ipv4_hdr, dst_addr)`. -/
def dstAddrOffset : ℕ := 16

/-- `offsetof(struct rte_tcp_hdr, src_port)`. -/
def srcPortOffset : ℕ := 0

/-- `offsetof(struct rte_tcp_hdr, dst_port)`. -/
def dstPortOffset : ℕ := 2

/-! ### The packet-type filter -/

/-- `RTE_PTYPE_L3_IPV4`. -/
def rtePtypeL3Ipv4 : UInt32 := 0x00000010

/-- `RTE_PTYPE_L4_TCP`. -/
def rtePtypeL4Tcp : UInt32 := 0x00000100

/-- `RTE_PTYPE_L4_UDP`. -/
def rtePtypeL4Udp : UInt32 := 0x00000200

/-- The admission test of `packet_processing`. -/
def supportedPacketType (packetType : UInt32) : Bool :=
  packetType &&& rtePtypeL3Ipv4 != 0 &&
    packetType &&& (rtePtypeL4Udp ||| rtePtypeL4Tcp) != 0

/-- `RTE_PTYPE_L4_MASK`. -/
def rtePtypeL4Mask : UInt32 := 0x00000f00

/-- `RTE_PTYPE_L4_FRAG`. -/
def rtePtypeL4Frag : UInt32 := 0x00000300

/-- `RTE_PTYPE_L4_SCTP`. -/
def rtePtypeL4Sctp : UInt32 := 0x00000400

/-- `RTE_PTYPE_L4_ICMP`. -/
def rtePtypeL4Icmp : UInt32 := 0x00000500

/-- `RTE_PTYPE_L4_NONFRAG`. -/
def rtePtypeL4Nonfrag : UInt32 := 0x00000600

/-- `RTE_PTYPE_L4_IGMP`. -/
def rtePtypeL4Igmp : UInt32 := 0x00000700

/-- The L4 type of a frame: a four-bit enumeration, not a bit set. -/
def RteMbuf.ptypeL4 (m : RteMbuf) : UInt32 := m.packetType &&& rtePtypeL4Mask

/-- The filter reads two bits of the L4 type. -/
theorem ptypeL4_and (m : RteMbuf) :
    m.packetType &&& (rtePtypeL4Udp ||| rtePtypeL4Tcp) =
      m.ptypeL4 &&& (rtePtypeL4Udp ||| rtePtypeL4Tcp) := by
  rw [RteMbuf.ptypeL4, UInt32.and_assoc]
  rfl

/-! ### Key extraction -/

/-- `ALL_32_BITS`. -/
def all32Bits : UInt32 := 0xffffffff

/-- `BIT_8_TO_15`. -/
def bit8To15 : UInt32 := 0x0000ff00

/-- The bytes of an `rte_xmm_t` given by its `u32` lanes. -/
def rteXmm (u32 : List UInt32) : ByteMemory :=
  fun i => UInt8.ofNat ((u32.getD (i / 4) 0).toNat / 256 ^ (i % 4))

/-- `ipv4_mask`. -/
def ipv4Mask : ByteMemory := rteXmm [bit8To15, all32Bits, all32Bits, all32Bits]

/-- `get_ipv4_5tuple`: sixteen bytes from the time-to-live field on, masked, and
read as a five-tuple after `key->tuple.proto = key->proto`. -/
def getIpv4_5tuple (m0 : RteMbuf) (mask0 : ByteMemory) : RdarmFiveTuple :=
  let tmpdata0 : ByteMemory := fun i => m0.data (etherHdrLen + timeToLiveOffset + i)
  let xmm : ByteMemory := fun i => tmpdata0 i &&& mask0 i
  -- the vector layout keeps the protocol in byte 1, the tuple layout in byte 0
  RdarmFiveTuple.ofMemory (Function.update xmm 0 (xmm 1))

/-- The protocol byte of a frame. -/
def RteMbuf.proto (m : RteMbuf) : UInt8 := m.data 23

/-- The addressing of a frame: its IPv4 addresses and the first two 16-bit words
after an option-less IPv4 header. -/
def RteMbuf.addressing (m : RteMbuf) : Addressing (UInt32 × UInt16) :=
  ⟨(m.data.load32 26, m.data.load16 34), (m.data.load32 30, m.data.load16 36)⟩

/-! ### Header fields

What the environment knows about a frame and the worker does not look at. -/

/-- The EtherType IPv4 follows the Ethernet addresses: there is no tag. -/
def RteMbuf.Untagged (m : RteMbuf) : Prop := m.data 12 = 0x08 ∧ m.data 13 = 0x00

/-- Version 4 and a header of five words: there are no options. -/
def RteMbuf.OptionLess (m : RteMbuf) : Prop := m.data 14 = 0x45

/-- No further fragment, and no offset. -/
def RteMbuf.Unfragmented (m : RteMbuf) : Prop := m.data 20 &&& 0x3f = 0 ∧ m.data 21 = 0

instance : DecidablePred RteMbuf.Untagged := fun _ => inferInstanceAs (Decidable (_ ∧ _))

instance : DecidablePred RteMbuf.OptionLess := fun _ => inferInstanceAs (Decidable (_ = _))

instance : DecidablePred RteMbuf.Unfragmented := fun _ => inferInstanceAs (Decidable (_ ∧ _))

/-- The headers are where the worker looks for them. -/
def RteMbuf.FixedLayout (m : RteMbuf) : Prop := m.Untagged ∧ m.OptionLess

instance : DecidablePred RteMbuf.FixedLayout := fun _ => inferInstanceAs (Decidable (_ ∧ _))

/-- The EtherType at an offset is that of a VLAN tag, 802.1Q or 802.1ad. -/
def RteMbuf.TaggedAt (m : RteMbuf) (offset : ℕ) : Prop :=
  m.data offset = 0x81 ∧ m.data (offset + 1) = 0x00 ∨
    m.data offset = 0x88 ∧ m.data (offset + 1) = 0xa8

instance (m : RteMbuf) (offset : ℕ) : Decidable (m.TaggedAt offset) :=
  inferInstanceAs (Decidable (_ ∨ _))

/-- Where the IPv4 header of a frame really begins, behind up to two tags. -/
def RteMbuf.ipv4Offset (m : RteMbuf) : ℕ :=
  if m.TaggedAt 12 then if m.TaggedAt 16 then 22 else 18 else etherHdrLen

/-- Where the TCP or UDP header really begins, behind as many words as the IPv4 header
says it has. -/
def RteMbuf.l4HdrOffset (m : RteMbuf) : ℕ :=
  m.ipv4Offset + 4 * (m.data m.ipv4Offset &&& 0x0f).toNat

/-- The protocol in the frame's own header. -/
def RteMbuf.ownProto (m : RteMbuf) : UInt8 := m.data (m.ipv4Offset + nextProtoIdOffset)

/-- The addressing in the frame's own headers. -/
def RteMbuf.ownAddressing (m : RteMbuf) : Addressing (UInt32 × UInt16) :=
  ⟨(m.data.load32 (m.ipv4Offset + srcAddrOffset),
      m.data.load16 (m.l4HdrOffset + srcPortOffset)),
    (m.data.load32 (m.ipv4Offset + dstAddrOffset),
      m.data.load16 (m.l4HdrOffset + dstPortOffset))⟩

theorem ipv4Offset_of_untagged {m : RteMbuf} (h : m.Untagged) : m.ipv4Offset = etherHdrLen := by
  refine if_neg fun htag => ?_
  rw [RteMbuf.TaggedAt, h.1] at htag
  rcases htag with ⟨htype, -⟩ | ⟨htype, -⟩ <;> exact absurd htype (by decide)

/-- Without a tag the worker reads the frame's own addresses. -/
theorem ownAddresses_of_untagged {m : RteMbuf} (h : m.Untagged) :
    m.ownAddressing.src.1 = m.addressing.src.1 ∧
      m.ownAddressing.dst.1 = m.addressing.dst.1 := by
  rw [RteMbuf.ownAddressing, ipv4Offset_of_untagged h]
  exact ⟨rfl, rfl⟩

section

variable {m : RteMbuf} (h : m.FixedLayout)
include h

/-- Without options either, it reads the frame's own protocol. -/
theorem ownProto_of_fixedLayout : m.ownProto = m.proto := by
  rw [RteMbuf.ownProto, ipv4Offset_of_untagged h.1]
  rfl

/-- And its own addressing. -/
theorem ownAddressing_of_fixedLayout : m.ownAddressing = m.addressing := by
  have hl4 : m.l4HdrOffset = 34 := by
    have hversion : m.data etherHdrLen = 0x45 := h.2
    rw [RteMbuf.l4HdrOffset, ipv4Offset_of_untagged h.1, hversion]
    rfl
  rw [RteMbuf.ownAddressing, hl4, ipv4Offset_of_untagged h.1]
  rfl

end

/-- The mask keeps every byte from the addresses on. -/
theorem ipv4Mask_of_le {i : ℕ} (h : 4 ≤ i) (h' : i < 16) : ipv4Mask i = 255 := by
  interval_cases i <;> rfl

/-- **What extraction computes.**  The protocol, twice, and the addressing. -/
theorem getIpv4_5tuple_eq (m : RteMbuf) :
    getIpv4_5tuple m ipv4Mask = .ofAddressing m.proto m.addressing := by
  have hkeep (b : UInt8) : b &&& 255 = b := UInt8.and_neg_one
  have hbyte : ∀ i, 4 ≤ i → i < 16 →
      Function.update (fun i => m.data (etherHdrLen + timeToLiveOffset + i) &&& ipv4Mask i) 0
        (m.data (etherHdrLen + timeToLiveOffset + 1) &&& ipv4Mask 1) i = m.data (22 + i) := by
    intro i hi hi'
    rw [Function.update_of_ne (by omega), ipv4Mask_of_le hi hi', hkeep]
    rfl
  have hproto : m.data (etherHdrLen + timeToLiveOffset + 1) &&& ipv4Mask 1 = m.data 23 :=
    hkeep _
  have hzero (b : UInt8) : b &&& 0 = 0 := UInt8.and_zero
  simp only [getIpv4_5tuple, RdarmFiveTuple.ofMemory]
  refine RdarmFiveTuple.ext ?_ (Prod.ext ?_ (Prod.ext ?_ ?_)) ?_ ?_ ?_ ?_
  · rw [Function.update_self]; exact hproto
  · rw [Function.update_of_ne (show 1 ≠ 0 by decide)]; exact hproto
  · rw [Function.update_of_ne (show 2 ≠ 0 by decide)]; exact hzero _
  · rw [Function.update_of_ne (show 3 ≠ 0 by decide)]; exact hzero _
  · exact load32_congr (b := 26) fun i hi => by
      rw [hbyte (4 + i) (by omega) (by omega), ← Nat.add_assoc]
  · exact load32_congr (b := 30) fun i hi => by
      rw [hbyte (8 + i) (by omega) (by omega), ← Nat.add_assoc]
  · exact load16_congr (b := 34) fun i hi => by
      rw [hbyte (12 + i) (by omega) (by omega), ← Nat.add_assoc]
  · exact load16_congr (b := 36) fun i hi => by
      rw [hbyte (14 + i) (by omega) (by omega), ← Nat.add_assoc]

/-! ### Header rewriting -/

/-- `RTE_MBUF_F_TX_IP_CKSUM`. -/
def rteMbufFTxIpCksum : UInt64 := (1 : UInt64) <<< 54

/-- `RTE_MBUF_F_TX_TCP_CKSUM`. -/
def rteMbufFTxTcpCksum : UInt64 := (1 : UInt64) <<< 52

/-- `RTE_MBUF_F_TX_UDP_CKSUM`. -/
def rteMbufFTxUdpCksum : UInt64 := (3 : UInt64) <<< 52

/-- The tail of `packet_processing`: write `modify_tuple` into the headers, in
the order of the source, and set the transmit metadata. -/
def modifyPacket (pktMbuf : RteMbuf) (modifyTuple : RdarmFiveTuple) : RteMbuf :=
  let ipv4Hdr := etherHdrLen
  let tcpHdr := ipv4Hdr + ipv4HdrLen
  let data := pktMbuf.data.store32 (ipv4Hdr + srcAddrOffset) modifyTuple.ip1
  let data := data.store16 (tcpHdr + srcPortOffset) modifyTuple.port1
  let data := data.store32 (ipv4Hdr + dstAddrOffset) modifyTuple.ip2
  let data := data.store16 (tcpHdr + dstPortOffset) modifyTuple.port2
  { pktMbuf with
    data := data
    l3Len := ipv4HdrLen
    l4Len := tcpHdrLen
    olFlags := rteMbufFTxIpCksum ||| rteMbufFTxTcpCksum ||| rteMbufFTxUdpCksum }

/-- Outside the address and port fields a rewritten frame is the frame. -/
theorem modifyPacket_data_of_notMem (m : RteMbuf) (t : RdarmFiveTuple) {i : ℕ}
    (h : i < 26 ∨ 38 ≤ i) : (modifyPacket m t).data i = m.data i := by
  simp only [modifyPacket, etherHdrLen, ipv4HdrLen, srcAddrOffset, dstAddrOffset,
    srcPortOffset, dstPortOffset]
  rw [store16_of_notMem _ _ (by omega), store32_of_notMem _ _ (by omega),
    store16_of_notMem _ _ (by omega), store32_of_notMem _ _ (by omega)]

@[simp] theorem modifyPacket_proto (m : RteMbuf) (t : RdarmFiveTuple) :
    (modifyPacket m t).proto = m.proto :=
  modifyPacket_data_of_notMem m t (by omega)

/-- A rewritten frame is addressed as `modify_tuple` says. -/
@[simp] theorem modifyPacket_addressing (m : RteMbuf) (t : RdarmFiveTuple) :
    (modifyPacket m t).addressing = t.addressing := by
  simp only [modifyPacket, etherHdrLen, ipv4HdrLen, srcAddrOffset, dstAddrOffset,
    srcPortOffset, dstPortOffset, RteMbuf.addressing, RdarmFiveTuple.addressing,
    Nat.reduceAdd, Nat.add_zero]
  rw [load32_store16_of_disjoint _ _ (by omega), load32_store32_of_disjoint _ _ (by omega),
    load32_store16_of_disjoint _ _ (by omega), load32_store32_self,
    load16_store16_of_disjoint _ _ (by omega), load16_store32_of_disjoint _ _ (by omega),
    load16_store16_self, load32_store16_of_disjoint _ _ (by omega), load32_store32_self,
    load16_store16_self]

/-- A frame without a tag, changed from the addresses on, has none. -/
theorem untagged_congr {m m' : RteMbuf} (h : ∀ i, i < 26 → m'.data i = m.data i) :
    m'.Untagged ↔ m.Untagged := by
  rw [RteMbuf.Untagged, RteMbuf.Untagged, h 12 (by decide), h 13 (by decide)]

/-- And a frame with its headers in place keeps them there. -/
theorem fixedLayout_congr {m m' : RteMbuf} (hsame : ∀ i, i < 26 → m'.data i = m.data i)
    (h : m.FixedLayout) : m'.FixedLayout := by
  refine ⟨(untagged_congr hsame).mpr h.1, ?_⟩
  rw [RteMbuf.OptionLess, hsame 14 (by decide)]
  exact h.2

/-- Rewriting leaves the headers where they are. -/
theorem fixedLayout_modifyPacket {m : RteMbuf} (h : m.FixedLayout) (t : RdarmFiveTuple) :
    (modifyPacket m t).FixedLayout :=
  fixedLayout_congr (fun _ hi => modifyPacket_data_of_notMem m t (Or.inl hi)) h

/-- Where the headers are where the worker writes them, the frame is really addressed so. -/
theorem ownAddressing_modifyPacket {m : RteMbuf} (h : m.FixedLayout) (t : RdarmFiveTuple) :
    (modifyPacket m t).ownAddressing = t.addressing := by
  rw [ownAddressing_of_fixedLayout (fixedLayout_modifyPacket h t), modifyPacket_addressing]

/-- The four fields of an addressing, written one after the other, are read back. -/
theorem loads_of_stores (data : ByteMemory) (a : Addressing (UInt32 × UInt16)) :
    let data := ((data.store32 26 a.src.1).store32 30 a.dst.1).store16 34 a.src.2
    let data := data.store16 36 a.dst.2
    (⟨(data.load32 26, data.load16 34), (data.load32 30, data.load16 36)⟩ :
      Addressing (UInt32 × UInt16)) = a := by
  dsimp only
  rw [load32_store16_of_disjoint _ _ (by omega), load32_store16_of_disjoint _ _ (by omega),
    load32_store32_of_disjoint _ _ (by omega), load32_store32_self,
    load16_store16_of_disjoint _ _ (by omega), load16_store16_self,
    load32_store16_of_disjoint _ _ (by omega), load32_store16_of_disjoint _ _ (by omega),
    load32_store32_self, load16_store16_self]

/-- Nothing in front of them is touched. -/
theorem stores_of_lt (data : ByteMemory) (a : Addressing (UInt32 × UInt16)) {i : ℕ}
    (h : i < 26) :
    ((((data.store32 26 a.src.1).store32 30 a.dst.1).store16 34 a.src.2).store16 36 a.dst.2) i =
      data i := by
  rw [store16_of_notMem _ _ (by omega), store16_of_notMem _ _ (by omega),
    store32_of_notMem _ _ (by omega), store32_of_notMem _ _ (by omega)]

/-- The frame of a reply: source and destination fields exchanged, everything
else kept. -/
def RteMbuf.swapEndpoints (m : RteMbuf) : RteMbuf :=
  let data := m.data.store32 26 (m.data.load32 30)
  let data := data.store32 30 (m.data.load32 26)
  let data := data.store16 34 (m.data.load16 36)
  let data := data.store16 36 (m.data.load16 34)
  { m with data := data }

@[simp] theorem swapEndpoints_proto (m : RteMbuf) : m.swapEndpoints.proto = m.proto :=
  stores_of_lt m.data m.addressing.swap (show 23 < 26 by decide)

@[simp] theorem swapEndpoints_addressing (m : RteMbuf) :
    m.swapEndpoints.addressing = m.addressing.swap :=
  loads_of_stores m.data m.addressing.swap

/-! ### Frames to send -/

/-- An untagged, option-less, unfragmented IPv4 frame of a protocol, with the packet type
and the addressing given. -/
def ipv4Frame (proto : UInt8) (packetType pktLen : UInt32)
    (a : Addressing (UInt32 × UInt16)) : RteMbuf where
  data :=
    let data : ByteMemory := Function.update (fun _ => 0) 23 proto
    let data : ByteMemory := Function.update (Function.update data 12 0x08) 14 0x45
    let data := data.store32 26 a.src.1
    let data := data.store32 30 a.dst.1
    let data := data.store16 34 a.src.2
    data.store16 36 a.dst.2
  packetType := packetType
  pktLen := pktLen
  l3Len := 0
  l4Len := 0
  olFlags := 0

/-- In front of the addresses such a frame has what the description says. -/
theorem ipv4Frame_data_of_lt (proto : UInt8) (packetType pktLen : UInt32)
    (a : Addressing (UInt32 × UInt16)) {i : ℕ} (h : i < 26) :
    (ipv4Frame proto packetType pktLen a).data i =
      if i = 14 then 0x45 else if i = 12 then 0x08 else if i = 23 then proto else 0 := by
  simp only [ipv4Frame]
  rw [stores_of_lt _ a h, Function.update_apply, Function.update_apply, Function.update_apply]

@[simp] theorem ipv4Frame_proto (proto : UInt8) (packetType pktLen : UInt32)
    (a : Addressing (UInt32 × UInt16)) :
    (ipv4Frame proto packetType pktLen a).proto = proto :=
  ipv4Frame_data_of_lt proto packetType pktLen a (by decide)

@[simp] theorem ipv4Frame_addressing (proto : UInt8) (packetType pktLen : UInt32)
    (a : Addressing (UInt32 × UInt16)) :
    (ipv4Frame proto packetType pktLen a).addressing = a := loads_of_stores _ a

theorem ipv4Frame_untagged (proto : UInt8) (packetType pktLen : UInt32)
    (a : Addressing (UInt32 × UInt16)) : (ipv4Frame proto packetType pktLen a).Untagged :=
  ⟨ipv4Frame_data_of_lt proto packetType pktLen a (by decide),
    ipv4Frame_data_of_lt proto packetType pktLen a (by decide)⟩

theorem ipv4Frame_optionLess (proto : UInt8) (packetType pktLen : UInt32)
    (a : Addressing (UInt32 × UInt16)) : (ipv4Frame proto packetType pktLen a).OptionLess :=
  ipv4Frame_data_of_lt proto packetType pktLen a (by decide)

theorem ipv4Frame_unfragmented (proto : UInt8) (packetType pktLen : UInt32)
    (a : Addressing (UInt32 × UInt16)) :
    (ipv4Frame proto packetType pktLen a).Unfragmented := by
  constructor
  · have hflags : (ipv4Frame proto packetType pktLen a).data 20 = 0 :=
      ipv4Frame_data_of_lt proto packetType pktLen a (by decide)
    rw [hflags]
    decide
  · exact ipv4Frame_data_of_lt proto packetType pktLen a (by decide)

/-- An untagged, option-less UDP frame with the given addressing. -/
def udpFrame (pktLen : UInt32) (a : Addressing (UInt32 × UInt16)) : RteMbuf :=
  ipv4Frame ipprotoUdp (rtePtypeL3Ipv4 ||| rtePtypeL4Udp) pktLen a

@[simp] theorem udpFrame_supported (pktLen : UInt32) (a : Addressing (UInt32 × UInt16)) :
    supportedPacketType (udpFrame pktLen a).packetType = true := by
  show supportedPacketType (rtePtypeL3Ipv4 ||| rtePtypeL4Udp) = true
  decide

@[simp] theorem udpFrame_proto (pktLen : UInt32) (a : Addressing (UInt32 × UInt16)) :
    (udpFrame pktLen a).proto = ipprotoUdp := ipv4Frame_proto ..

@[simp] theorem udpFrame_addressing (pktLen : UInt32) (a : Addressing (UInt32 × UInt16)) :
    (udpFrame pktLen a).addressing = a := ipv4Frame_addressing ..

theorem udpFrame_fixedLayout (pktLen : UInt32) (a : Addressing (UInt32 × UInt16)) :
    (udpFrame pktLen a).FixedLayout := ⟨ipv4Frame_untagged .., ipv4Frame_optionLess ..⟩

@[simp] theorem udpFrame_ownProto (pktLen : UInt32) (a : Addressing (UInt32 × UInt16)) :
    (udpFrame pktLen a).ownProto = ipprotoUdp := by
  rw [ownProto_of_fixedLayout (udpFrame_fixedLayout pktLen a), udpFrame_proto]

@[simp] theorem udpFrame_ownAddressing (pktLen : UInt32) (a : Addressing (UInt32 × UInt16)) :
    (udpFrame pktLen a).ownAddressing = a := by
  rw [ownAddressing_of_fixedLayout (udpFrame_fixedLayout pktLen a), udpFrame_addressing]

/-- Such a frame is found under its own addressing. -/
theorem getIpv4_5tuple_udpFrame (pktLen : UInt32) (a : Addressing (UInt32 × UInt16)) :
    getIpv4_5tuple (udpFrame pktLen a) ipv4Mask = .ofAddressing ipprotoUdp a := by
  rw [getIpv4_5tuple_eq, udpFrame_proto, udpFrame_addressing]

end SmartOffload
