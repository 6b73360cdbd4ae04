import SmartOffload.System

/-!
# What is sent, and what the NIC is told about it

The tail of `packet_processing` writes `modify_tuple` into a frame and asks the NIC for its
checksums, in terms of `struct rte_tcp_hdr` for both protocols.  For the bytes that is the
same (`bytesRewritten_of_success`).  For the metadata it is not: the length is that of a
TCP header, and the checksum flags, two values of one field, are or-ed to the value for
UDP.  So a TCP frame gets the flag of the other protocol and a UDP frame the length
(`not_rewritten_of_success`).
-/

namespace SmartOffload

open ByteMemory

/-- `RTE_MBUF_F_TX_L4_MASK`. -/
def rteMbufFTxL4Mask : UInt64 := (3 : UInt64) <<< 52

/-- `sizeof(struct rte_udp_hdr)`. -/
def udpHdrLen : ℕ := 8

/-- An option-less IPv4 header of a TCP or UDP frame begins at this offset: 14 in an untagged
frame. -/
structure RteMbuf.Ipv4At (m : RteMbuf) (offset : ℕ) : Prop where
  optionLess : m.data offset = 0x45
  proto : m.data (offset + 9) = ipprotoTcp ∨ m.data (offset + 9) = ipprotoUdp

/-- **Only the addresses and ports change**, to those of a tuple. -/
structure BytesRewritten (offset : ℕ) (m m' : RteMbuf) (t : RdarmFiveTuple) : Prop where
  frame : ∀ i, i < offset + 12 ∨ offset + 24 ≤ i → m'.data i = m.data i
  srcAddr : m'.data.load32 (offset + 12) = t.ip1
  dstAddr : m'.data.load32 (offset + 16) = t.ip2
  srcPort : m'.data.load16 (offset + 20) = t.port1
  dstPort : m'.data.load16 (offset + 22) = t.port2

/-- **The transmit metadata describe the frame**: the checksum asked for and the length of
the L4 header are those of its protocol. -/
structure MetadataDescribe (offset : ℕ) (m m' : RteMbuf) : Prop where
  tcp : m.data (offset + 9) = ipprotoTcp →
    m'.olFlags &&& rteMbufFTxL4Mask = rteMbufFTxTcpCksum ∧ m'.l4Len = tcpHdrLen
  udp : m.data (offset + 9) = ipprotoUdp →
    m'.olFlags &&& rteMbufFTxL4Mask = rteMbufFTxUdpCksum ∧ m'.l4Len = udpHdrLen

/-- A frame is rewritten by the `modify_tuple` of the flow key it belongs to. -/
theorem mbuf_of_success {w : World} {m : RteMbuf} {env : PacketEnv} {r : PacketResult}
    {k : KeyPtr} (hr : packetProcessing w m env = some r) (hret : r.ret = .success)
    (hk : frameOwner w m = some k) : r.mbuf = modifyPacket m (r.world.keys k).modifyTuple := by
  rcases packetProcessing_cases w m env with ⟨heq, -⟩ | ⟨heq, hopen⟩ | ⟨k', heq, hs, hk'⟩
  · rw [hr] at heq
    rw [Option.some.inj heq] at hret
    cases hret
  · rw [frameOwner, if_pos hopen.1, hopen.lookup, Option.getD_none] at hk
    obtain rfl := Option.some.inj hk
    rw [hr] at heq
    rcases (createFlow_cases heq.symm).2 with ⟨-, rfl⟩ | ⟨-, -, rfl⟩
    · cases hret
    · have hadd : env.addBack = true := by
        by_contra hno
        simp [hno] at hret
      simp only [hadd, if_true, addSymmetricalFlow, Function.update_self]
  · rw [frameOwner, if_pos hs, hk', Option.getD_some] at hk
    obtain rfl := Option.some.inj hk
    rw [hr] at heq
    rw [Option.some.inj heq]
    rfl

/-- **The bytes are right**: in an untagged frame only the addresses and ports change, to
those of the flow's `modify_tuple`. -/
theorem bytesRewritten_of_success {w : World} {m : RteMbuf} {env : PacketEnv}
    {r : PacketResult} {k : KeyPtr} (hr : packetProcessing w m env = some r)
    (hret : r.ret = .success) (hk : frameOwner w m = some k) :
    BytesRewritten etherHdrLen m r.mbuf (r.world.keys k).modifyTuple := by
  rw [mbuf_of_success hr hret hk]
  have haddr := modifyPacket_addressing m (r.world.keys k).modifyTuple
  exact ⟨fun i hi => modifyPacket_data_of_notMem m _ hi,
    congrArg (fun a => a.src.1) haddr, congrArg (fun a => a.dst.1) haddr,
    congrArg (fun a => a.src.2) haddr, congrArg (fun a => a.dst.2) haddr⟩

/-- **The metadata are wrong**: whichever of the two protocols a frame has, they describe
the other one in part. -/
theorem not_metadataDescribe {m : RteMbuf} {offset : ℕ} (hm : m.Ipv4At offset)
    (t : RdarmFiveTuple) : ¬ MetadataDescribe offset m (modifyPacket m t) := by
  intro h
  rcases hm.proto with htcp | hudp
  · -- the flags for both protocols together are those for UDP
    have hcksum : (rteMbufFTxIpCksum ||| rteMbufFTxTcpCksum ||| rteMbufFTxUdpCksum) &&&
        rteMbufFTxL4Mask ≠ rteMbufFTxTcpCksum := by decide
    exact hcksum (h.tcp htcp).1
  · have hlen : tcpHdrLen ≠ udpHdrLen := by decide
    exact hlen (h.udp hudp).2

/-- **When a sent frame is rewritten and described**: never.  No call that succeeds on an
option-less TCP or UDP frame, of a new flow or of a known one, leaves both right. -/
theorem not_rewritten_of_success {w : World} {m : RteMbuf} {offset : ℕ} {env : PacketEnv}
    {r : PacketResult} {k : KeyPtr} (hm : m.Ipv4At offset)
    (hr : packetProcessing w m env = some r) (hret : r.ret = .success)
    (hk : frameOwner w m = some k) :
    ¬ (BytesRewritten offset m r.mbuf (r.world.keys k).modifyTuple ∧
      MetadataDescribe offset m r.mbuf) := by
  rintro ⟨-, hmeta⟩
  rw [mbuf_of_success hr hret hk] at hmeta
  exact not_metadataDescribe hm _ hmeta

/-- The first frame of a flow, of a protocol. -/
def firstFrame (proto : UInt8) (ptypeL4 : UInt32) : RteMbuf :=
  ipv4Frame proto (rtePtypeL3Ipv4 ||| ptypeL4) 100 ⟨client, server⟩

theorem firstFrame_ipv4At {proto : UInt8} (ptypeL4 : UInt32)
    (h : proto = ipprotoTcp ∨ proto = ipprotoUdp) :
    (firstFrame proto ptypeL4).Ipv4At etherHdrLen where
  optionLess := ipv4Frame_optionLess ..
  proto := by
    have hproto : (firstFrame proto ptypeL4).data 23 = proto := ipv4Frame_proto ..
    rwa [show etherHdrLen + 9 = 23 from rfl, hproto]

/-- What the worker makes of a first UDP frame. -/
theorem udpResult_isSome :
    (packetProcessing initialSingle (firstFrame ipprotoUdp rtePtypeL4Udp)
      .allSucceed).isSome = true := by
  decide +kernel

/-- A UDP frame is sent with the length of a TCP header. -/
theorem not_rewritten_firstUdp : ∃ r,
    packetProcessing initialSingle (firstFrame ipprotoUdp rtePtypeL4Udp) .allSucceed = some r ∧
      ¬ (BytesRewritten etherHdrLen (firstFrame ipprotoUdp rtePtypeL4Udp) r.mbuf
          (r.world.keys (.out 0)).modifyTuple ∧
        MetadataDescribe etherHdrLen (firstFrame ipprotoUdp rtePtypeL4Udp) r.mbuf) := by
  have hr := (Option.some_get udpResult_isSome).symm
  refine ⟨_, hr, ?_⟩
  exact not_rewritten_of_success (firstFrame_ipv4At rtePtypeL4Udp (Or.inr rfl)) hr
    (by decide +kernel) (by decide +kernel)

/-- What the worker makes of a first TCP frame. -/
theorem tcpResult_isSome :
    (packetProcessing initialSingle (firstFrame ipprotoTcp rtePtypeL4Tcp)
      .allSucceed).isSome = true := by
  decide +kernel

/-- **A TCP frame is sent with the flag for UDP**: the call succeeds, and the NIC is asked
for a UDP checksum. -/
theorem not_rewritten_firstTcp : ∃ r,
    packetProcessing initialSingle (firstFrame ipprotoTcp rtePtypeL4Tcp) .allSucceed = some r ∧
      r.ret = .success ∧ r.mbuf.olFlags &&& rteMbufFTxL4Mask = rteMbufFTxUdpCksum ∧
      ¬ (BytesRewritten etherHdrLen (firstFrame ipprotoTcp rtePtypeL4Tcp) r.mbuf
          (r.world.keys (.out 0)).modifyTuple ∧
        MetadataDescribe etherHdrLen (firstFrame ipprotoTcp rtePtypeL4Tcp) r.mbuf) := by
  have hr := (Option.some_get tcpResult_isSome).symm
  have hflags : ((packetProcessing initialSingle (firstFrame ipprotoTcp rtePtypeL4Tcp)
      .allSucceed).get tcpResult_isSome).mbuf.olFlags &&& rteMbufFTxL4Mask =
        rteMbufFTxUdpCksum := by decide +kernel
  refine ⟨_, hr, by decide +kernel, hflags, fun h => ?_⟩
  have hproto : (firstFrame ipprotoTcp rtePtypeL4Tcp).data (etherHdrLen + 9) = ipprotoTcp :=
    ipv4Frame_proto ..
  have hne : rteMbufFTxUdpCksum ≠ rteMbufFTxTcpCksum := by decide
  exact hne (hflags.symm.trans (h.2.tcp hproto).1)

end SmartOffload
