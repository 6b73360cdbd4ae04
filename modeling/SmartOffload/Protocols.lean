import SmartOffload.Pairing

/-!
# Which protocols reach the flow engine

The engine builds rules for TCP and UDP keys and for no others: what it dequeues
was admitted by the filter of `packet_processing`, in another file.  The filter
tests two bits of the L4 packet type, which is an enumeration: the types of
fragments, ICMP, IGMP and unrecognised protocols share a bit with TCP or UDP.

A key has the protocol of the frame that opened its flow, so the engine is safe
exactly when such frames are TCP or UDP where extraction reads the protocol
(`protocolsSupported_iff_proto`).  For packet types assigned consistently with
the frame that is a condition on the type (`protocolsSupported_iff`), and the
filter does not enforce it (`not_protocolsSupported_icmpEvents`).
-/

namespace SmartOffload

/-! ### The claim of the filter -/

/-- **Only TCP and UDP**: what the table stores, what the engine has dequeued, and
the partners it goes on to.  A pattern exists for each of them, so the branch for
an unsupported protocol is out of reach. -/
structure ProtocolsSupported (w : World) : Prop where
  stored : ∀ t k, w.flowHashMap.lookup t = some k → Offloadable (w.keys k)
  dequeued : ∀ k ∈ w.burst, Offloadable (w.keys k)
  patterns : ∀ k ∈ w.burst, ∀ k', k' = k ∨ (w.keys k).symmetricalFlowKey = some k' →
    ∀ readSpec, generalOffloadPattern readSpec (w.keys k') ≠ none

/-- The invariant behind it: everything stored or waiting. -/
structure SupportedInv (w : World) : Prop where
  stored : ∀ t k, w.flowHashMap.lookup t = some k → Offloadable (w.keys k)
  queued : ∀ k ∈ w.pending, Offloadable (w.keys k)

/-- Both keys of a dequeued pair have one protocol. -/
theorem SupportedInv.protocolsSupported {w : World} (hinv : SupportedInv w)
    (hflow : FlowInv w) : ProtocolsSupported w where
  stored := hinv.stored
  dequeued k hk := hinv.queued k (List.mem_append_left _ hk)
  patterns k hk k' hk' readSpec := by
    have hmem : k ∈ w.pending := List.mem_append_left _ hk
    have hoff : Offloadable (w.keys k) := hinv.queued k hmem
    have hp : Paired w k.serial := (hflow.queued k hmem).2
    rw [ne_eq, generalOffloadPattern_eq_none_iff, not_not]
    rcases hk' with rfl | hlink
    · exact hoff
    · rw [hp.link] at hlink
      obtain rfl := Option.some.inj hlink
      exact hp.offloadable_partner hoff

/-- The guard: a flow that is inserted was opened by a TCP or UDP frame, going by
the byte extraction reads. -/
def OpensSupported (w : World) : OffloadEvent → Prop
  | .packet _ m env => OpensFlow w m → env.addOut = true →
      m.proto = ipprotoTcp ∨ m.proto = ipprotoUdp
  | _ => True

theorem supportedInv_of_init {w : World} (h : offloadMachine.Init w) : SupportedInv w := by
  obtain ⟨mode, port0, port1, portPool, readSpec, -, -, rfl⟩ := h
  constructor
  · intro t k hk
    rw [initialWorld, AList.lookup_empty] at hk
    cases hk
  · intro k hk
    simp [World.pending, initialWorld, rteRingInit] at hk

/-- The protocol of a new pair is that of the frame. -/
theorem offloadable_of_createFlow {w : World} {m : RteMbuf} {env : PacketEnv}
    {r : PacketResult} (h : createFlow w m (getIpv4_5tuple m ipv4Mask) env = some r)
    (hadd : env.addOut = true) {k : KeyPtr} (hk : k.serial = w.serial) :
    Offloadable (r.world.keys k) ↔ m.proto = ipprotoTcp ∨ m.proto = ipprotoUdp := by
  have hpair := pairAt_createFlow h hadd
  rw [← hk] at hpair
  rcases k.eq_out_or_eq_back with heq | heq
  · rw [heq, Offloadable, hpair.outTuple]
    rfl
  · rw [heq, Offloadable, hpair.backTuple]
    rfl

/-- A new pair is stored, under the frame's tuple or in place of it. -/
theorem exists_lookup_of_createFlow {w : World} {m : RteMbuf} {env : PacketEnv}
    {r : PacketResult} (h : createFlow w m (getIpv4_5tuple m ipv4Mask) env = some r)
    (hadd : env.addOut = true) :
    ∃ k : KeyPtr, k.serial = w.serial ∧
      r.world.flowHashMap.lookup (getIpv4_5tuple m ipv4Mask) = some k := by
  rw [table_of_createFlow h, lookup_rteHashAddKeyData, lookup_rteHashAddKeyData]
  split
  · exact ⟨.back w.serial, rfl, rfl⟩
  · rw [if_pos ⟨hadd, rfl⟩]
    exact ⟨.out w.serial, rfl, rfl⟩

/-- **A guarded step keeps the invariant.** -/
theorem supportedInv_step {w w' : World} {e : OffloadEvent} {os : List Obs}
    (hflow : FlowInv w) (hinv : SupportedInv w) (hguard : OpensSupported w e)
    (h : Stepped w e w' os) : SupportedInv w' := by
  rcases h.opens_or_keepsFlows with ⟨portId, m, env, r, rfl, hopen, hr, rfl⟩ | hkeep
  · obtain ⟨-, -, hpending, -⟩ := frame_of_createFlow hr
    constructor
    · intro t k hk
      rcases lookup_of_createFlow hr hk with hk | ⟨hadd, hnew⟩
      · rw [keys_of_createFlow hr (hflow.stored t k hk).1.ne]
        exact hinv.stored t k hk
      · have hserial : k.serial = w.serial := by
          rcases hnew with ⟨-, rfl⟩ | ⟨-, rfl⟩ <;> rfl
        exact (offloadable_of_createFlow hr hadd hserial).mpr (hguard hopen hadd)
    · intro k hk
      rw [hpending] at hk
      rw [keys_of_createFlow hr (hflow.queued k hk).1.ne]
      exact hinv.queued k hk
  · have hsame : ∀ k, Offloadable (w'.keys k) ↔ Offloadable (w.keys k) := by
      intro k
      rw [Offloadable, Offloadable, hkeep.tuple]
    constructor
    · intro t k hk
      rw [hkeep.flowHashMap] at hk
      exact (hsame k).mpr (hinv.stored t k hk)
    · intro k hk
      rw [hsame]
      rcases mem_pending_of_stepped h hk with hk | ⟨t, hk⟩
      · exact hinv.queued k hk
      · exact hinv.stored t k hk

/-- A step that stores only TCP and UDP keys met the guard. -/
theorem opensSupported_of_stepped {w w' : World} {e : OffloadEvent} {os : List Obs}
    (h : Stepped w e w' os) (hsupp : ProtocolsSupported w') : OpensSupported w e := by
  cases h with
  | ignored hno => exact fun hopen => absurd hopen.1 (by simp [hno])
  | known hk => exact fun hopen => absurd hopen (not_opensFlow_of_lookup hk)
  | opened _ hr =>
      intro _ hadd
      obtain ⟨k, hserial, hk⟩ := exists_lookup_of_createFlow hr hadd
      exact (offloadable_of_createFlow hr hadd hserial).mp (hsupp.stored _ k hk)
  | dequeued _ => trivial
  | engine _ _ => trivial
  | aged _ => trivial
  | traffic _ _ _ => trivial
  | timeout _ => trivial

/-- **When only TCP and UDP reach the engine**, for frames and packet types of any
kind: when the frames that open flows are TCP or UDP by the byte extraction reads. -/
theorem protocolsSupported_iff_proto {w₀ w : World} {es : List OffloadEvent}
    {tr : List Obs} (hinit : offloadMachine.Init w₀) (hrun : offloadMachine.Run w₀ es tr w) :
    (∀ t, offloadMachine.Visits w₀ es t → ProtocolsSupported t) ↔
      offloadMachine.RunWhile OpensSupported w₀ es tr w :=
  Machine.run_forall_visited_iff (K := fun w => FlowInv w ∧ SupportedInv w) hrun
    ⟨flowInv_of_init hinit, supportedInv_of_init hinit⟩
    (fun hs => hs.2.protocolsSupported hs.1)
    (fun hs hguard hstep => ⟨flowInv_step hs.1 (stepped_of_step hstep),
      supportedInv_step hs.1 hs.2 hguard (stepped_of_step hstep)⟩)
    fun _ hstep hsupp => opensSupported_of_stepped (stepped_of_step hstep) hsupp

/-! ### Packet types -/

/-- `IPPROTO_ICMP`. -/
def ipprotoIcmp : UInt8 := 1

/-- `IPPROTO_IGMP`. -/
def ipprotoIgmp : UInt8 := 2

/-- `IPPROTO_SCTP`. -/
def ipprotoSctp : UInt8 := 132

/-- The L4 types that name a protocol. -/
def rtePtypeL4Protos : List (UInt32 × UInt8) :=
  [(rtePtypeL4Tcp, ipprotoTcp), (rtePtypeL4Udp, ipprotoUdp), (rtePtypeL4Sctp, ipprotoSctp),
    (rtePtypeL4Icmp, ipprotoIcmp), (rtePtypeL4Igmp, ipprotoIgmp)]

/-- **A packet type assigned consistently with the frame**: an enumerated L4 type;
where it names a protocol, an untagged frame has it, and where it says "none of
these", none of these. -/
structure RteMbuf.ConsistentPtype (m : RteMbuf) : Prop where
  enumerated : m.ptypeL4 ∈
    0 :: rtePtypeL4Frag :: rtePtypeL4Nonfrag :: rtePtypeL4Protos.map Prod.fst
  named : m.Untagged → ∀ x ∈ rtePtypeL4Protos, m.ptypeL4 = x.1 → m.proto = x.2
  nonfrag : m.Untagged → m.ptypeL4 = rtePtypeL4Nonfrag →
    m.proto ∉ rtePtypeL4Protos.map Prod.snd

instance : DecidablePred RteMbuf.ConsistentPtype := fun m =>
  -- over the list, not over all pairs of words
  have : Decidable (∀ x ∈ rtePtypeL4Protos, m.ptypeL4 = x.1 → m.proto = x.2) :=
    List.decidableBAll _ _
  decidable_of_iff (m.ptypeL4 ∈ _ ∧ (m.Untagged → _) ∧ (m.Untagged → _ → _))
    ⟨fun h => ⟨h.1, h.2.1, h.2.2⟩, fun h => ⟨h.enumerated, h.named, h.nonfrag⟩⟩

/-- What the filter would have to ask: the type of an untagged frame is TCP or UDP.
For a fragment the type does not tell the protocol, and behind a tag extraction
does not find it; there it is up to the byte extraction reads. -/
def RteMbuf.TypedTcpOrUdp (m : RteMbuf) : Prop :=
  if m.Untagged ∧ m.ptypeL4 ≠ rtePtypeL4Frag then
    m.ptypeL4 = rtePtypeL4Tcp ∨ m.ptypeL4 = rtePtypeL4Udp
  else m.proto = ipprotoTcp ∨ m.proto = ipprotoUdp

instance : DecidablePred RteMbuf.TypedTcpOrUdp := fun m =>
  inferInstanceAs (Decidable (if m.Untagged ∧ m.ptypeL4 ≠ rtePtypeL4Frag then _ else _))

/-- **Types and protocols of admitted frames agree**, if the types are consistent. -/
theorem typedTcpOrUdp_iff {m : RteMbuf} (hs : supportedPacketType m.packetType = true)
    (hm : m.ConsistentPtype) :
    m.TypedTcpOrUdp ↔ m.proto = ipprotoTcp ∨ m.proto = ipprotoUdp := by
  unfold RteMbuf.TypedTcpOrUdp
  split
  next h =>
    obtain ⟨htag, hfrag⟩ := h
    have hbits : m.ptypeL4 &&& (rtePtypeL4Udp ||| rtePtypeL4Tcp) ≠ 0 := by
      rw [← ptypeL4_and]
      simpa using (Bool.and_eq_true_iff.mp hs).2
    constructor
    · rintro (htcp | hudp)
      · exact Or.inl (hm.named htag (_, ipprotoTcp) (by decide) htcp)
      · exact Or.inr (hm.named htag (_, ipprotoUdp) (by decide) hudp)
    · intro hproto
      -- the other types are not admitted, or name another protocol
      have hnonfrag := hm.nonfrag htag
      have henum := hm.enumerated
      simp only [rtePtypeL4Protos, List.map_cons, List.map_nil, List.mem_cons,
        List.not_mem_nil, or_false] at henum hnonfrag
      rcases henum with heq | heq | heq | heq | heq | heq | heq | heq
      · rw [heq] at hbits
        exact absurd rfl hbits
      · exact absurd heq hfrag
      · exact absurd hproto (fun h => hnonfrag heq (h.imp_right Or.inl))
      · exact Or.inl heq
      · exact Or.inr heq
      · rw [heq] at hbits
        exact absurd rfl hbits
      · rw [hm.named htag (_, ipprotoIcmp) (by decide) heq] at hproto
        exact absurd hproto (by decide)
      · rw [hm.named htag (_, ipprotoIgmp) (by decide) heq] at hproto
        exact absurd hproto (by decide)
  · exact Iff.rfl

/-- Frames arrive with consistent packet types. -/
def OffloadEvent.ConsistentPtype : OffloadEvent → Prop
  | .packet _ m _ => m.ConsistentPtype
  | _ => True

/-- The guard, by packet types. -/
def OpensTyped (w : World) : OffloadEvent → Prop
  | .packet _ m env => OpensFlow w m → env.addOut = true → m.TypedTcpOrUdp
  | _ => True

theorem opensSupported_iff_opensTyped {w : World} {e : OffloadEvent}
    (h : e.ConsistentPtype) : OpensSupported w e ↔ OpensTyped w e := by
  cases e with
  | packet portId m env =>
      refine forall₂_congr fun hopen _ => ?_
      exact (typedTcpOrUdp_iff hopen.1 h).symm
  | dequeueBurst => exact Iff.rfl
  | flowEngine _ _ => exact Iff.rfl
  | ageing _ _ => exact Iff.rfl
  | traffic _ _ _ => exact Iff.rfl
  | timeout _ => exact Iff.rfl

/-- **When only TCP and UDP reach the engine**, over runs with consistent packet
types: exactly when every frame whose flow is inserted is typed TCP or UDP. -/
theorem protocolsSupported_iff {w₀ w : World} {es : List OffloadEvent} {tr : List Obs}
    (hinit : offloadMachine.Init w₀)
    (hrun : offloadMachine.RunWhile (fun _ e => e.ConsistentPtype) w₀ es tr w) :
    (∀ t, offloadMachine.Visits w₀ es t → ProtocolsSupported t) ↔
      offloadMachine.RunWhile OpensTyped w₀ es tr w := by
  rw [protocolsSupported_iff_proto hinit hrun.run]
  exact hrun.guard_congr opensSupported_iff_opensTyped

/-! ### Two protocols -/

/-- Five frames of one flow of a protocol, and the burst they cause. -/
def protoEvents (proto : UInt8) (ptypeL4 : UInt32) : List OffloadEvent :=
  -- 0x1 is `RTE_PTYPE_L2_ETHER`
  List.replicate 5 (.packet 0
    (ipv4Frame proto (0x1 ||| rtePtypeL3Ipv4 ||| ptypeL4) 100 ⟨client, server⟩) .allSucceed) ++
      [.dequeueBurst]

instance : DecidablePred OffloadEvent.ConsistentPtype
  | .packet _ m _ => inferInstanceAs (Decidable m.ConsistentPtype)
  | .dequeueBurst => inferInstanceAs (Decidable True)
  | .flowEngine _ _ => inferInstanceAs (Decidable True)
  | .ageing _ _ => inferInstanceAs (Decidable True)
  | .traffic _ _ _ => inferInstanceAs (Decidable True)
  | .timeout _ => inferInstanceAs (Decidable True)

instance (w : World) : DecidablePred (OpensTyped w)
  | .packet _ m env => inferInstanceAs (Decidable (OpensFlow w m → env.addOut = true → _))
  | .dequeueBurst => inferInstanceAs (Decidable True)
  | .flowEngine _ _ => inferInstanceAs (Decidable True)
  | .ageing _ _ => inferInstanceAs (Decidable True)
  | .traffic _ _ _ => inferInstanceAs (Decidable True)
  | .timeout _ => inferInstanceAs (Decidable True)

/-- A TCP flow on its way to the engine is supported throughout. -/
theorem protocolsSupported_tcp :
    ∃ tr w, offloadMachine.Run initialSingle (protoEvents ipprotoTcp rtePtypeL4Tcp) tr w ∧
      ∀ t, offloadMachine.Visits initialSingle (protoEvents ipprotoTcp rtePtypeL4Tcp) t →
        ProtocolsSupported t := by
  have hsome : (offloadMachine.exec initialSingle
      (protoEvents ipprotoTcp rtePtypeL4Tcp)).isSome = true := by decide +kernel
  have hrun := Machine.run_exec_get hsome
  refine ⟨_, _, hrun, ?_⟩
  exact (protocolsSupported_iff init_initialSingle (hrun.runWhile (by decide +kernel))).mpr
    (hrun.runWhile (by decide +kernel))

theorem icmpRun_isSome : (offloadMachine.exec initialSingle
    (protoEvents ipprotoIcmp rtePtypeL4Icmp)).isSome = true := by decide +kernel

/-- **ICMP reaches the engine**: its type shares a bit with TCP.  After five frames
with the type the NIC gives them, the engine is about to build a rule for a key it
has no pattern for. -/
theorem not_protocolsSupported_icmpEvents :
    ∃ tr w, offloadMachine.Init initialSingle ∧
      offloadMachine.RunWhile (fun _ e => e.ConsistentPtype) initialSingle
        (protoEvents ipprotoIcmp rtePtypeL4Icmp) tr w ∧
      w.burst = [.out 0] ∧
      (∀ readSpec, generalOffloadPattern readSpec (w.keys (.out 0)) = none) ∧
      ¬ ∀ t, offloadMachine.Visits initialSingle (protoEvents ipprotoIcmp rtePtypeL4Icmp) t →
        ProtocolsSupported t := by
  have hrun := Machine.run_exec_get icmpRun_isSome
  have hburst : ((offloadMachine.exec initialSingle
      (protoEvents ipprotoIcmp rtePtypeL4Icmp)).get icmpRun_isSome).1.burst = [.out 0] := by
    decide +kernel
  have hno : ¬ Offloadable (((offloadMachine.exec initialSingle
      (protoEvents ipprotoIcmp rtePtypeL4Icmp)).get icmpRun_isSome).1.keys (.out 0)) := by
    decide +kernel
  refine ⟨_, _, init_initialSingle, hrun.runWhile (by decide +kernel), hburst,
    fun readSpec => generalOffloadPattern_eq_none_iff.mpr hno, fun hall => ?_⟩
  refine (hall _ hrun.visits_end).patterns (.out 0) ?_ (.out 0) (Or.inl rfl) id
    (generalOffloadPattern_eq_none_iff.mpr hno)
  rw [hburst]
  exact List.mem_singleton_self _

end SmartOffload
