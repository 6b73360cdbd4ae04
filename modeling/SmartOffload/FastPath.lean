import SmartOffload.Pairing

/-!
# The fast path and the slow path

Once a flow is offloaded its frames are rewritten by the actions of its rule
instead of by `packet_processing`.  `RteFlowAction.edit` is what an action does to
a frame; only `RTE_FLOW_ACTION_TYPE_SET_IPV4_DST` does anything.

The rule sets one constant destination address, whatever the flow.  The two paths
agree on a frame of a stored key exactly when that happens to be the translation
of the flow (`fastEqualsSlow_iff`): for an out-direction key, when its source
already is its public endpoint and its destination is the constant; for an
in-direction key, when the opener is at the constant address and sends from its
NAT port.
-/

namespace SmartOffload

open ByteMemory

/-- What an action does to a frame passing through its rule. -/
def RteFlowAction.edit : RteFlowAction → RteMbuf → RteMbuf
  | .setIpv4Dst ipv4Addr, m =>
      { m with data := m.data.store32 (etherHdrLen + dstAddrOffset) ipv4Addr }
  | _, m => m

/-- The actions of a rule, in order. -/
def applyActions (actions : List RteFlowAction) (m : RteMbuf) : RteMbuf :=
  actions.foldl (fun m action => action.edit m) m

/-- The rule that `create_general_offload_flow` installs when the NIC accepts it. -/
def installedRule (nic : Nic) (portId : UInt16) (flowPtr : KeyPtr) (flowKey : SmtoFlowKey) :
    Option RteFlow :=
  match createGeneralOffloadFlow nic portId flowPtr flowKey true with
  | (some flow, nic) => nic.flows flow
  | (none, _) => none

/-- **Fast path equals slow path**, on one frame of a flow key: the rule of the key
addresses it as the rewrite of `packet_processing` does. -/
def FastEqualsSlow (w : World) (portId : UInt16) (k : KeyPtr) (m : RteMbuf) : Prop :=
  ∃ r ∈ installedRule w.nic portId k (w.keys k),
    (applyActions r.actions m).addressing = (modifyPacket m (w.keys k).modifyTuple).addressing

instance (w : World) (portId : UInt16) (k : KeyPtr) (m : RteMbuf) :
    Decidable (FastEqualsSlow w portId k m) :=
  inferInstanceAs (Decidable (∃ r ∈ installedRule w.nic portId k (w.keys k), _ = _))

/-- The address every offload rule sets. -/
def ruleDst : UInt32 := rteIpv4 5 5 5 5

/-- When the constant of the rule is the translation of the flow, from the flow's
out-direction key: its source, its destination and its NAT port. -/
def RuleTranslates (w : World) (k : KeyPtr) : Prop :=
  let opener := w.keys (.out k.serial)
  match k.dir with
  | .outDirection => opener.tuple.ip1 = rteCpuToBe32 srcIp ∧
      opener.tuple.port1 = opener.modifyTuple.port1 ∧ opener.tuple.ip2 = ruleDst
  | .inDirection => opener.tuple.ip1 = ruleDst ∧
      opener.tuple.port1 = opener.modifyTuple.port1

theorem edit_setIpv4Dst_addressing (ipv4Addr : UInt32) (m : RteMbuf) :
    ((RteFlowAction.setIpv4Dst ipv4Addr).edit m).addressing =
      ⟨m.addressing.src, (ipv4Addr, m.addressing.dst.2)⟩ := by
  simp only [RteFlowAction.edit, RteMbuf.addressing, etherHdrLen, dstAddrOffset,
    Nat.reduceAdd]
  rw [load32_store32_of_disjoint _ _ (by omega), load16_store32_of_disjoint _ _ (by omega),
    load32_store32_self, load16_store32_of_disjoint _ _ (by omega)]

/-- **What the offload rule does to a frame**: one destination address for all. -/
theorem applyActions_generalOffloadActions (k : KeyPtr) (m : RteMbuf) :
    (applyActions (generalOffloadActions k) m).addressing =
      ⟨m.addressing.src, (ruleDst, m.addressing.dst.2)⟩ :=
  edit_setIpv4Dst_addressing ruleDst m

/-- For TCP and UDP keys the NIC gets the offload rule. -/
theorem installedRule_of_offloadable (nic : Nic) (portId : UInt16) (k : KeyPtr)
    {flowKey : SmtoFlowKey} (hoff : Offloadable flowKey) :
    ∃ pattern, installedRule nic portId k flowKey = some (offloadRule portId k pattern) := by
  rcases createGeneralOffloadFlow_cases nic portId k flowKey true with
    ⟨-, hno⟩ | ⟨-, pattern, heq⟩
  · exact absurd ⟨rfl, hoff⟩ hno
  · refine ⟨pattern, ?_⟩
    rw [installedRule, heq]
    show (nic.install _).flows nic.next = _
    rw [Nic.flows_install, if_pos rfl]

/-- For a paired key, the constant is the translation exactly when the rewritten
addressings agree. -/
theorem ruleTranslates_iff {w : World} {k : KeyPtr} (hp : Paired w k.serial) :
    (⟨(w.keys k).tuple.addressing.src, (ruleDst, (w.keys k).tuple.addressing.dst.2)⟩ :
        Addressing (UInt32 × UInt16)) = (w.keys k).modifyTuple.addressing ↔
      RuleTranslates w k := by
  obtain ⟨p, ⟨⟨⟨sip, sport⟩, ⟨dip, dport⟩⟩, ⟨pip, pport⟩⟩, hpair⟩ := hp
  have hpublic : pip = rteCpuToBe32 srcIp := hpair.publicAddr
  rcases k with ⟨n, _ | _⟩
  · have htuple : (w.keys ⟨n, .outDirection⟩).tuple = _ := hpair.outTuple
    have hmodify : (w.keys ⟨n, .outDirection⟩).modifyTuple = _ := hpair.outModify
    simp only [RuleTranslates, KeyPtr.out]
    rw [htuple, hmodify, ← hpublic, Addressing.ext_iff, Prod.ext_iff, Prod.ext_iff]
    constructor
    · rintro ⟨⟨hip, hport⟩, hdst, -⟩
      exact ⟨hip, hport, hdst.symm⟩
    · rintro ⟨hip, hport, hdst⟩
      exact ⟨⟨hip, hport⟩, hdst.symm, rfl⟩
  · have htuple : (w.keys ⟨n, .inDirection⟩).tuple = _ := hpair.backTuple
    have hmodify : (w.keys ⟨n, .inDirection⟩).modifyTuple = _ := hpair.backModify
    simp only [RuleTranslates]
    rw [htuple, hmodify, hpair.outTuple, hpair.outModify, Addressing.ext_iff, Prod.ext_iff,
      Prod.ext_iff]
    constructor
    · rintro ⟨-, hdst, hport⟩
      exact ⟨hdst.symm, hport.symm⟩
    · rintro ⟨hdst, hport⟩
      exact ⟨⟨rfl, rfl⟩, hdst.symm, hport.symm⟩

/-- **When the fast path equals the slow path.**  In a reachable state, for a stored
key of either direction and a TCP or UDP frame of it: exactly when the constant
the rule sets is the translation of the flow. -/
theorem fastEqualsSlow_iff {w : World} (hw : offloadMachine.Reachable w) {t : RdarmFiveTuple}
    {k : KeyPtr} (hk : w.flowHashMap.lookup t = some k) (portId : UInt16) {m : RteMbuf}
    (hm : getIpv4_5tuple m ipv4Mask = (w.keys k).tuple)
    (hproto : m.proto = ipprotoTcp ∨ m.proto = ipprotoUdp) :
    FastEqualsSlow w portId k m ↔ RuleTranslates w k := by
  obtain ⟨-, -, hp⟩ := (flowInv_of_reachable hw).stored t k hk
  rw [← ruleTranslates_iff hp, ← hm]
  have hoff : Offloadable (w.keys k) := by
    rw [Offloadable, ← hm, getIpv4_5tuple_eq]
    exact hproto
  obtain ⟨pattern, hrule⟩ := installedRule_of_offloadable w.nic portId k hoff
  -- both paths start from the addressing of the key's own tuple
  have haddressing : (getIpv4_5tuple m ipv4Mask).addressing = m.addressing := by
    rw [getIpv4_5tuple_eq, RdarmFiveTuple.addressing_ofAddressing]
  rw [FastEqualsSlow, hrule, haddressing, modifyPacket_addressing]
  constructor
  · rintro ⟨r, hr, heq⟩
    obtain rfl := Option.some.inj hr
    rwa [← applyActions_generalOffloadActions k m]
  · intro heq
    refine ⟨_, rfl, ?_⟩
    rw [← heq]
    exact applyActions_generalOffloadActions k m

/-- A flow from the public endpoint itself to the constant address. -/
def constantRun : Option (World × List Obs) :=
  offloadMachine.exec initialSingle [.udp (endpoint 5 1 1 1 1) (endpoint 5 5 5 5 53)]

theorem constantRun_isSome : constantRun.isSome = true := by decide +kernel

/-- For such a flow the rule does translate. -/
theorem fastEqualsSlow_constantRun :
    FastEqualsSlow (constantRun.get constantRun_isSome).1 0 (.out 0)
      (udpFrame 100 ⟨endpoint 5 1 1 1 1, endpoint 5 5 5 5 53⟩) := by
  have hreach := Machine.reachable_exec_get init_initialSingle constantRun_isSome
  have hk : (constantRun.get constantRun_isSome).1.flowHashMap.lookup
      (getIpv4_5tuple (udpFrame 100 ⟨endpoint 5 1 1 1 1, endpoint 5 5 5 5 53⟩) ipv4Mask) =
        some (.out 0) := by decide +kernel
  exact (fastEqualsSlow_iff hreach hk 0 (by decide +kernel) (Or.inr (udpFrame_proto _ _))).mpr
    ⟨by decide +kernel, by decide +kernel, by decide +kernel⟩

/-- **The first flow of a system is translated differently** by its rule: the slow path
changes the source and keeps the destination, the rule does the opposite. -/
theorem not_fastEqualsSlow_oneFlow :
    offloadMachine.Reachable oneFlowWorld ∧
      oneFlowWorld.flowHashMap.lookup
        (getIpv4_5tuple (udpFrame 100 ⟨client, server⟩) ipv4Mask) = some (.out 0) ∧
      ¬ FastEqualsSlow oneFlowWorld 0 (.out 0) (udpFrame 100 ⟨client, server⟩) :=
  ⟨reachable_oneFlowWorld, by decide +kernel, by decide +kernel⟩

end SmartOffload
