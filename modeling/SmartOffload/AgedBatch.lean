import SmartOffload.System
import Mathlib.Data.List.Perm.Subperm

/-!
# One batch of aged rules

An aged event is raised once for the rules that time out together, and has one run of
`delete_timeout_flows` scheduled.  The run asks for the aged rules once, with room for
`TIMEOUT_FLOW_BATCH_SIZE` of them, and does not ask how many there are.

A rule that is reported, and whose handle its flow key stores, is destroyed
(`destroyed_of_reported`).  So one run is enough exactly for up to a batch of rules
(`batchSuffices_iff`); what is left over stays in the NIC until the next event.
-/

namespace SmartOffload

/-! ### What the NIC answers -/

/-- The rules of a port that have timed out. -/
def Nic.agedFlows (nic : Nic) (portId : UInt16) : List FlowHandle :=
  (List.range nic.next).filter fun flow => nic.agedOn portId flow

theorem Nic.mem_agedFlows {nic : Nic} {portId : UInt16} {flow : FlowHandle} :
    flow ∈ nic.agedFlows portId ↔ nic.agedOn portId flow = true := by
  rw [Nic.agedFlows, List.mem_filter, List.mem_range]
  refine and_iff_right_of_imp fun haged => ?_
  by_contra hge
  rw [Nic.agedOn, nic.fresh flow (Nat.le_of_not_lt hge)] at haged
  cases haged

theorem Nic.agedFlows_nodup (nic : Nic) (portId : UInt16) : (nic.agedFlows portId).Nodup :=
  List.nodup_range.filter _

/-- **The answer of `rte_flow_get_aged_flows`**: it reports aged rules, as many as there are
or as the batch has room for. -/
structure FullReports (nic : Nic) (portId : UInt16) (reports : List AgedReport) : Prop where
  valid : ValidReports nic portId reports
  full : reports.length = min (nic.agedFlows portId).length timeoutFlowBatchSize

/-- Every call about the rules reported succeeds. -/
def AllSucceed (reports : List AgedReport) : Prop :=
  ∀ report ∈ reports, report.queryOk = true ∧ report.destroyOk = true

/-- The rule has a flow key for its context, and the flow key stores its handle. -/
def StoredRule (w : World) (flow : FlowHandle) : Prop :=
  ∃ k, w.nic.owner flow = some k ∧ (w.keys k).flow = some flow

instance (w : World) (flow : FlowHandle) : Decidable (StoredRule w flow) :=
  match howner : w.nic.owner flow with
  | none => isFalse fun ⟨_, hk, _⟩ => nomatch howner.symm.trans hk
  | some k => decidable_of_iff ((w.keys k).flow = some flow)
      ⟨fun h => ⟨k, howner, h⟩, fun ⟨_, hk, h⟩ => Option.some.inj (howner.symm.trans hk) ▸ h⟩

/-- **Handled**: the rule is gone from the NIC, and its flow key is not offloaded. -/
def RuleHandled (w w' : World) (flow : FlowHandle) : Prop :=
  w'.nic.flows flow = none ∧
    ∀ k, w.nic.owner flow = some k → (w'.keys k).isOffload = .notOffload

/-- **One run suffices** for some of the aged rules: whatever the NIC answers, with all calls
succeeding, the run handles them. -/
def BatchSuffices (w : World) (portId : UInt16) (rules : List FlowHandle) : Prop :=
  ∀ reports, FullReports w.nic portId reports → AllSucceed reports →
    ∀ flow ∈ rules, RuleHandled w (deleteTimeoutFlows w portId (some reports)).1 flow

/-! ### What a run does -/

theorem flows_rteFlowDestroy_self {nic : Nic} {portId : UInt16} {flow : FlowHandle}
    (hport : nic.portOf flow = some portId) :
    (rteFlowDestroy nic portId flow true).2.flows flow = none := by
  simp only [rteFlowDestroy, if_true, hport, Nic.flows_remove]

theorem flows_rteFlowDestroy_of_ne {nic : Nic} {portId : UInt16} {flow h : FlowHandle}
    (hne : h ≠ flow) (ok : Bool) :
    (rteFlowDestroy nic portId flow ok).2.flows h = nic.flows h := by
  rcases rteFlowDestroy_cases nic portId flow ok with heq | heq
  · rw [heq]
  · rw [heq, Nic.flows_remove, if_neg hne]

/-- A destroy installs nothing. -/
theorem flows_rteFlowDestroy_of_none {nic : Nic} {portId : UInt16} {flow h : FlowHandle}
    {ok : Bool} (hnone : nic.flows h = none) :
    (rteFlowDestroy nic portId flow ok).2.flows h = none := by
  rcases rteFlowDestroy_cases nic portId flow ok with heq | heq
  · rw [heq, hnone]
  · rw [heq, Nic.flows_remove]
    split
    · rfl
    · exact hnone

/-- A rule that is gone stays gone, and a flow key that is not offloaded stays so. -/
theorem flows_deleteTimeoutFlow_of_none {w : World} {portId : UInt16} {report : AgedReport}
    {context : Option KeyPtr} {h : FlowHandle} (hnone : w.nic.flows h = none) :
    (deleteTimeoutFlow w portId report context).1.nic.flows h = none := by
  rcases deleteTimeoutFlow_cases w portId report context with ⟨heq, -⟩ | ⟨k, flow, -, -, heq⟩
  · rw [heq, hnone]
  · rw [heq, destroyTimeoutFlow_nic, mergeCounter_nic]
    exact flows_rteFlowDestroy_of_none hnone

theorem notOffload_deleteTimeoutFlow {w : World} {portId : UInt16} {report : AgedReport}
    {context : Option KeyPtr} {k : KeyPtr} (hstatus : (w.keys k).isOffload = .notOffload) :
    ((deleteTimeoutFlow w portId report context).1.keys k).isOffload = .notOffload := by
  by_cases hk : report.destroyOk = true ∧ context = some k
  · rcases deleteTimeoutFlow_cases w portId report context with
      ⟨heq, -⟩ | ⟨k', flow, hk', -, heq⟩
    · rw [heq, hstatus]
    · rw [hk.2] at hk'
      obtain rfl := Option.some.inj hk'
      rw [heq, hk.1, destroyTimeoutFlow_true, markNotOffload_keys_self]
  · rw [isOffload_deleteTimeoutFlow fun hok hcontext => hk ⟨hok, hcontext⟩, hstatus]

theorem flows_deleteTimeoutBatch_of_none {portId : UInt16} {h : FlowHandle}
    (batch : List (AgedReport × Option KeyPtr)) :
    ∀ {w : World}, w.nic.flows h = none →
      (deleteTimeoutBatch w portId batch).1.nic.flows h = none := by
  induction batch with
  | nil => exact id
  | cons x rest ih => exact fun hnone => ih (flows_deleteTimeoutFlow_of_none hnone)

theorem notOffload_deleteTimeoutBatch {portId : UInt16} {k : KeyPtr}
    (batch : List (AgedReport × Option KeyPtr)) :
    ∀ {w : World}, (w.keys k).isOffload = .notOffload →
      ((deleteTimeoutBatch w portId batch).1.keys k).isOffload = .notOffload := by
  induction batch with
  | nil => exact id
  | cons x rest ih => exact fun hstatus => ih (notOffload_deleteTimeoutFlow hstatus)

/-- A batch ready to be handled: each context is a flow key that stores the rule reported,
which is installed on the port, and no rule is reported twice. -/
structure ReadyBatch (w : World) (portId : UInt16)
    (batch : List (AgedReport × Option KeyPtr)) : Prop where
  nodup : (batch.map fun x => x.1.flow).Nodup
  stored : ∀ x ∈ batch, ∃ k, x.2 = some k ∧ (w.keys k).flow = some x.1.flow
  port : ∀ x ∈ batch, w.nic.portOf x.1.flow = some portId
  succeed : ∀ x ∈ batch, x.1.destroyOk = true

/-- The head of a ready batch is destroyed, and its key reset. -/
theorem ReadyBatch.deleteTimeoutFlow_head {w : World} {portId : UInt16}
    {x : AgedReport × Option KeyPtr} {rest : List (AgedReport × Option KeyPtr)}
    (h : ReadyBatch w portId (x :: rest)) : ∃ k, x.2 = some k ∧
      (deleteTimeoutFlow w portId x.1 x.2).1 = destroyTimeoutFlow (mergeCounter w k
        (queryCounter w.nic portId x.1.flow x.1.queryOk x.1.stale)) portId k x.1.flow true := by
  obtain ⟨k, hk, hflow⟩ := h.stored x List.mem_cons_self
  refine ⟨k, hk, ?_⟩
  rcases deleteTimeoutFlow_cases w portId x.1 x.2 with ⟨-, hno⟩ | ⟨k', flow, hk', hflow', heq⟩
  · rw [hno k hk] at hflow
    cases hflow
  · rw [hk] at hk'
    obtain rfl := Option.some.inj hk'
    rw [hflow] at hflow'
    obtain rfl := Option.some.inj hflow'
    rw [heq, h.succeed x List.mem_cons_self]

/-- The rest of a ready batch stays ready. -/
theorem ReadyBatch.tail {w : World} {portId : UInt16} {x : AgedReport × Option KeyPtr}
    {rest : List (AgedReport × Option KeyPtr)} (h : ReadyBatch w portId (x :: rest)) :
    ReadyBatch (deleteTimeoutFlow w portId x.1 x.2).1 portId rest := by
  obtain ⟨hnotMem, hnodup⟩ := List.nodup_cons.mp h.nodup
  obtain ⟨k, -, heq⟩ := h.deleteTimeoutFlow_head
  refine ⟨hnodup, fun y hy => ?_, fun y hy => ?_, fun y hy => ?_⟩
  · obtain ⟨k', hk', hflow⟩ := h.stored y (List.mem_cons_of_mem x hy)
    exact ⟨k', hk', by rw [flow_deleteTimeoutFlow, hflow]⟩
  · have hne : y.1.flow ≠ x.1.flow := fun he => hnotMem (List.mem_map.mpr ⟨y, hy, he⟩)
    rw [heq, destroyTimeoutFlow_nic, mergeCounter_nic, portOf_rteFlowDestroy_of_ne hne]
    exact h.port y (List.mem_cons_of_mem x hy)
  · exact h.succeed y (List.mem_cons_of_mem x hy)

/-- **A ready batch is handled**, rule by rule. -/
theorem handled_deleteTimeoutBatch {portId : UInt16}
    (batch : List (AgedReport × Option KeyPtr)) :
    ∀ {w : World}, ReadyBatch w portId batch → ∀ x ∈ batch, ∀ k, x.2 = some k →
      (deleteTimeoutBatch w portId batch).1.nic.flows x.1.flow = none ∧
        ((deleteTimeoutBatch w portId batch).1.keys k).isOffload = .notOffload := by
  induction batch with
  | nil => exact fun _ x hx => absurd hx List.not_mem_nil
  | cons y rest ih =>
      intro w h x hx k hk
      rcases List.mem_cons.mp hx with rfl | hx
      · obtain ⟨k', hk', heq⟩ := h.deleteTimeoutFlow_head
        rw [hk] at hk'
        obtain rfl := Option.some.inj hk'
        constructor
        · refine flows_deleteTimeoutBatch_of_none rest ?_
          rw [heq, destroyTimeoutFlow_nic, mergeCounter_nic]
          exact flows_rteFlowDestroy_self (h.port x List.mem_cons_self)
        · refine notOffload_deleteTimeoutBatch rest ?_
          rw [heq, destroyTimeoutFlow_true, markNotOffload_keys_self]
      · exact ih h.tail x hx k hk

/-- **A ready batch leaves every other rule installed.** -/
theorem flows_deleteTimeoutBatch_of_notMem {portId : UInt16} {h : FlowHandle}
    (batch : List (AgedReport × Option KeyPtr)) :
    ∀ {w : World}, ReadyBatch w portId batch → h ∉ batch.map (fun x => x.1.flow) →
      (deleteTimeoutBatch w portId batch).1.nic.flows h = w.nic.flows h := by
  induction batch with
  | nil => exact fun _ _ => rfl
  | cons x rest ih =>
      intro w hready hnotMem
      obtain ⟨hne, hrest⟩ := not_or.mp (mt List.mem_cons.mpr hnotMem)
      obtain ⟨k, -, heq⟩ := hready.deleteTimeoutFlow_head
      have hfirst : (deleteTimeoutFlow w portId x.1 x.2).1.nic.flows h = w.nic.flows h := by
        rw [heq, destroyTimeoutFlow_nic, mergeCounter_nic, flows_rteFlowDestroy_of_ne hne]
      exact (ih hready.tail hrest).trans hfirst

/-! ### The batch and the number of aged rules -/

/-- Every aged rule of the port is stored by the flow key that is its context. -/
def AgedStored (w : World) (portId : UInt16) : Prop :=
  ∀ flow ∈ w.nic.agedFlows portId, StoredRule w flow

instance (w : World) (portId : UInt16) : Decidable (AgedStored w portId) :=
  inferInstanceAs (Decidable (∀ flow ∈ w.nic.agedFlows portId, StoredRule w flow))

/-- The answer of the NIC is then a ready batch. -/
theorem readyBatch_of_reports {w : World} {portId : UInt16} {reports : List AgedReport}
    (hstored : AgedStored w portId) (hvalid : ValidReports w.nic portId reports)
    (hok : AllSucceed reports) :
    ReadyBatch w portId (reports.map fun report => (report, w.nic.owner report.flow)) where
  nodup := by
    rw [List.map_map]
    exact hvalid.2.1
  stored := by
    intro x hx
    obtain ⟨report, hreport, rfl⟩ := List.mem_map.mp hx
    exact hstored report.flow (Nic.mem_agedFlows.mpr (hvalid.2.2 report hreport))
  port := by
    intro x hx
    obtain ⟨report, hreport, rfl⟩ := List.mem_map.mp hx
    exact portOf_of_agedOn (hvalid.2.2 report hreport)
  succeed := by
    intro x hx
    obtain ⟨report, hreport, rfl⟩ := List.mem_map.mp hx
    exact (hok report hreport).2

/-- A rule that is reported is handled. -/
theorem ruleHandled_of_reported {w : World} {portId : UInt16} {reports : List AgedReport}
    (hstored : AgedStored w portId) (hvalid : ValidReports w.nic portId reports)
    (hok : AllSucceed reports) {flow : FlowHandle} (hmem : flow ∈ reports.map AgedReport.flow) :
    RuleHandled w (deleteTimeoutFlows w portId (some reports)).1 flow := by
  have hready := readyBatch_of_reports hstored hvalid hok
  obtain ⟨report, hreport, rfl⟩ := List.mem_map.mp hmem
  have hhandled := handled_deleteTimeoutBatch _ hready (report, w.nic.owner report.flow)
    (List.mem_map.mpr ⟨report, hreport, rfl⟩)
  obtain ⟨k, hk, -⟩ := hstored _ (Nic.mem_agedFlows.mpr (hvalid.2.2 report hreport))
  exact ⟨(hhandled k hk).1, fun k' hk' => (hhandled k' hk').2⟩

/-- A rule that is not reported stays installed. -/
theorem not_ruleHandled_of_notMem {w : World} {portId : UInt16} {reports : List AgedReport}
    (hstored : AgedStored w portId) (hvalid : ValidReports w.nic portId reports)
    (hok : AllSucceed reports) {flow : FlowHandle} (haged : w.nic.agedOn portId flow = true)
    (hnotMem : flow ∉ reports.map AgedReport.flow) :
    ¬ RuleHandled w (deleteTimeoutFlows w portId (some reports)).1 flow := by
  have hready := readyBatch_of_reports hstored hvalid hok
  have hkeep := flows_deleteTimeoutBatch_of_notMem (h := flow) _ hready (by rwa [List.map_map])
  intro hhandled
  have hnone : w.nic.flows flow = none := hkeep.symm.trans hhandled.1
  rw [Nic.agedOn, hnone] at haged
  cases haged

/-- With room for all, every aged rule is reported. -/
theorem FullReports.mem_of_le {nic : Nic} {portId : UInt16} {reports : List AgedReport}
    (h : FullReports nic portId reports)
    (hle : (nic.agedFlows portId).length ≤ timeoutFlowBatchSize) {flow : FlowHandle}
    (haged : flow ∈ nic.agedFlows portId) : flow ∈ reports.map AgedReport.flow := by
  have hsub : reports.map AgedReport.flow ⊆ nic.agedFlows portId := by
    intro h' hh'
    obtain ⟨report, hreport, rfl⟩ := List.mem_map.mp hh'
    exact Nic.mem_agedFlows.mpr (h.valid.2.2 report hreport)
  have hperm := (List.Nodup.subperm h.valid.2.1 hsub).perm_of_length_le (by
    rw [List.length_map, h.full, Nat.min_eq_left hle])
  exact hperm.mem_iff.mpr haged

/-- A report of a rule about which every call succeeds. -/
def AgedReport.succeeds (flow : FlowHandle) : AgedReport := ⟨flow, true, (0, 0), true⟩

/-- With one rule too many, the NIC may leave out any one of them. -/
theorem exists_fullReports_notMem {nic : Nic} {portId : UInt16} {flow : FlowHandle}
    (haged : flow ∈ nic.agedFlows portId)
    (hlt : timeoutFlowBatchSize < (nic.agedFlows portId).length) :
    ∃ reports, FullReports nic portId reports ∧ AllSucceed reports ∧
      flow ∉ reports.map AgedReport.flow := by
  let chosen := ((nic.agedFlows portId).erase flow).take timeoutFlowBatchSize
  have hnodup := nic.agedFlows_nodup portId
  have hflows : (chosen.map AgedReport.succeeds).map AgedReport.flow = chosen := by
    rw [List.map_map]
    exact List.map_id chosen
  have hlength : (chosen.map AgedReport.succeeds).length = timeoutFlowBatchSize := by
    rw [List.length_map, List.length_take, List.length_erase_of_mem haged]
    exact Nat.min_eq_left (Nat.le_sub_one_of_lt hlt)
  refine ⟨chosen.map AgedReport.succeeds, ⟨⟨hlength.le, ?_, ?_⟩, ?_⟩, ?_, ?_⟩
  · rw [hflows]
    exact (hnodup.erase flow).sublist (List.take_sublist _ _)
  · intro report hreport
    obtain ⟨h, hh, rfl⟩ := List.mem_map.mp hreport
    exact Nic.mem_agedFlows.mp (List.mem_of_mem_erase (List.mem_of_mem_take hh))
  · rw [hlength, Nat.min_eq_right hlt.le]
  · intro report hreport
    obtain ⟨h, -, rfl⟩ := List.mem_map.mp hreport
    exact ⟨rfl, rfl⟩
  · rw [hflows]
    exact fun hmem => (hnodup.mem_erase_iff.mp (List.mem_of_mem_take hmem)).1 rfl

/-- **When one run is enough.**  For rules that timed out together, each stored by its flow
key: one run of `delete_timeout_flows` handles them all exactly when the NIC holds no more
aged rules of the port than a batch, or there is nothing to handle. -/
theorem batchSuffices_iff {w : World} {portId : UInt16} {rules : List FlowHandle}
    (hstored : AgedStored w portId) (hrules : rules ⊆ w.nic.agedFlows portId) :
    BatchSuffices w portId rules ↔
      rules = [] ∨ (w.nic.agedFlows portId).length ≤ timeoutFlowBatchSize := by
  constructor
  · intro hsuffices
    rcases rules with _ | ⟨flow, rest⟩
    · exact Or.inl rfl
    · refine Or.inr (Nat.le_of_not_lt fun hlt => ?_)
      have haged := hrules List.mem_cons_self
      obtain ⟨reports, hfull, hok, hnotMem⟩ := exists_fullReports_notMem haged hlt
      exact not_ruleHandled_of_notMem hstored hfull.valid hok (Nic.mem_agedFlows.mp haged) hnotMem
        (hsuffices reports hfull hok flow List.mem_cons_self)
  · rintro (rfl | hle)
    · exact fun _ _ _ flow hflow => absurd hflow List.not_mem_nil
    · exact fun reports hfull hok flow hflow =>
        ruleHandled_of_reported hstored hfull.valid hok (hfull.mem_of_le hle (hrules hflow))

/-- The two rules of an offloaded flow time out. -/
def bothTimeoutEvents : List OffloadEvent := offloadEvents ++ [.timeout 3, .timeout 2]

theorem bothTimeoutRun_isSome :
    (offloadMachine.exec initialSingle bothTimeoutEvents).isSome = true := by decide +kernel

/-- The state in which the two rules have timed out. -/
def bothTimeoutWorld : World :=
  ((offloadMachine.exec initialSingle bothTimeoutEvents).get bothTimeoutRun_isSome).1

theorem agedFlows_bothTimeoutWorld :
    bothTimeoutWorld.nic.agedFlows 0 = [2, 3] ∧ AgedStored bothTimeoutWorld 0 := by
  decide +kernel

/-- Two rules fit into a batch. -/
theorem batchSuffices_bothTimeout :
    offloadMachine.Reachable bothTimeoutWorld ∧ BatchSuffices bothTimeoutWorld 0 [2, 3] := by
  obtain ⟨haged, hstored⟩ := agedFlows_bothTimeoutWorld
  refine ⟨Machine.reachable_exec_get init_initialSingle bothTimeoutRun_isSome, ?_⟩
  refine (batchSuffices_iff hstored (by rw [haged]; exact List.Subset.refl _)).mpr (Or.inr ?_)
  rw [haged]
  decide

/-- Five clients send five frames each, all are offloaded, and their ten rules time out. -/
def fiveFlowEvents : List OffloadEvent :=
  (List.range 5).flatMap (fun i =>
      List.replicate 5 (.udp (endpoint 10 0 0 1 (1000 + i.toUInt16)) server) ++
        [.dequeueBurst, .flowEngine true true]) ++
    (List.range 10).map fun i => .timeout (i + 2)

theorem fiveFlowRun_isSome :
    (offloadMachine.exec initialSingle fiveFlowEvents).isSome = true := by decide +kernel

/-- The state in which ten rules have timed out. -/
def fiveFlowWorld : World :=
  ((offloadMachine.exec initialSingle fiveFlowEvents).get fiveFlowRun_isSome).1

theorem agedFlows_fiveFlowWorld :
    fiveFlowWorld.nic.agedFlows 0 = (List.range 10).map (· + 2) ∧ AgedStored fiveFlowWorld 0 := by
  decide +kernel

/-- **Ten rules do not fit**: the NIC reports eight of them, every call succeeds, and the run
leaves another installed. -/
theorem not_batchSuffices_fiveFlows :
    offloadMachine.Reachable fiveFlowWorld ∧ AgedStored fiveFlowWorld 0 ∧
      fiveFlowWorld.nic.agedFlows 0 = (List.range 10).map (· + 2) ∧
      ¬ BatchSuffices fiveFlowWorld 0 (fiveFlowWorld.nic.agedFlows 0) := by
  obtain ⟨haged, hstored⟩ := agedFlows_fiveFlowWorld
  have hlast : 11 ∈ fiveFlowWorld.nic.agedFlows 0 := by
    rw [haged]
    decide
  obtain ⟨reports, hfull, hok, hnotMem⟩ :=
    exists_fullReports_notMem hlast (by rw [haged]; decide)
  refine ⟨Machine.reachable_exec_get init_initialSingle fiveFlowRun_isSome, hstored, haged,
    fun h => ?_⟩
  exact not_ruleHandled_of_notMem hstored hfull.valid hok (Nic.mem_agedFlows.mp hlast) hnotMem
    (h reports hfull hok 11 hlast)

end SmartOffload
