import SmartOffload.World

/-!
# The ageing handler

`delete_timeout_flows` of `smto_event.c`.  `rte_flow_get_aged_flows` hands it the
age contexts of rules that have timed out, so the handler sees flow keys, never
rules: `AgedReport.flow`, the rule the NIC reported, is there for the environment
and for stating what goes wrong, and no decision of the handler reads it.

The calls of `rte_flow_query` and `rte_flow_destroy` are recorded with the NIC
they were made on, next to the rule that was reported and the flow key the NIC
handed over for it.
-/

namespace SmartOffload

/-- One aged rule as the NIC reports it, and how the calls about it turn out. -/
structure AgedReport where
  /-- The rule reported. -/
  flow : FlowHandle
  /-- `rte_flow_query` succeeds. -/
  queryOk : Bool
  /-- What a successful query reads off a handle that denotes no rule of the port. -/
  stale : UInt64 × UInt64
  /-- `rte_flow_destroy` succeeds. -/
  destroyOk : Bool
  deriving DecidableEq, Repr

/-- A call made about a reported rule and its context. -/
inductive NicCall where
  | query (reported : FlowHandle) (context : KeyPtr) (portId : UInt16) (passed : FlowHandle)
      (nic : Nic)
  | destroy (reported : FlowHandle) (context : KeyPtr) (portId : UInt16)
      (passed : FlowHandle) (nic : Nic) (ok : Bool)

/-- `query_counter`: hits and bytes, or a failure. -/
def queryCounter (nic : Nic) (portId : UInt16) (flow : FlowHandle) (ok : Bool)
    (stale : UInt64 × UInt64) : Option (UInt64 × UInt64) :=
  rteFlowQuery nic portId flow ok stale

/-- Merge a rule's counters into its flow key; both sums are cut to 32 bits. -/
def mergeCounter (w : World) (flowKey : KeyPtr) (counter : Option (UInt64 × UInt64)) :
    World :=
  match counter with
  | none => w
  | some (hits, bytes) =>
      w.modifyKey flowKey fun k =>
        { k with
          packetAmount := k.packetAmount + hits.toUInt32
          flowSize := k.flowSize + bytes.toUInt32 }

/-- Destroy a rule; the status of its flow key is reset if that succeeds. -/
def destroyTimeoutFlow (w : World) (portId : UInt16) (flowKey : KeyPtr) (flow : FlowHandle)
    (ok : Bool) : World :=
  let destroyed := rteFlowDestroy w.nic portId flow ok
  let w' := { w with nic := destroyed.2 }
  -- the handle stays in the flow key either way
  if destroyed.1 then markNotOffload w' flowKey else w'

/-- The body of the loop of `delete_timeout_flows`, on one context. -/
def deleteTimeoutFlow (w : World) (portId : UInt16) (report : AgedReport)
    (context : Option KeyPtr) : World × List NicCall :=
  match context with
  | none => (w, [])
  | some flowKey =>
      match (w.keys flowKey).flow with
      | none => (w, [])
      | some flow =>
          let counter := queryCounter w.nic portId flow report.queryOk report.stale
          let w₁ := mergeCounter w flowKey counter
          -- the destroy goes ahead after a failed query too
          let w₂ := destroyTimeoutFlow w₁ portId flowKey flow report.destroyOk
          (w₂, [.query report.flow flowKey portId flow w.nic,
            .destroy report.flow flowKey portId flow w₁.nic report.destroyOk])

/-- The loop of `delete_timeout_flows` over the contexts it was given. -/
def deleteTimeoutBatch (w : World) (portId : UInt16) :
    List (AgedReport × Option KeyPtr) → World × List NicCall
  | [] => (w, [])
  | (report, context) :: rest =>
      let first := deleteTimeoutFlow w portId report context
      let others := deleteTimeoutBatch first.1 portId rest
      (others.1, first.2 ++ others.2)

/-- `delete_timeout_flows`; `none` is an error of `rte_flow_get_aged_flows`. -/
def deleteTimeoutFlows (w : World) (portId : UInt16) (aged : Option (List AgedReport)) :
    World × List NicCall :=
  match aged with
  | none => (w, [])
  | some reports =>
      deleteTimeoutBatch w portId (reports.map fun report => (report, w.nic.owner report.flow))

/-- A rule of the port that has timed out. -/
def Nic.agedOn (nic : Nic) (portId : UInt16) (flow : FlowHandle) : Bool :=
  match nic.flows flow with
  | none => false
  | some r => r.portId == portId && r.aged

/-- **What `rte_flow_get_aged_flows` may answer**: at most a batch of distinct
rules, each installed on the port and timed out. -/
def ValidReports (nic : Nic) (portId : UInt16) (reports : List AgedReport) : Prop :=
  reports.length ≤ timeoutFlowBatchSize ∧ (reports.map AgedReport.flow).Nodup ∧
    ∀ report ∈ reports, nic.agedOn portId report.flow = true

instance (nic : Nic) (portId : UInt16) (reports : List AgedReport) :
    Decidable (ValidReports nic portId reports) :=
  inferInstanceAs (Decidable (_ ∧ _ ∧ _))

/-! ### What the handler can do -/

@[simp] theorem mergeCounter_nic (w : World) (k : KeyPtr) (c : Option (UInt64 × UInt64)) :
    (mergeCounter w k c).nic = w.nic := by
  unfold mergeCounter
  split <;> rfl

@[simp] theorem mergeCounter_pending (w : World) (k : KeyPtr)
    (c : Option (UInt64 × UInt64)) : (mergeCounter w k c).pending = w.pending := by
  unfold mergeCounter
  split <;> rfl

@[simp] theorem destroyTimeoutFlow_nic (w : World) (portId : UInt16) (k : KeyPtr)
    (flow : FlowHandle) (ok : Bool) :
    (destroyTimeoutFlow w portId k flow ok).nic = (rteFlowDestroy w.nic portId flow ok).2 := by
  unfold destroyTimeoutFlow
  dsimp only
  split <;> rfl

@[simp] theorem destroyTimeoutFlow_pending (w : World) (portId : UInt16) (k : KeyPtr)
    (flow : FlowHandle) (ok : Bool) :
    (destroyTimeoutFlow w portId k flow ok).pending = w.pending := by
  unfold destroyTimeoutFlow
  dsimp only
  split <;> rfl

/-- **What handling one context can do**: nothing, when there is no context or
the flow key holds no handle; else merge what the query of that handle gave, and
destroy that handle. -/
theorem deleteTimeoutFlow_cases (w : World) (portId : UInt16) (report : AgedReport)
    (context : Option KeyPtr) :
    deleteTimeoutFlow w portId report context = (w, []) ∧
        (∀ k, context = some k → (w.keys k).flow = none) ∨
      ∃ k flow, context = some k ∧ (w.keys k).flow = some flow ∧
        deleteTimeoutFlow w portId report context =
          (destroyTimeoutFlow (mergeCounter w k
              (queryCounter w.nic portId flow report.queryOk report.stale))
            portId k flow report.destroyOk,
          [.query report.flow k portId flow w.nic,
            .destroy report.flow k portId flow w.nic report.destroyOk]) := by
  cases context with
  | none => exact Or.inl ⟨rfl, by simp⟩
  | some k =>
      cases hflow : (w.keys k).flow with
      | none =>
          refine Or.inl ⟨by simp [deleteTimeoutFlow, hflow], ?_⟩
          rintro k' hk'
          rwa [← Option.some.inj hk']
      | some flow =>
          exact Or.inr ⟨k, flow, rfl, hflow, by simp [deleteTimeoutFlow, hflow]⟩

@[simp] theorem deleteTimeoutFlow_pending (w : World) (portId : UInt16) (report : AgedReport)
    (context : Option KeyPtr) :
    (deleteTimeoutFlow w portId report context).1.pending = w.pending := by
  rcases deleteTimeoutFlow_cases w portId report context with
    ⟨heq, -⟩ | ⟨k, flow, -, -, heq⟩ <;> rw [heq]
  simp

/-- The ageing handler leaves the queue alone. -/
@[simp] theorem deleteTimeoutBatch_pending (w : World) (portId : UInt16)
    (batch : List (AgedReport × Option KeyPtr)) :
    (deleteTimeoutBatch w portId batch).1.pending = w.pending := by
  induction batch generalizing w with
  | nil => rfl
  | cons head rest ih =>
      have hfirst := deleteTimeoutFlow_pending w portId head.1 head.2
      exact (ih _).trans hfirst

@[simp] theorem deleteTimeoutFlows_pending (w : World) (portId : UInt16)
    (aged : Option (List AgedReport)) :
    (deleteTimeoutFlows w portId aged).1.pending = w.pending := by
  cases aged with
  | none => rfl
  | some reports => exact deleteTimeoutBatch_pending w portId _

theorem owner_of_owner_deleteTimeoutFlow {w : World} {portId : UInt16} {report : AgedReport}
    {context : Option KeyPtr} {h : FlowHandle} {k : KeyPtr}
    (ho : (deleteTimeoutFlow w portId report context).1.nic.owner h = some k) :
    w.nic.owner h = some k := by
  rcases deleteTimeoutFlow_cases w portId report context with
    ⟨heq, -⟩ | ⟨k', flow, -, -, heq⟩
  · rwa [heq] at ho
  · rw [heq, destroyTimeoutFlow_nic, mergeCounter_nic] at ho
    exact owner_of_owner_rteFlowDestroy ho

/-- The ageing handler creates no rule. -/
theorem owner_of_owner_deleteTimeoutBatch {portId : UInt16} {h : FlowHandle} {k : KeyPtr}
    (batch : List (AgedReport × Option KeyPtr)) :
    ∀ {w : World}, (deleteTimeoutBatch w portId batch).1.nic.owner h = some k →
      w.nic.owner h = some k := by
  induction batch with
  | nil => exact id
  | cons head rest ih => exact fun ho => owner_of_owner_deleteTimeoutFlow (ih ho)

theorem owner_of_owner_deleteTimeoutFlows {w : World} {portId : UInt16}
    {aged : Option (List AgedReport)} {h : FlowHandle} {k : KeyPtr}
    (ho : (deleteTimeoutFlows w portId aged).1.nic.owner h = some k) :
    w.nic.owner h = some k := by
  cases aged with
  | none => exact ho
  | some reports => exact owner_of_owner_deleteTimeoutBatch _ ho

/-- A destroy that fails changes nothing. -/
@[simp] theorem destroyTimeoutFlow_false (w : World) (portId : UInt16) (k : KeyPtr)
    (flow : FlowHandle) : destroyTimeoutFlow w portId k flow false = w := rfl

theorem destroyTimeoutFlow_true (w : World) (portId : UInt16) (k : KeyPtr)
    (flow : FlowHandle) :
    destroyTimeoutFlow w portId k flow true =
      markNotOffload { w with nic := (rteFlowDestroy w.nic portId flow true).2 } k := rfl

/-- Merging counters leaves status and handle alone. -/
theorem isOffload_mergeCounter (w : World) (k k' : KeyPtr) (c : Option (UInt64 × UInt64)) :
    ((mergeCounter w k c).keys k').isOffload = (w.keys k').isOffload := by
  unfold mergeCounter
  split
  · rfl
  · exact w.modifyKey_keys_congr k _ SmtoFlowKey.isOffload rfl k'

theorem flow_mergeCounter (w : World) (k k' : KeyPtr) (c : Option (UInt64 × UInt64)) :
    ((mergeCounter w k c).keys k').flow = (w.keys k').flow := by
  unfold mergeCounter
  split
  · rfl
  · exact w.modifyKey_keys_congr k _ SmtoFlowKey.flow rfl k'

/-- Handling a context writes to its flow key only. -/
theorem keys_deleteTimeoutFlow_of_ne {w : World} {portId : UInt16} {report : AgedReport}
    {context : Option KeyPtr} {k : KeyPtr} (hne : context ≠ some k) :
    (deleteTimeoutFlow w portId report context).1.keys k = w.keys k := by
  rcases deleteTimeoutFlow_cases w portId report context with
    ⟨heq, -⟩ | ⟨k', flow, rfl, -, heq⟩
  · rw [heq]
  · have hne' : k ≠ k' := by
      rintro rfl
      exact hne rfl
    rw [heq]
    unfold destroyTimeoutFlow mergeCounter
    dsimp only
    split <;> split <;> simp [markNotOffload, World.modifyKey_keys_of_ne, hne']

theorem keys_deleteTimeoutBatch_of_ne {portId : UInt16} {k : KeyPtr}
    (batch : List (AgedReport × Option KeyPtr)) :
    ∀ {w : World}, (∀ x ∈ batch, x.2 ≠ some k) →
      (deleteTimeoutBatch w portId batch).1.keys k = w.keys k := by
  induction batch with
  | nil => exact fun _ => rfl
  | cons x rest ih =>
      intro w hne
      have hrest := ih (w := (deleteTimeoutFlow w portId x.1 x.2).1)
        fun y hy => hne y (List.mem_cons_of_mem x hy)
      exact hrest.trans (keys_deleteTimeoutFlow_of_ne (hne x List.mem_cons_self))

/-- Handling a context never changes a handle. -/
theorem flow_deleteTimeoutFlow (w : World) (portId : UInt16) (report : AgedReport)
    (context : Option KeyPtr) (k : KeyPtr) :
    ((deleteTimeoutFlow w portId report context).1.keys k).flow = (w.keys k).flow := by
  rcases deleteTimeoutFlow_cases w portId report context with
    ⟨heq, -⟩ | ⟨k', flow, -, -, heq⟩
  · rw [heq]
  · have hmerge := flow_mergeCounter w k' k
      (queryCounter w.nic portId flow report.queryOk report.stale)
    rw [heq, ← hmerge]
    cases report.destroyOk with
    | false => rfl
    | true => rw [destroyTimeoutFlow_true, flow_markNotOffload]

/-- Handling a context changes the status of its key, if the destroy succeeds. -/
theorem isOffload_deleteTimeoutFlow {w : World} {portId : UInt16} {report : AgedReport}
    {context : Option KeyPtr} {k : KeyPtr}
    (hno : report.destroyOk = true → context ≠ some k) :
    ((deleteTimeoutFlow w portId report context).1.keys k).isOffload =
      (w.keys k).isOffload := by
  by_cases hk : context = some k
  · rcases deleteTimeoutFlow_cases w portId report context with
      ⟨heq, -⟩ | ⟨k', flow, -, -, heq⟩
    · rw [heq]
    · cases hok : report.destroyOk with
      | false => rw [heq, hok, destroyTimeoutFlow_false, isOffload_mergeCounter]
      | true => exact absurd hk (hno hok)
  · rw [keys_deleteTimeoutFlow_of_ne hk]

theorem isOffload_deleteTimeoutBatch {portId : UInt16} {k : KeyPtr}
    (batch : List (AgedReport × Option KeyPtr)) :
    ∀ {w : World}, (∀ x ∈ batch, x.1.destroyOk = true → x.2 ≠ some k) →
      ((deleteTimeoutBatch w portId batch).1.keys k).isOffload = (w.keys k).isOffload := by
  induction batch with
  | nil => exact fun _ => rfl
  | cons x rest ih =>
      intro w hno
      have hrest := ih (w := (deleteTimeoutFlow w portId x.1 x.2).1)
        fun y hy => hno y (List.mem_cons_of_mem x hy)
      exact hrest.trans (isOffload_deleteTimeoutFlow (hno x List.mem_cons_self))

/-- A reported rule is installed on the port. -/
theorem portOf_of_agedOn {nic : Nic} {portId : UInt16} {flow : FlowHandle}
    (h : nic.agedOn portId flow = true) : nic.portOf flow = some portId := by
  unfold Nic.agedOn at h
  split at h
  · cases h
  next r hr =>
    have hport : r.portId = portId := by simpa using (Bool.and_eq_true_iff.mp h).1
    rw [Nic.portOf, hr, ← hport]
    rfl

end SmartOffload
