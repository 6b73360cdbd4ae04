import SmartOffload.Pairing

/-!
# The handles passed to the NIC

The age context of a rule is its flow key, so the ageing handler never sees the
rule that timed out: it passes on whatever handle the key holds.  `HandleInv` is
what it relies on: the handle of a key denotes every rule installed for it.

Handles are never cleared, and one is overwritten when a rule is created.  So the
invariant survives everything but the creation of a second rule for a key, and as
long as that does not happen every query and every destroy is about the rule
reported (`right_of_ruleFree`).  After it happens, a live rule can be destroyed in
place of the one that timed out (`not_right_staleEvents`).
-/

namespace SmartOffload

/-- **Handles denote the rules of their keys.** -/
def HandleInv (w : World) : Prop :=
  ∀ h k, w.nic.owner h = some k → (w.keys k).flow = some h

/-- Handles stay right when rules only go and handles stay. -/
theorem HandleInv.congr {w w' : World} (hinv : HandleInv w)
    (hown : ∀ h k, w'.nic.owner h = some k → w.nic.owner h = some k)
    (hflow : ∀ h k, w'.nic.owner h = some k → (w'.keys k).flow = (w.keys k).flow) :
    HandleInv w' := by
  intro h k ho
  rw [hflow h k ho]
  exact hinv h k (hown h k ho)

theorem handleInv_of_init {w : World} (h : offloadMachine.Init w) : HandleInv w := by
  obtain ⟨mode, port0, port1, portPool, readSpec, -, -, rfl⟩ := h
  intro h k ho
  rw [initialWorld, owner_initialNic] at ho
  cases ho

/-- No rule installed belongs to a flow key. -/
def OwnsNoRule (nic : Nic) (k : KeyPtr) : Prop := ∀ h, nic.owner h ≠ some k

instance (nic : Nic) (k : KeyPtr) : Decidable (OwnsNoRule nic k) :=
  decidable_of_iff (∀ h < nic.next, nic.owner h ≠ some k)
    ⟨fun hall h ho => hall h (Nic.lt_next_of_owner ho) ho, fun hall h _ => hall h⟩

/-! ### A batch of contexts -/

/-- A batch of contexts as `rte_flow_get_aged_flows` reports them: distinct rules of
the port, each with the key it carries. -/
structure Reported (w : World) (portId : UInt16)
    (batch : List (AgedReport × Option KeyPtr)) : Prop where
  nodup : (batch.map fun x => x.1.flow).Nodup
  context : ∀ x ∈ batch, w.nic.owner x.1.flow = x.2
  port : ∀ x ∈ batch, w.nic.portOf x.1.flow = some portId

theorem reported_of_validReports {w : World} {portId : UInt16} {reports : List AgedReport}
    (h : ValidReports w.nic portId reports) :
    Reported w portId (reports.map fun report => (report, w.nic.owner report.flow)) where
  nodup := by
    rw [List.map_map]
    exact h.2.1
  context x hx := by
    obtain ⟨report, -, rfl⟩ := List.mem_map.mp hx
    rfl
  port x hx := by
    obtain ⟨report, hreport, rfl⟩ := List.mem_map.mp hx
    exact portOf_of_agedOn (h.2.2 report hreport)

/-- **Under the handle invariant a reported rule is the one handled.** -/
theorem deleteTimeoutFlow_of_owner {w : World} (hinv : HandleInv w) (portId : UInt16)
    {report : AgedReport} {k : KeyPtr} (ho : w.nic.owner report.flow = some k) :
    deleteTimeoutFlow w portId report (some k) =
      (destroyTimeoutFlow (mergeCounter w k
          (queryCounter w.nic portId report.flow report.queryOk report.stale))
        portId k report.flow report.destroyOk,
      [.query report.flow k portId report.flow w.nic,
        .destroy report.flow k portId report.flow w.nic report.destroyOk]) := by
  have hflow := hinv _ _ ho
  rcases deleteTimeoutFlow_cases w portId report (some k) with
    ⟨-, hnone⟩ | ⟨k', flow, hk', hflow', heq⟩
  · rw [hnone k rfl] at hflow
    cases hflow
  · obtain rfl := Option.some.inj hk'
    rw [hflow] at hflow'
    obtain rfl := Option.some.inj hflow'
    exact heq

/-- Handling a context leaves the other rules of the NIC alone. -/
theorem nic_deleteTimeoutFlow_of_ne {w : World} (hinv : HandleInv w) (portId : UInt16)
    {report : AgedReport} {context : Option KeyPtr}
    (hcontext : w.nic.owner report.flow = context) {h : FlowHandle} (hne : h ≠ report.flow) :
    (deleteTimeoutFlow w portId report context).1.nic.owner h = w.nic.owner h ∧
      (deleteTimeoutFlow w portId report context).1.nic.portOf h = w.nic.portOf h := by
  cases context with
  | none => exact ⟨rfl, rfl⟩
  | some k =>
      rw [deleteTimeoutFlow_of_owner hinv portId hcontext, destroyTimeoutFlow_nic,
        mergeCounter_nic]
      exact ⟨owner_rteFlowDestroy_of_ne hne _, portOf_rteFlowDestroy_of_ne hne _⟩

/-- The rest of a batch stays as reported. -/
theorem Reported.tail {w : World} (hinv : HandleInv w) {portId : UInt16}
    {x : AgedReport × Option KeyPtr} {rest : List (AgedReport × Option KeyPtr)}
    (h : Reported w portId (x :: rest)) :
    Reported (deleteTimeoutFlow w portId x.1 x.2).1 portId rest := by
  have hnodup := List.nodup_cons.mp h.nodup
  have hother : ∀ y ∈ rest,
      (deleteTimeoutFlow w portId x.1 x.2).1.nic.owner y.1.flow = w.nic.owner y.1.flow ∧
        (deleteTimeoutFlow w portId x.1 x.2).1.nic.portOf y.1.flow =
          w.nic.portOf y.1.flow := by
    intro y hy
    apply nic_deleteTimeoutFlow_of_ne hinv portId (h.context x List.mem_cons_self)
    intro heq
    exact hnodup.1 (List.mem_map.mpr ⟨y, hy, heq⟩)
  refine ⟨hnodup.2, fun y hy => ?_, fun y hy => ?_⟩
  · rw [(hother y hy).1]
    exact h.context y (List.mem_cons_of_mem x hy)
  · rw [(hother y hy).2]
    exact h.port y (List.mem_cons_of_mem x hy)

/-- Destroying rules and keeping handles keeps the handle invariant. -/
theorem handleInv_deleteTimeoutFlow {w : World} (hinv : HandleInv w) (portId : UInt16)
    (report : AgedReport) (context : Option KeyPtr) :
    HandleInv (deleteTimeoutFlow w portId report context).1 := by
  intro h k ho
  rw [flow_deleteTimeoutFlow]
  exact hinv h k (owner_of_owner_deleteTimeoutFlow ho)

/-! ### Right calls -/

/-- **A call about the rule reported**: the handle passed is the reported one, and
denotes a rule installed on the port at that moment. -/
def NicCall.Right : NicCall → Prop
  | .query reported _ portId passed nic => passed = reported ∧ nic.portOf passed = some portId
  | .destroy reported _ portId passed nic _ =>
      passed = reported ∧ nic.portOf passed = some portId

/-- The calls of the ageing handler are about the rules reported. -/
def Obs.RightCall : Obs → Prop
  | .nicCall call => call.Right
  | _ => True

/-- The guard: the engine creates a rule only for a key that has none. -/
def RuleFree (w : World) : OffloadEvent → Prop
  | .flowEngine ok okSymmetrical => ∀ k ∈ w.burst.head?,
      ok = true → Offloadable (w.keys k) → OwnsNoRule w.nic k ∧
        (okSymmetrical = true → ∀ partner ∈ (w.keys k).symmetricalFlowKey,
          OwnsNoRule w.nic partner)
  | _ => True

/-- **Offloading a key without rules keeps the handle invariant.** -/
theorem handleInv_offloadKey {w : World} {portId : UInt16} {k : KeyPtr} {ok : Bool}
    (hinv : HandleInv w) (hfree : ok = true → Offloadable (w.keys k) → OwnsNoRule w.nic k) :
    HandleInv (offloadKey w portId k ok).2 := by
  intro h k' ho
  by_cases hk : k' = k
  · subst hk
    rcases offloadKey_cases w portId k' ok with ⟨heq, -⟩ | ⟨⟨hok, hoff⟩, pattern, heq⟩
    · rw [heq] at ho ⊢
      rw [flow_markNotOffload]
      exact hinv h k' ho
    · rw [heq] at ho ⊢
      have ho' : (w.nic.install (offloadRule portId k' pattern)).owner h = some k' := ho
      rw [Nic.owner_install] at ho'
      rw [markOffloadSuccess_keys_self]
      split at ho'
      next hnext => rw [hnext]
      · exact absurd ho' (hfree hok hoff h)
  · rw [keys_offloadKey_of_ne hk]
    exact hinv h k' ((owner_offloadKey_iff_of_ne hk h).mp ho)

theorem handleInv_createFlowLoopBody {w w' : World} {k partner : KeyPtr}
    {ok okSymmetrical : Bool} (hinv : HandleInv w) (hne : partner ≠ k)
    (hlink : (w.keys k).symmetricalFlowKey = some partner)
    (hfree : ok = true → Offloadable (w.keys k) →
      OwnsNoRule w.nic k ∧ (okSymmetrical = true → OwnsNoRule w.nic partner))
    (hbody : createFlowLoopBody w k ok okSymmetrical = some w') : HandleInv w' := by
  rw [createFlowLoopBody_of_link hlink] at hbody
  obtain rfl := Option.some.inj hbody
  have hfirst : HandleInv (offloadKey w w.port0 k ok).2 :=
    handleInv_offloadKey hinv fun hok hoff => (hfree hok hoff).1
  split
  next hyes =>
    apply handleInv_offloadKey hfirst
    intro hok' _ h ho
    rw [owner_offloadKey_iff_of_ne hne] at ho
    exact (hfree hyes.1 hyes.2).2 hok' h ho
  · exact hfirst

/-- The calls about a batch are right, and the handle invariant survives it. -/
theorem right_deleteTimeoutBatch {portId : UInt16}
    (batch : List (AgedReport × Option KeyPtr)) :
    ∀ {w : World}, HandleInv w → Reported w portId batch →
      HandleInv (deleteTimeoutBatch w portId batch).1 ∧
        ∀ call ∈ (deleteTimeoutBatch w portId batch).2, call.Right := by
  induction batch with
  | nil => exact fun hinv _ => ⟨hinv, fun call hcall => absurd hcall List.not_mem_nil⟩
  | cons x rest ih =>
      intro w hinv hrep
      have hcontext := hrep.context x List.mem_cons_self
      have hport := hrep.port x List.mem_cons_self
      obtain ⟨hinv', hrest⟩ :=
        ih (handleInv_deleteTimeoutFlow hinv portId x.1 x.2) (hrep.tail hinv)
      refine ⟨hinv', fun call hcall => ?_⟩
      rcases List.mem_append.mp hcall with hcall | hcall
      · -- the calls about the first context
        cases hx : x.2 with
        | none =>
            rw [hx] at hcall
            exact absurd hcall List.not_mem_nil
        | some k =>
            rw [hx] at hcall hcontext
            rw [deleteTimeoutFlow_of_owner hinv portId hcontext] at hcall
            simp only [List.mem_cons, List.not_mem_nil, or_false] at hcall
            rcases hcall with rfl | rfl
            · exact ⟨rfl, hport⟩
            · exact ⟨rfl, hport⟩
      · exact hrest call hcall

/-- A guarded step keeps the handle invariant and makes only right calls. -/
theorem right_step {w w' : World} {e : OffloadEvent} {os : List Obs} (hflow : FlowInv w)
    (hinv : HandleInv w) (hfree : RuleFree w e) (h : Stepped w e w' os) :
    HandleInv w' ∧ ∀ o ∈ os, o.RightCall := by
  have hnone : ∀ o ∈ ([] : List Obs), o.RightCall := fun o ho => absurd ho List.not_mem_nil
  cases h with
  | ignored _ => exact ⟨hinv, hnone⟩
  | @opened _ m _ r _ hr =>
      obtain ⟨-, hnic, -, -⟩ := frame_of_createFlow hr
      constructor
      · refine hinv.congr (fun h k ho => by rwa [hnic] at ho) fun h k ho => ?_
        rw [hnic] at ho
        rw [keys_of_createFlow hr (hflow.owned h k ho).1.ne]
      · intro o ho
        rcases List.mem_cons.mp ho with rfl | ho
        · trivial
        · obtain ⟨call, -, rfl⟩ := List.mem_map.mp ho
          trivial
  | known _ =>
      constructor
      · refine hinv.congr (fun h k ho => by rwa [requestOffload_nic] at ho) fun h k _ => ?_
        rw [flow_requestOffload, flow_countPacket]
      · intro o ho
        rw [List.mem_singleton.mp ho]
        trivial
  | dequeued _ => exact ⟨hinv, hnone⟩
  | @engine k rest ok okSymmetrical _ hburst hbody =>
      have hlink : (w.keys k).symmetricalFlowKey = some k.partner :=
        hflow.link_of_burst hburst
      refine ⟨?_, hnone⟩
      refine handleInv_createFlowLoopBody (w := { w with burst := rest }) hinv k.partner_ne
        hlink (fun hok hoff => ?_) hbody
      obtain ⟨hk, hpartner⟩ := hfree k (by rw [hburst]; rfl) hok hoff
      exact ⟨hk, fun hok' => hpartner hok' k.partner hlink⟩
  | @aged portId aged hvalid =>
      cases aged with
      | none => exact ⟨hinv, hnone⟩
      | some reports =>
          obtain ⟨hinv', hright⟩ := right_deleteTimeoutBatch _ hinv
            (reported_of_validReports (hvalid reports rfl))
          refine ⟨hinv', fun o ho => ?_⟩
          obtain ⟨call, hcall, rfl⟩ := List.mem_map.mp ho
          exact hright call hcall
  | traffic flow hits bytes =>
      refine ⟨hinv.congr (fun h k ho => ?_) fun _ _ _ => rfl, hnone⟩
      rwa [Nic.owner_forward] at ho
  | timeout flow =>
      refine ⟨hinv.congr (fun h k ho => ?_) fun _ _ _ => rfl, hnone⟩
      rwa [Nic.owner_timeOut] at ho

/-- **When the ageing handler acts on the rules reported.**  In a run in which the
engine creates rules only for keys that have none, every query and every destroy
is about the reported rule, which is installed on the port at that moment. -/
theorem right_of_ruleFree {w₀ w : World} {es : List OffloadEvent} {tr : List Obs}
    (hinit : offloadMachine.Init w₀) (hrun : offloadMachine.RunWhile RuleFree w₀ es tr w) :
    ∀ o ∈ tr, o.RightCall := by
  have hall : (FlowInv w ∧ HandleInv w) ∧ ∀ o ∈ tr, o.RightCall := by
    refine hrun.invariant (P := fun w tr => (FlowInv w ∧ HandleInv w) ∧
      ∀ o ∈ tr, o.RightCall) ?_ ?_
    · refine ⟨⟨flowInv_of_init hinit, handleInv_of_init hinit⟩, fun o ho => ?_⟩
      exact absurd ho List.not_mem_nil
    · rintro s tr e s' os ⟨⟨hflow, hinv⟩, htr⟩ hfree hstep
      have hstepped := stepped_of_step hstep
      obtain ⟨hinv', hos⟩ := right_step hflow hinv hfree hstepped
      refine ⟨⟨flowInv_step hflow hstepped, hinv'⟩, fun o ho => ?_⟩
      rcases List.mem_append.mp ho with ho | ho
      · exact htr o ho
      · exact hos o ho
  exact hall.2

instance (w : World) : DecidablePred (RuleFree w)
  | .flowEngine ok okSymmetrical => inferInstanceAs (Decidable (∀ k ∈ w.burst.head?,
      ok = true → Offloadable (w.keys k) → OwnsNoRule w.nic k ∧
        (okSymmetrical = true → ∀ partner ∈ (w.keys k).symmetricalFlowKey,
          OwnsNoRule w.nic partner)))
  | .packet _ _ _ => inferInstanceAs (Decidable True)
  | .dequeueBurst => inferInstanceAs (Decidable True)
  | .ageing _ _ => inferInstanceAs (Decidable True)
  | .traffic _ _ _ => inferInstanceAs (Decidable True)
  | .timeout _ => inferInstanceAs (Decidable True)

instance : DecidablePred NicCall.Right
  | .query _ _ _ _ _ => inferInstanceAs (Decidable (_ ∧ _))
  | .destroy _ _ _ _ _ _ => inferInstanceAs (Decidable (_ ∧ _))

instance : DecidablePred Obs.RightCall
  | .nicCall call => inferInstanceAs (Decidable call.Right)
  | .frame _ _ => inferInstanceAs (Decidable True)
  | .hashAdd _ => inferInstanceAs (Decidable True)

/-- A flow offloaded once is aged by its own handles. -/
theorem right_ageEvents :
    ∃ tr w, offloadMachine.Run initialSingle ageEvents tr w ∧ ∀ o ∈ tr, o.RightCall := by
  have hrun := Machine.run_exec_get ageRun_isSome
  refine ⟨_, _, hrun, ?_⟩
  exact right_of_ruleFree init_initialSingle (hrun.runWhile (by decide +kernel))

/-- After a flow has been offloaded twice, the first rule of its in-direction key
times out. -/
def staleEvents : List OffloadEvent :=
  reoffloadEvents ++ [.timeout 3, .ageing 0 (some [⟨3, true, (0, 0), true⟩])]

theorem staleRun_isSome : (offloadMachine.exec initialSingle staleEvents).isSome = true := by
  decide +kernel

/-- **A rule is destroyed in place of another**: rule 3 is reported, and the handle of
rule 5 is passed. -/
theorem not_right_staleEvents :
    ∃ tr w, offloadMachine.Init initialSingle ∧
      offloadMachine.Run initialSingle staleEvents tr w ∧ ¬ ∀ o ∈ tr, o.RightCall :=
  ⟨_, _, init_initialSingle, Machine.run_exec_get staleRun_isSome, by decide +kernel⟩

end SmartOffload
