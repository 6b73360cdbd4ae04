import SmartOffload.RuleHandles

/-!
# What a handle may denote

Handles stay in flow keys after their rules are gone, keys are offloaded a second time, and
the ageing handler passes on whatever handle a key holds.  What holds all the same, in every
reachable state, is `HandleSound`: the handle of a key denotes a rule of that key or no rule
at all, no two keys hold the same handle, and a key that is `OFFLOAD_SUCCESS` holds the
handle of a rule installed for it.

So whatever is offloaded, aged and offloaded again, the ageing handler only ever queries and
destroys rules of the flow key that was reported (`actsOnOwn_of_run`); a default rule or a
rule of another flow it cannot reach.
-/

namespace SmartOffload

/-- **Handles are sound.** -/
structure HandleSound (w : World) : Prop where
  given : ∀ k h, (w.keys k).flow = some h → h < w.nic.next
  /-- The handle of a key denotes a rule of the key, or no rule. -/
  own : ∀ k h, (w.keys k).flow = some h → ∀ r, w.nic.flows h = some r →
    r.ageContext = some k
  distinct : ∀ k k' h, (w.keys k).flow = some h → (w.keys k').flow = some h → k = k'
  /-- An offloaded key has its rule installed. -/
  success : ∀ k, (w.keys k).isOffload = .offloadSuccess →
    ∃ h, (w.keys k).flow = some h ∧ w.nic.owner h = some k

/-- What handles are about stays the same: rules may be counted on, marked or removed, and
keys may lose their handle, but no offloaded key its rule. -/
theorem HandleSound.congr {w w' : World} (hsound : HandleSound w)
    (hflow : ∀ k h, (w'.keys k).flow = some h → (w.keys k).flow = some h)
    (hnext : w.nic.next ≤ w'.nic.next)
    (hrules : ∀ h r', w'.nic.flows h = some r' →
      ∃ r, w.nic.flows h = some r ∧ r'.ageContext = r.ageContext)
    (hsuccess : ∀ k, (w'.keys k).isOffload = .offloadSuccess →
      (w.keys k).isOffload = .offloadSuccess ∧ (w'.keys k).flow = (w.keys k).flow ∧
        ∀ h, (w.keys k).flow = some h → w.nic.owner h = some k → w'.nic.owner h = some k) :
    HandleSound w' where
  given k h hk := (hsound.given k h (hflow k h hk)).trans_le hnext
  own k h hk r' hr' := by
    obtain ⟨r, hr, hcontext⟩ := hrules h r' hr'
    rw [hcontext]
    exact hsound.own k h (hflow k h hk) r hr
  distinct k k' h hk hk' := hsound.distinct k k' h (hflow k h hk) (hflow k' h hk')
  success k hk := by
    obtain ⟨hstatus, hsame, howner⟩ := hsuccess k hk
    obtain ⟨h, hh, ho⟩ := hsound.success k hstatus
    exact ⟨h, hsame.trans hh, howner h hh ho⟩

theorem handleSound_of_init {w : World} (h : offloadMachine.Init w) : HandleSound w := by
  obtain ⟨mode, port0, port1, portPool, readSpec, -, -, rfl⟩ := h
  have hnone : ∀ k h,
      ((initialWorld mode port0 port1 portPool readSpec).keys k).flow ≠ some h := by
    intro k h hk
    cases hk
  exact ⟨fun k h hk => absurd hk (hnone k h), fun k h hk => absurd hk (hnone k h),
    fun k _ h hk => absurd hk (hnone k h), fun k hk => by cases hk⟩

/-! ### The engine -/

/-- **Offloading a key keeps handles sound**: its new handle was given to nobody before. -/
theorem handleSound_offloadKey {w : World} (hsound : HandleSound w) (portId : UInt16)
    (k : KeyPtr) (ok : Bool) : HandleSound (offloadKey w portId k ok).2 := by
  rcases offloadKey_cases w portId k ok with ⟨heq, -⟩ | ⟨-, pattern, heq⟩
  · rw [heq]
    refine hsound.congr (fun k' h hk' => ?_) le_rfl (fun h r' hr' => ⟨r', hr', rfl⟩)
      fun k' hk' => ?_
    · rwa [flow_markNotOffload] at hk'
    · by_cases hk : k' = k
      · rw [hk, markNotOffload_keys_self] at hk'
        cases hk'
      · rw [markNotOffload_keys_of_ne _ hk] at hk' ⊢
        exact ⟨hk', rfl, fun h _ ho => ho⟩
  · rw [heq]
    generalize hw' : markOffloadSuccess
      { w with nic := w.nic.install (offloadRule portId k pattern) } k w.nic.next = w'
    have hnic : w'.nic = w.nic.install (offloadRule portId k pattern) := by rw [← hw']; rfl
    have hself : (w'.keys k).flow = some w.nic.next := by
      rw [← hw', markOffloadSuccess_keys_self]
    have hother : ∀ {k'}, k' ≠ k → w'.keys k' = w.keys k' := by
      intro k' hk
      rw [← hw']
      exact markOffloadSuccess_keys_of_ne _ _ hk
    -- a handle in use is the new one, or was in use before
    have hcases : ∀ k' h, (w'.keys k').flow = some h →
        k' = k ∧ h = w.nic.next ∨ k' ≠ k ∧ (w.keys k').flow = some h := by
      intro k' h hk'
      by_cases hk : k' = k
      · subst hk
        rw [hself] at hk'
        exact Or.inl ⟨rfl, (Option.some.inj hk').symm⟩
      · rw [hother hk] at hk'
        exact Or.inr ⟨hk, hk'⟩
    constructor
    · intro k' h hk'
      rw [hnic]
      rcases hcases k' h hk' with ⟨-, rfl⟩ | ⟨-, hold⟩
      · exact Nat.lt_succ_self _
      · exact (hsound.given k' h hold).trans (Nat.lt_succ_self _)
    · intro k' h hk' r hr
      rw [hnic, Nic.flows_install] at hr
      rcases hcases k' h hk' with ⟨rfl, rfl⟩ | ⟨-, hold⟩
      · rw [if_pos rfl] at hr
        rw [← Option.some.inj hr, offloadRule_ageContext]
      · rw [if_neg (hsound.given k' h hold).ne] at hr
        exact hsound.own k' h hold r hr
    · intro k₁ k₂ h hk₁ hk₂
      rcases hcases k₁ h hk₁ with ⟨rfl, rfl⟩ | ⟨-, hold₁⟩
      · rcases hcases k₂ _ hk₂ with ⟨rfl, -⟩ | ⟨-, hold₂⟩
        · rfl
        · exact absurd (hsound.given k₂ _ hold₂) (Nat.lt_irrefl _)
      · rcases hcases k₂ h hk₂ with ⟨rfl, rfl⟩ | ⟨-, hold₂⟩
        · exact absurd (hsound.given k₁ _ hold₁) (Nat.lt_irrefl _)
        · exact hsound.distinct k₁ k₂ h hold₁ hold₂
    · intro k' hk'
      by_cases hk : k' = k
      · subst hk
        exact ⟨w.nic.next, hself, by rw [hnic, Nic.owner_install, if_pos rfl]; rfl⟩
      · rw [hother hk] at hk' ⊢
        obtain ⟨h, hh, ho⟩ := hsound.success k' hk'
        refine ⟨h, hh, ?_⟩
        rw [hnic, Nic.owner_install, if_neg (hsound.given k' h hh).ne, ho]

theorem handleSound_createFlowLoopBody {w w' : World} {k : KeyPtr} {ok okSymmetrical : Bool}
    (hsound : HandleSound w) (hbody : createFlowLoopBody w k ok okSymmetrical = some w') :
    HandleSound w' := by
  have hfirst := handleSound_offloadKey hsound w.port0 k ok
  unfold createFlowLoopBody at hbody
  split at hbody
  next w₁ heq =>
    rw [heq] at hfirst
    rwa [← Option.some.inj hbody]
  next w₁ heq =>
    rw [heq] at hfirst
    split at hbody
    · cases hbody
    next symmetrical _ =>
      rw [← Option.some.inj hbody]
      exact handleSound_offloadKey hfirst _ symmetrical okSymmetrical

/-! ### The ageing handler -/

/-- Destroying removes the rule named, if anything. -/
theorem flows_rteFlowDestroy (nic : Nic) (portId : UInt16) (flow h : FlowHandle) (ok : Bool) :
    (rteFlowDestroy nic portId flow ok).2.flows h = nic.flows h ∨
      (rteFlowDestroy nic portId flow ok).2.flows h = none := by
  rcases rteFlowDestroy_cases nic portId flow ok with heq | heq
  · rw [heq]
    exact Or.inl rfl
  · rw [heq, Nic.flows_remove]
    split
    · exact Or.inr rfl
    · exact Or.inl rfl

/-- Handling a context removes rules at most. -/
theorem flows_deleteTimeoutFlow (w : World) (portId : UInt16) (report : AgedReport)
    (context : Option KeyPtr) (h : FlowHandle) :
    (deleteTimeoutFlow w portId report context).1.nic.flows h = w.nic.flows h ∨
      (deleteTimeoutFlow w portId report context).1.nic.flows h = none := by
  rcases deleteTimeoutFlow_cases w portId report context with ⟨heq, -⟩ | ⟨k, flow, -, -, heq⟩
  · rw [heq]
    exact Or.inl rfl
  · rw [heq, destroyTimeoutFlow_nic, mergeCounter_nic]
    exact flows_rteFlowDestroy w.nic portId flow h report.destroyOk

theorem next_deleteTimeoutFlow (w : World) (portId : UInt16) (report : AgedReport)
    (context : Option KeyPtr) :
    (deleteTimeoutFlow w portId report context).1.nic.next = w.nic.next := by
  rcases deleteTimeoutFlow_cases w portId report context with ⟨heq, -⟩ | ⟨k, flow, -, -, heq⟩
  · rw [heq]
  · rw [heq, destroyTimeoutFlow_nic, mergeCounter_nic]
    rcases rteFlowDestroy_cases w.nic portId flow report.destroyOk with heq | heq <;> rw [heq]
    rfl

/-- **Handling a context keeps handles sound.**  The rule destroyed is one of the key whose
status is set back, and of no other key. -/
theorem handleSound_deleteTimeoutFlow {w : World} (hsound : HandleSound w) (portId : UInt16)
    (report : AgedReport) (context : Option KeyPtr) :
    HandleSound (deleteTimeoutFlow w portId report context).1 := by
  refine hsound.congr (fun k h hk => ?_) (next_deleteTimeoutFlow ..).ge (fun h r' hr' => ?_)
    fun k hk => ?_
  · rwa [flow_deleteTimeoutFlow] at hk
  · rcases flows_deleteTimeoutFlow w portId report context h with heq | heq
    · exact ⟨r', heq.symm.trans hr', rfl⟩
    · rw [heq] at hr'
      cases hr'
  · rcases deleteTimeoutFlow_cases w portId report context with
      ⟨heq, -⟩ | ⟨k', flow, -, hflow, heq⟩
    · rw [heq] at hk ⊢
      exact ⟨hk, rfl, fun h _ ho => ho⟩
    · rw [heq] at hk
      refine ⟨?_, flow_deleteTimeoutFlow .., fun h hh ho => ?_⟩
      · cases hok : report.destroyOk with
        | false =>
            rwa [hok, destroyTimeoutFlow_false, isOffload_mergeCounter] at hk
        | true =>
            rw [hok, destroyTimeoutFlow_true] at hk
            by_cases hkk : k = k'
            · rw [hkk, markNotOffload_keys_self] at hk
              cases hk
            · rw [markNotOffload_keys_of_ne _ hkk] at hk
              rwa [isOffload_mergeCounter] at hk
      · rw [heq, destroyTimeoutFlow_nic, mergeCounter_nic]
        cases hok : report.destroyOk with
        | false => exact ho
        | true =>
            -- an offloaded key is not the one set back, so its handle is another one
            have hkk : k ≠ k' := by
              rintro rfl
              rw [hok, destroyTimeoutFlow_true, markNotOffload_keys_self] at hk
              cases hk
            have hne : h ≠ flow := by
              rintro rfl
              exact hkk (hsound.distinct k k' h hh hflow)
            rw [owner_rteFlowDestroy_of_ne hne, ho]

theorem handleSound_deleteTimeoutBatch {portId : UInt16}
    (batch : List (AgedReport × Option KeyPtr)) :
    ∀ {w : World}, HandleSound w → HandleSound (deleteTimeoutBatch w portId batch).1 := by
  induction batch with
  | nil => exact id
  | cons x rest ih => exact fun hsound => ih (handleSound_deleteTimeoutFlow hsound portId x.1 x.2)

/-! ### What the handler acts on -/

/-- **A call about the flow key reported**: the rule acted on is a rule of that key, as far as
it is still installed, and so is the rule reported. -/
def NicCall.ActsOnOwn : NicCall → Prop
  | .query reported context _ passed nic | .destroy reported context _ passed nic _ =>
      (nic.flows reported = none ∨ nic.owner reported = some context) ∧
        (nic.flows passed = none ∨ nic.owner passed = some context)

/-- Every call of the ageing handler is about the flow key reported. -/
def Obs.ActsOnOwn : Obs → Prop
  | .nicCall call => call.ActsOnOwn
  | _ => True

/-- The contexts of a batch are those of its rules, as far as these are still installed. -/
def Traced (nic : Nic) (batch : List (AgedReport × Option KeyPtr)) : Prop :=
  ∀ x ∈ batch, ∀ k, x.2 = some k →
    nic.flows x.1.flow = none ∨ nic.owner x.1.flow = some k

theorem HandleSound.passed {w : World} (hsound : HandleSound w) {k : KeyPtr} {h : FlowHandle}
    (hk : (w.keys k).flow = some h) : w.nic.flows h = none ∨ w.nic.owner h = some k := by
  cases hr : w.nic.flows h with
  | none => exact Or.inl rfl
  | some r =>
      refine Or.inr ?_
      rw [Nic.owner, hr, Option.bind_some]
      exact hsound.own k h hk r hr

/-- The calls about one context. -/
theorem actsOnOwn_deleteTimeoutFlow {w : World} (hsound : HandleSound w) (portId : UInt16)
    {report : AgedReport} {context : Option KeyPtr}
    (htraced : ∀ k, context = some k →
      w.nic.flows report.flow = none ∨ w.nic.owner report.flow = some k) :
    ∀ call ∈ (deleteTimeoutFlow w portId report context).2, call.ActsOnOwn := by
  intro call hcall
  rcases deleteTimeoutFlow_cases w portId report context with ⟨heq, -⟩ | ⟨k, flow, hk, hflow, heq⟩
  · rw [heq] at hcall
    exact absurd hcall List.not_mem_nil
  · rw [heq] at hcall
    simp only [List.mem_cons, List.not_mem_nil, or_false] at hcall
    rcases hcall with rfl | rfl <;> exact ⟨htraced k hk, hsound.passed hflow⟩

/-- **The calls about a batch**: what the earlier contexts remove, the later ones no longer
find. -/
theorem actsOnOwn_deleteTimeoutBatch {portId : UInt16}
    (batch : List (AgedReport × Option KeyPtr)) :
    ∀ {w : World}, HandleSound w → Traced w.nic batch →
      ∀ call ∈ (deleteTimeoutBatch w portId batch).2, call.ActsOnOwn := by
  induction batch with
  | nil => exact fun _ _ call hcall => absurd hcall List.not_mem_nil
  | cons x rest ih =>
      intro w hsound htraced call hcall
      rcases List.mem_append.mp hcall with hcall | hcall
      · exact actsOnOwn_deleteTimeoutFlow hsound portId (htraced x List.mem_cons_self) call hcall
      · refine ih (handleSound_deleteTimeoutFlow hsound portId x.1 x.2) ?_ call hcall
        intro y hy k hk
        have hbefore := htraced y (List.mem_cons_of_mem x hy) k hk
        rcases flows_deleteTimeoutFlow w portId x.1 x.2 y.1.flow with heq | heq
        · rwa [Nic.owner, heq]
        · exact Or.inl heq

/-! ### Runs -/

/-- The step lemma. -/
theorem handleSound_step {w w' : World} {e : OffloadEvent} {os : List Obs}
    (hsound : HandleSound w) (h : Stepped w e w' os) :
    HandleSound w' ∧ ∀ o ∈ os, o.ActsOnOwn := by
  have hnone : ∀ o ∈ ([] : List Obs), o.ActsOnOwn := fun o ho => absurd ho List.not_mem_nil
  have hmodify : ∀ (flow : FlowHandle) (f : RteFlow → RteFlow),
      (∀ r, (f r).actions = r.actions) → HandleSound { w with nic := w.nic.modify flow f } := by
    intro flow f hf
    refine hsound.congr (fun _ _ hk => hk) le_rfl (fun h r' hr' => ?_)
      fun k hk => ⟨hk, rfl, fun h _ ho => by rw [Nic.owner_modify hf, ho]⟩
    rw [Nic.flows_modify] at hr'
    split at hr'
    next heq =>
      obtain ⟨r, hr, rfl⟩ := Option.map_eq_some_iff.mp hr'
      exact ⟨r, heq ▸ hr, by rw [RteFlow.ageContext, hf, RteFlow.ageContext]⟩
    · exact ⟨r', hr', rfl⟩
  cases h with
  | ignored _ => exact ⟨hsound, hnone⟩
  | @opened _ m _ r _ hr =>
      obtain ⟨-, hnic, -, -⟩ := frame_of_createFlow hr
      constructor
      · refine hsound.congr (fun k h hk => ?_) (by rw [hnic]) (fun h r' hr' => ?_) fun k hk => ?_
        · rcases keys_createFlow_cases hr k with heq | ⟨-, -, heq⟩
          · rwa [heq] at hk
          · rw [heq] at hk
            cases hk
        · rw [hnic] at hr'
          exact ⟨r', hr', rfl⟩
        · rcases keys_createFlow_cases hr k with heq | ⟨-, heq, -⟩
          · rw [heq] at hk ⊢
            exact ⟨hk, rfl, fun h _ ho => by rw [hnic, ho]⟩
          · rw [heq] at hk
            cases hk
      · intro o ho
        rcases List.mem_cons.mp ho with rfl | ho
        · trivial
        · obtain ⟨call, -, rfl⟩ := List.mem_map.mp ho
          trivial
  | @known _ m _ k _ =>
      have hflowEq : ∀ k', ((requestOffload (countPacket w k m.pktLen) k).keys k').flow =
          (w.keys k').flow := fun k' => by rw [flow_requestOffload, flow_countPacket]
      constructor
      · refine hsound.congr (fun k' h hk' => by rwa [hflowEq] at hk')
          (by rw [requestOffload_nic]; rfl)
          (fun h r' hr' => ?_) fun k' hk' => ⟨?_, hflowEq k', fun h _ ho => ?_⟩
        · rw [requestOffload_nic] at hr'
          exact ⟨r', hr', rfl⟩
        · rcases isOffload_requestOffload (countPacket w k m.pktLen) k k' with
            heq | ⟨-, -, heq⟩
          · rwa [heq, isOffload_countPacket] at hk'
          · rw [heq] at hk'
            cases hk'
        · rw [requestOffload_nic]
          exact ho
      · intro o ho
        rw [List.mem_singleton.mp ho]
        trivial
  | dequeued _ => exact ⟨⟨hsound.given, hsound.own, hsound.distinct, hsound.success⟩, hnone⟩
  | @engine k rest ok okSymmetrical _ hburst hbody =>
      refine ⟨handleSound_createFlowLoopBody (w := { w with burst := rest }) ?_ hbody, hnone⟩
      exact ⟨hsound.given, hsound.own, hsound.distinct, hsound.success⟩
  | @aged portId aged hvalid =>
      cases aged with
      | none => exact ⟨hsound, hnone⟩
      | some reports =>
          refine ⟨handleSound_deleteTimeoutBatch _ hsound, fun o ho => ?_⟩
          obtain ⟨call, hcall, rfl⟩ := List.mem_map.mp ho
          refine actsOnOwn_deleteTimeoutBatch _ hsound ?_ call hcall
          intro x hx k hk
          obtain ⟨report, -, rfl⟩ := List.mem_map.mp hx
          exact Or.inr hk
  | traffic flow hits bytes => exact ⟨hmodify flow _ fun _ => rfl, hnone⟩
  | timeout flow => exact ⟨hmodify flow _ fun _ => rfl, hnone⟩

/-- Every reachable state has sound handles, as long as `rte_flow_create` never gives a handle
out twice: `Nic.fresh` has it that also a handle whose rule is gone stays used. -/
theorem handleSound_of_reachable {w : World} (hw : offloadMachine.Reachable w) :
    HandleSound w :=
  hw.state_invariant (fun _ hinit => handleSound_of_init hinit)
    fun hsound hstep => (handleSound_step hsound (stepped_of_step hstep)).1

/-- Also after a flow has been offloaded twice. -/
theorem handleSound_staleEvents :
    HandleSound ((offloadMachine.exec initialSingle staleEvents).get staleRun_isSome).1 :=
  handleSound_of_reachable (Machine.reachable_exec_get init_initialSingle staleRun_isSome)

/-- **The ageing handler acts on the flow key reported**, over every run, whatever is
offloaded twice: it never queries or destroys a default rule or a rule of another key. -/
theorem actsOnOwn_of_run {w₀ w : World} {es : List OffloadEvent} {tr : List Obs}
    (hinit : offloadMachine.Init w₀) (hrun : offloadMachine.Run w₀ es tr w) :
    ∀ o ∈ tr, o.ActsOnOwn := by
  have hall : HandleSound w ∧ ∀ o ∈ tr, o.ActsOnOwn := by
    refine hrun.invariant (P := fun w tr => HandleSound w ∧ ∀ o ∈ tr, o.ActsOnOwn) ?_ ?_
    · exact ⟨handleSound_of_init hinit, fun o ho => absurd ho List.not_mem_nil⟩
    · rintro s tr e s' os ⟨hsound, htr⟩ - hstep
      obtain ⟨hsound', hos⟩ := handleSound_step hsound (stepped_of_step hstep)
      refine ⟨hsound', fun o ho => ?_⟩
      rcases List.mem_append.mp ho with ho | ho
      · exact htr o ho
      · exact hos o ho
  exact hall.2

/-- Also where a rule is destroyed in place of another. -/
theorem actsOnOwn_staleEvents :
    ∃ tr w, offloadMachine.Run initialSingle staleEvents tr w ∧ ∀ o ∈ tr, o.ActsOnOwn := by
  have hrun := Machine.run_exec_get staleRun_isSome
  exact ⟨_, _, hrun, actsOnOwn_of_run init_initialSingle hrun⟩

end SmartOffload
