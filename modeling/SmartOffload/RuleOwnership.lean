import SmartOffload.RuleHandles

/-!
# Who owns a rule

A rule and its flow key know each other in one direction each: the rule carries
the key as its age context, the key carries the handle of the rule.  `KeyOwnership`
is what makes the two agree at one key; it contains what the ageing handler relies
on (`RuleOwnership.handleInv`).

The flow engine does not look at the status of what it offloads.  Offloading a key
keeps ownership exactly when the key has no rule yet
(`keyOwnership_offloadKey_iff`), so a run keeps ownership exactly when the engine
never processes a key that is offloaded, nor one whose partner is
(`ruleOwnership_iff`).
-/

namespace SmartOffload

/-! ### Ownership -/

/-- **Ownership at one key**: at most one rule is installed for it, its status says
whether there is one, and its handle is that rule's. -/
structure KeyOwnership (w : World) (k : KeyPtr) : Prop where
  unique : ∀ h h', w.nic.owner h = some k → w.nic.owner h' = some k → h = h'
  status : (w.keys k).isOffload = .offloadSuccess ↔ ∃ h, w.nic.owner h = some k
  handle : ∀ h, w.nic.owner h = some k → (w.keys k).flow = some h

/-- **Rule ownership**: every flow key and its rules agree. -/
def RuleOwnership (w : World) : Prop := ∀ k, KeyOwnership w k

/-- Ownership reads the status, the handle and the rules of its key. -/
theorem keyOwnership_congr {w w' : World} {k : KeyPtr}
    (hstatus : (w'.keys k).isOffload = .offloadSuccess ↔
      (w.keys k).isOffload = .offloadSuccess)
    (hflow : (w'.keys k).flow = (w.keys k).flow)
    (hown : ∀ h, w'.nic.owner h = some k ↔ w.nic.owner h = some k) :
    KeyOwnership w' k ↔ KeyOwnership w k := by
  constructor
  · intro hk
    refine ⟨fun h h' ho ho' => ?_, ?_, fun h ho => ?_⟩
    · exact hk.unique h h' ((hown h).mpr ho) ((hown h').mpr ho')
    · rw [← hstatus, hk.status]
      exact exists_congr hown
    · rw [← hflow]
      exact hk.handle h ((hown h).mpr ho)
  · intro hk
    refine ⟨fun h h' ho ho' => ?_, ?_, fun h ho => ?_⟩
    · exact hk.unique h h' ((hown h).mp ho) ((hown h').mp ho')
    · rw [hstatus, hk.status]
      exact exists_congr fun h => (hown h).symm
    · rw [hflow]
      exact hk.handle h ((hown h).mp ho)

/-- Ownership is a matter of the flow keys and the owners of rules alone. -/
theorem RuleOwnership.congr {w w' : World} (hown : RuleOwnership w) (hkeys : w'.keys = w.keys)
    (hnic : ∀ h, w'.nic.owner h = w.nic.owner h) : RuleOwnership w' := by
  intro k
  refine (keyOwnership_congr ?_ ?_ fun h => ?_).mpr (hown k)
  · rw [hkeys]
  · rw [hkeys]
  · rw [hnic]

/-- A key without rules owns rightly if its status does not claim one. -/
theorem keyOwnership_of_no_rule {w : World} {k : KeyPtr} (hno : OwnsNoRule w.nic k)
    (hstatus : (w.keys k).isOffload ≠ .offloadSuccess) : KeyOwnership w k where
  unique h _ ho := absurd ho (hno h)
  status := ⟨fun h => absurd h hstatus, fun ⟨h, ho⟩ => absurd ho (hno h)⟩
  handle h ho := absurd ho (hno h)

theorem KeyOwnership.no_rule {w : World} {k : KeyPtr} (hk : KeyOwnership w k)
    (hstatus : (w.keys k).isOffload ≠ .offloadSuccess) : OwnsNoRule w.nic k :=
  fun h ho => hstatus (hk.status.mpr ⟨h, ho⟩)

/-! ### The flow engine -/

theorem keyOwnership_offloadKey_of_ne {w : World} {portId : UInt16} {k k' : KeyPtr}
    {ok : Bool} (hne : k' ≠ k) :
    KeyOwnership (offloadKey w portId k ok).2 k' ↔ KeyOwnership w k' := by
  apply keyOwnership_congr
  · rw [keys_offloadKey_of_ne hne]
  · rw [keys_offloadKey_of_ne hne]
  · exact owner_offloadKey_iff_of_ne hne

/-- **Offloading a key keeps its ownership exactly when it is not offloaded yet**,
whether the rule is created or not. -/
theorem keyOwnership_offloadKey_iff {w : World} {k : KeyPtr} (hk : KeyOwnership w k)
    (portId : UInt16) (ok : Bool) :
    KeyOwnership (offloadKey w portId k ok).2 k ↔
      (w.keys k).isOffload ≠ .offloadSuccess := by
  rcases offloadKey_cases w portId k ok with ⟨heq, -⟩ | ⟨-, pattern, heq⟩
  · rw [heq]
    constructor
    · -- the rule is still installed, and the status forgets it
      intro hk' hsuccess
      have hclaim := hk'.status.mpr (hk.status.mp hsuccess)
      rw [markNotOffload_keys_self] at hclaim
      cases hclaim
    · intro hne
      refine keyOwnership_of_no_rule (hk.no_rule hne) ?_
      rw [markNotOffload_keys_self]
      exact OffloadStatus.noConfusion
  · rw [heq]
    generalize hworld : { w with nic := w.nic.install (offloadRule portId k pattern) } = w₁
    have hown : ∀ h, (markOffloadSuccess w₁ k w.nic.next).nic.owner h =
        if h = w.nic.next then some k else w.nic.owner h := by
      intro h
      rw [markOffloadSuccess_nic, ← hworld, Nic.owner_install, offloadRule_ageContext]
    constructor
    · -- the earlier rule and the new one are both installed
      intro hk' hsuccess
      obtain ⟨h, ho⟩ := hk.status.mp hsuccess
      have hlt : h < w.nic.next := Nic.lt_next_of_owner ho
      have heq' := hk'.unique h w.nic.next
        (by rw [hown, if_neg hlt.ne, ho]) (by rw [hown, if_pos rfl])
      exact hlt.ne heq'
    · intro hne
      have honly : ∀ h, (markOffloadSuccess w₁ k w.nic.next).nic.owner h = some k →
          h = w.nic.next := by
        intro h ho
        by_contra hnext
        rw [hown, if_neg hnext] at ho
        exact hk.no_rule hne h ho
      refine ⟨fun h h' ho ho' => (honly h ho).trans (honly h' ho').symm, ?_, fun h ho => ?_⟩
      · rw [markOffloadSuccess_keys_self]
        exact ⟨fun _ => ⟨w.nic.next, by rw [hown, if_pos rfl]⟩, fun _ => rfl⟩
      · rw [honly h ho, markOffloadSuccess_keys_self]

/-- **One iteration of the engine keeps ownership** exactly when the key is not
offloaded yet and, if its rule is created, neither is its partner. -/
theorem ruleOwnership_createFlowLoopBody_iff {w w' : World} {k partner : KeyPtr}
    {ok okSymmetrical : Bool} (hown : RuleOwnership w) (hne : partner ≠ k)
    (hlink : (w.keys k).symmetricalFlowKey = some partner)
    (hbody : createFlowLoopBody w k ok okSymmetrical = some w') :
    RuleOwnership w' ↔
      (w.keys k).isOffload ≠ .offloadSuccess ∧
        (ok = true → Offloadable (w.keys k) →
          (w.keys partner).isOffload ≠ .offloadSuccess) := by
  rw [createFlowLoopBody_of_link hlink] at hbody
  obtain rfl := Option.some.inj hbody
  have hkey := keyOwnership_offloadKey_iff (hown k) w.port0 ok
  split
  next hyes =>
    have hpartner : KeyOwnership (offloadKey w w.port0 k ok).2 partner :=
      (keyOwnership_offloadKey_of_ne hne).mpr (hown partner)
    have hpartner' := keyOwnership_offloadKey_iff hpartner (symmetricalPort w) okSymmetrical
    rw [keys_offloadKey_of_ne hne] at hpartner'
    constructor
    · intro h
      refine ⟨hkey.mp ?_, fun _ _ => hpartner'.mp (h partner)⟩
      exact (keyOwnership_offloadKey_of_ne hne.symm).mp (h k)
    · rintro ⟨hstatus, hstatus'⟩ k'
      by_cases hk' : k' = partner
      · rw [hk']
        exact hpartner'.mpr (hstatus' hyes.1 hyes.2)
      · rw [keyOwnership_offloadKey_of_ne hk']
        by_cases hk : k' = k
        · rw [hk]
          exact hkey.mpr hstatus
        · exact (keyOwnership_offloadKey_of_ne hk).mpr (hown k')
  next hno =>
    constructor
    · intro h
      exact ⟨hkey.mp (h k), fun hok hoff => absurd ⟨hok, hoff⟩ hno⟩
    · rintro ⟨hstatus, -⟩ k'
      by_cases hk : k' = k
      · rw [hk]
        exact hkey.mpr hstatus
      · exact (keyOwnership_offloadKey_of_ne hk).mpr (hown k')

/-! ### The ageing handler -/

theorem RuleOwnership.handleInv {w : World} (hown : RuleOwnership w) : HandleInv w :=
  fun h k ho => (hown k).handle h ho

/-- **Handling a context keeps ownership**: the rule goes and the status says so, or
both stay. -/
theorem ruleOwnership_deleteTimeoutFlow {w : World} (hown : RuleOwnership w)
    {portId : UInt16} {report : AgedReport} {context : Option KeyPtr}
    (hcontext : w.nic.owner report.flow = context)
    (hport : w.nic.portOf report.flow = some portId) :
    RuleOwnership (deleteTimeoutFlow w portId report context).1 := by
  intro k
  by_cases hk : context = some k
  · subst hk
    rw [deleteTimeoutFlow_of_owner hown.handleInv portId hcontext]
    cases report.destroyOk with
    | false =>
        rw [destroyTimeoutFlow_false]
        refine (keyOwnership_congr ?_ ?_ fun h => ?_).mpr (hown k)
        · rw [isOffload_mergeCounter]
        · rw [flow_mergeCounter]
        · rw [mergeCounter_nic]
    | true =>
        rw [destroyTimeoutFlow_true, mergeCounter_nic]
        apply keyOwnership_of_no_rule
        · -- the only rule of the key is the one destroyed
          intro h ho
          have ho' : w.nic.owner h = some k := owner_of_owner_rteFlowDestroy ho
          rw [(hown k).unique h report.flow ho' hcontext] at ho
          have hnone := owner_rteFlowDestroy_self hport
          rw [markNotOffload_nic, hnone] at ho
          cases ho
        · rw [markNotOffload_keys_self]
          exact OffloadStatus.noConfusion
  · have hkeys : (deleteTimeoutFlow w portId report context).1.keys k = w.keys k :=
      keys_deleteTimeoutFlow_of_ne hk
    refine (keyOwnership_congr ?_ ?_ fun h => ?_).mpr (hown k)
    · rw [hkeys]
    · rw [hkeys]
    · refine ⟨owner_of_owner_deleteTimeoutFlow, fun ho => ?_⟩
      have hne : h ≠ report.flow := by
        rintro rfl
        exact hk (hcontext.symm.trans ho)
      rw [(nic_deleteTimeoutFlow_of_ne hown.handleInv portId hcontext hne).1, ho]

theorem ruleOwnership_deleteTimeoutBatch {portId : UInt16}
    (batch : List (AgedReport × Option KeyPtr)) :
    ∀ {w : World}, RuleOwnership w → Reported w portId batch →
      RuleOwnership (deleteTimeoutBatch w portId batch).1 := by
  induction batch with
  | nil => exact fun hown _ => hown
  | cons x rest ih =>
      intro w hown hrep
      apply ih
      · exact ruleOwnership_deleteTimeoutFlow hown (hrep.context x List.mem_cons_self)
          (hrep.port x List.mem_cons_self)
      · exact hrep.tail hown.handleInv

/-! ### Runs that keep ownership -/

/-- The guard: the engine processes a key that is not offloaded yet and, if its rule
is created, whose partner is not either. -/
def NotOffloadedYet (w : World) : OffloadEvent → Prop
  | .flowEngine ok _ => ∀ k ∈ w.burst.head?,
      (w.keys k).isOffload ≠ .offloadSuccess ∧
        (ok = true → Offloadable (w.keys k) → ∀ partner ∈ (w.keys k).symmetricalFlowKey,
          (w.keys partner).isOffload ≠ .offloadSuccess)
  | _ => True

/-- Opening a flow: the keys it writes to have no rules. -/
theorem ruleOwnership_createFlow {w : World} {m : RteMbuf} {env : PacketEnv}
    {r : PacketResult} (hinv : FlowInv w) (hown : RuleOwnership w)
    (h : createFlow w m (getIpv4_5tuple m ipv4Mask) env = some r) :
    RuleOwnership r.world := by
  obtain ⟨-, hnic, -, -⟩ := frame_of_createFlow h
  intro k
  rcases keys_createFlow_cases h k with hkeys | ⟨hserial, hstatus, -⟩
  · refine (keyOwnership_congr ?_ ?_ fun h => ?_).mpr (hown k)
    · rw [hkeys]
    · rw [hkeys]
    · rw [hnic]
  · apply keyOwnership_of_no_rule
    · intro h ho
      rw [hnic] at ho
      exact (hinv.owned h k ho).1.ne hserial
    · rw [hstatus]
      exact OffloadStatus.noConfusion

/-- A frame of a known flow: no status starts or stops claiming a rule. -/
theorem ruleOwnership_known {w : World} (hown : RuleOwnership w) (k : KeyPtr)
    (pktLen : UInt32) : RuleOwnership (requestOffload (countPacket w k pktLen) k) := by
  intro k'
  refine (keyOwnership_congr ?_ ?_ fun h => ?_).mpr (hown k')
  · rcases isOffload_requestOffload (countPacket w k pktLen) k k' with
      heq | ⟨rfl, hbefore, hafter⟩
    · rw [heq, isOffload_countPacket]
    · rw [isOffload_countPacket] at hbefore
      rw [hafter, hbefore]
      exact ⟨OffloadStatus.noConfusion, OffloadStatus.noConfusion⟩
  · rw [flow_requestOffload, flow_countPacket]
  · rw [requestOffload_nic]
    rfl

/-- The engine's step, from its guard and back. -/
theorem ruleOwnership_engine_iff {w w' : World} {k : KeyPtr} {rest : List KeyPtr}
    {ok okSymmetrical : Bool} (hinv : FlowInv w) (hown : RuleOwnership w)
    (hburst : w.burst = k :: rest)
    (hbody : createFlowLoopBody { w with burst := rest } k ok okSymmetrical = some w') :
    RuleOwnership w' ↔ NotOffloadedYet w (.flowEngine ok okSymmetrical) := by
  have hlink : (w.keys k).symmetricalFlowKey = some k.partner := hinv.link_of_burst hburst
  have hown' : RuleOwnership { w with burst := rest } := hown.congr rfl fun _ => rfl
  rw [ruleOwnership_createFlowLoopBody_iff hown' k.partner_ne hlink hbody]
  simp [NotOffloadedYet, hburst, hlink]

/-- **A step keeps ownership exactly when it meets the guard.** -/
theorem ruleOwnership_step_iff {w w' : World} {e : OffloadEvent} {os : List Obs}
    (hinv : FlowInv w) (hown : RuleOwnership w) (h : Stepped w e w' os) :
    RuleOwnership w' ↔ NotOffloadedYet w e := by
  cases h with
  | ignored _ => exact iff_of_true hown trivial
  | opened _ hr => exact iff_of_true (ruleOwnership_createFlow hinv hown hr) trivial
  | known _ => exact iff_of_true (ruleOwnership_known hown _ _) trivial
  | dequeued _ => exact iff_of_true (hown.congr rfl fun _ => rfl) trivial
  | engine hburst hbody => exact ruleOwnership_engine_iff hinv hown hburst hbody
  | @aged portId aged hvalid =>
      refine iff_of_true ?_ trivial
      cases aged with
      | none => exact hown
      | some reports =>
          exact ruleOwnership_deleteTimeoutBatch _ hown
            (reported_of_validReports (hvalid reports rfl))
  | traffic flow hits bytes =>
      exact iff_of_true (hown.congr rfl fun h => w.nic.owner_forward h flow hits bytes) trivial
  | timeout flow =>
      exact iff_of_true (hown.congr rfl fun h => w.nic.owner_timeOut h flow) trivial

theorem ruleOwnership_of_init {w : World} (h : offloadMachine.Init w) : RuleOwnership w := by
  obtain ⟨mode, port0, port1, portPool, readSpec, -, -, rfl⟩ := h
  intro k
  apply keyOwnership_of_no_rule
  · intro h
    simp [initialWorld]
  · exact OffloadStatus.noConfusion

/-- **When rules and flow keys agree.**  Over any run, in every state visited: exactly
when the engine never processes an offloaded key, nor creates a rule for one whose
partner is offloaded. -/
theorem ruleOwnership_iff {w₀ w : World} {es : List OffloadEvent} {tr : List Obs}
    (hinit : offloadMachine.Init w₀) (hrun : offloadMachine.Run w₀ es tr w) :
    (∀ t, offloadMachine.Visits w₀ es t → RuleOwnership t) ↔
      offloadMachine.RunWhile NotOffloadedYet w₀ es tr w := by
  apply Machine.run_forall_visited_iff (K := fun w => FlowInv w ∧ RuleOwnership w) hrun
  · exact ⟨flowInv_of_init hinit, ruleOwnership_of_init hinit⟩
  · exact fun h => h.2
  · intro s e s' os hK hguard hstep
    have hstepped := stepped_of_step hstep
    exact ⟨flowInv_step hK.1 hstepped,
      (ruleOwnership_step_iff hK.1 hK.2 hstepped).mpr hguard⟩
  · intro s e s' os hK hstep hI
    exact (ruleOwnership_step_iff hK.1 hK.2 (stepped_of_step hstep)).mp hI

instance (w : World) : DecidablePred (NotOffloadedYet w)
  | .flowEngine ok _ => inferInstanceAs (Decidable (∀ k ∈ w.burst.head?,
      (w.keys k).isOffload ≠ .offloadSuccess ∧
        (ok = true → Offloadable (w.keys k) → ∀ partner ∈ (w.keys k).symmetricalFlowKey,
          (w.keys partner).isOffload ≠ .offloadSuccess)))
  | .packet _ _ _ => inferInstanceAs (Decidable True)
  | .dequeueBurst => inferInstanceAs (Decidable True)
  | .ageing _ _ => inferInstanceAs (Decidable True)
  | .traffic _ _ _ => inferInstanceAs (Decidable True)
  | .timeout _ => inferInstanceAs (Decidable True)

/-- A flow offloaded once owns its rules. -/
theorem ruleOwnership_offloadEvents :
    ∃ tr w, offloadMachine.Run initialSingle offloadEvents tr w ∧
      ∀ t, offloadMachine.Visits initialSingle offloadEvents t → RuleOwnership t := by
  have hrun := Machine.run_exec_get offloadRun_isSome
  refine ⟨_, _, hrun, ?_⟩
  exact (ruleOwnership_iff init_initialSingle hrun).mpr (hrun.runWhile (by decide +kernel))

/-- **A key with two rules**: the in-direction key owns the rules 3 and 5. -/
theorem not_ruleOwnership_reoffloadEvents :
    ∃ tr w, offloadMachine.Init initialSingle ∧
      offloadMachine.Run initialSingle reoffloadEvents tr w ∧ ¬ RuleOwnership w := by
  refine ⟨_, _, init_initialSingle, Machine.run_exec_get reoffloadRun_isSome, fun h => ?_⟩
  have heq := (h (.back 0)).unique 3 5 (by decide +kernel) (by decide +kernel)
  cases heq

end SmartOffload
