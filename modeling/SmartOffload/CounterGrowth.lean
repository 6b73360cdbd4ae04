import SmartOffload.Accounting

/-!
# Counters that only grow

Packets and bytes of a flow are kept in two words of 32 bits, and decide whether the
flow is offloaded: one that has seen `PKT_AMOUNT_TO_OFFLOAD` packets is handed to the
flow engine again as soon as its rule has timed out.  The worker adds the length of
every frame to them, the ageing handler the 64-bit counters of the fast path.

Nothing checks the sums.  The counters of a run grow exactly when every sum fits its
word (`statisticsGrow_iff`); one rule that has forwarded enough packets takes a flow
back below the threshold (`not_statisticsGrow_wrapEvents`).
-/

namespace SmartOffload

/-- No counter of a flow key is less than it was. -/
def CountersLe (w w' : World) : Prop :=
  ∀ k, (w.keys k).counters.1 ≤ (w'.keys k).counters.1 ∧
    (w.keys k).counters.2 ≤ (w'.keys k).counters.2

theorem CountersLe.refl (w : World) : CountersLe w w :=
  fun _ => ⟨UInt32.le_refl _, UInt32.le_refl _⟩

theorem CountersLe.trans {w w' w'' : World} (h : CountersLe w w') (h' : CountersLe w' w'') :
    CountersLe w w'' :=
  fun k => ⟨UInt32.le_trans (h k).1 (h' k).1, UInt32.le_trans (h k).2 (h' k).2⟩

/-! ### The states of a step -/

/-- The states `delete_timeout_flows` goes through: one for each context. -/
def batchStates (w : World) (portId : UInt16) :
    List (AgedReport × Option KeyPtr) → List World
  | [] => []
  | (report, context) :: rest =>
      let w' := (deleteTimeoutFlow w portId report context).1
      w' :: batchStates w' portId rest

/-- The states an event leads through, up to the one it ends in. -/
def stepStates (w : World) (e : OffloadEvent) (w' : World) : List World :=
  match e with
  | .ageing portId (some reports) =>
      batchStates w portId (reports.map fun report => (report, w.nic.owner report.flow))
  | _ => [w']

/-- **Counters that only grow**, over a run: from each state to the next, those inside
the ageing handler included.  So no counter is ever less than it was, and a flow that
has passed the threshold stays eligible: whenever it is not offloaded, the worker wants
it to be. -/
structure StatisticsGrow (w₀ : World) (es : List OffloadEvent) (w : World) : Prop where
  steps : ∀ t e t', offloadMachine.Takes w₀ es t e t' →
    (t :: stepStates t e t').IsChain CountersLe
  monotone : ∀ t, offloadMachine.Visits w₀ es t → CountersLe t w
  eligible : ∀ t, offloadMachine.Visits w₀ es t → ∀ k,
    pktAmountToOffload ≤ (t.keys k).packetAmount → (w.keys k).isOffload = .notOffload →
      wantsOffload (w.keys k) = true

/-! ### Sums that fit -/

/-- Both sums fit their words. -/
def Fits (c d : UInt32 × UInt32) : Prop :=
  c.1.toNat + d.1.toNat < 2 ^ 32 ∧ c.2.toNat + d.2.toNat < 2 ^ 32

instance (c d : UInt32 × UInt32) : Decidable (Fits c d) := inferInstanceAs (Decidable (_ ∧ _))

/-- A word is not less after an addition exactly when the sum fits. -/
theorem le_add_iff_fits (a b : UInt32) : a ≤ a + b ↔ a.toNat + b.toNat < 2 ^ 32 := by
  have ha : a.toNat < 2 ^ 32 := a.toNat_lt
  have hb : b.toNat < 2 ^ 32 := b.toNat_lt
  rw [UInt32.le_iff_toNat_le, UInt32.toNat_add]
  omega

/-- Adding to the counters of one key leaves none of them less exactly when it fits. -/
theorem countersLe_iff_fits {w w' : World} {k : KeyPtr} {d : UInt32 × UInt32}
    (hself : (w'.keys k).counters = ((w.keys k).counters.1 + d.1, (w.keys k).counters.2 + d.2))
    (hne : ∀ k', k' ≠ k → (w'.keys k').counters = (w.keys k').counters) :
    CountersLe w w' ↔ Fits (w.keys k).counters d := by
  constructor
  · intro h
    have hk := h k
    rw [hself] at hk
    exact ⟨(le_add_iff_fits _ _).mp hk.1, (le_add_iff_fits _ _).mp hk.2⟩
  · intro h k'
    by_cases hk : k' = k
    · rw [hk, hself]
      exact ⟨(le_add_iff_fits _ _).mpr h.1, (le_add_iff_fits _ _).mpr h.2⟩
    · rw [hne k' hk]
      exact ⟨UInt32.le_refl _, UInt32.le_refl _⟩

/-- The counters a context brings: those of the rule its key's handle denotes, cut to
words. -/
def mergedCounters (w : World) (portId : UInt16) (report : AgedReport) (flow : FlowHandle) :
    Option (UInt32 × UInt32) :=
  (queryCounter w.nic portId flow report.queryOk report.stale).map fun c =>
    (c.1.toUInt32, c.2.toUInt32)

/-- The sums of one context fit. -/
def ContextFits (w : World) (portId : UInt16) (x : AgedReport × Option KeyPtr) : Prop :=
  ∀ k ∈ x.2, ∀ flow ∈ (w.keys k).flow, ∀ d ∈ mergedCounters w portId x.1 flow,
    Fits (w.keys k).counters d

instance (w : World) (portId : UInt16) (x : AgedReport × Option KeyPtr) :
    Decidable (ContextFits w portId x) :=
  -- the sums are looked up; the pairs of words are not enumerated
  have (k : KeyPtr) (flow : FlowHandle) :
      Decidable (∀ d ∈ mergedCounters w portId x.1 flow, Fits (w.keys k).counters d) :=
    Option.decidableForallMem _
  have (k : KeyPtr) : Decidable (∀ flow ∈ (w.keys k).flow,
      ∀ d ∈ mergedCounters w portId x.1 flow, Fits (w.keys k).counters d) :=
    Option.decidableForallMem _
  Option.decidableForallMem _

/-- The sums of a batch fit, each where the handler gets to it. -/
def BatchFits (w : World) (portId : UInt16) : List (AgedReport × Option KeyPtr) → Prop
  | [] => True
  | x :: rest => ContextFits w portId x ∧
      BatchFits (deleteTimeoutFlow w portId x.1 x.2).1 portId rest

instance decidableBatchFits (w : World) (portId : UInt16) :
    (batch : List (AgedReport × Option KeyPtr)) → Decidable (BatchFits w portId batch)
  | [] => inferInstanceAs (Decidable True)
  | x :: rest =>
      have := decidableBatchFits (deleteTimeoutFlow w portId x.1 x.2).1 portId rest
      inferInstanceAs (Decidable (ContextFits w portId x ∧
        BatchFits (deleteTimeoutFlow w portId x.1 x.2).1 portId rest))

/-- The guard: no sum is cut.  Frames of a known flow are added to its counters, and the
counters of timed-out rules are. -/
def NoWrap (w : World) : OffloadEvent → Prop
  | .packet _ m _ => supportedPacketType m.packetType = true →
      ∀ k ∈ w.flowHashMap.lookup (getIpv4_5tuple m ipv4Mask),
        Fits (w.keys k).counters (1, m.pktLen)
  | .ageing portId aged => ∀ reports ∈ aged, BatchFits w portId
      (reports.map fun report => (report, w.nic.owner report.flow))
  | _ => True

/-! ### One step -/

/-- **Handling one context** leaves no counter less exactly when its sums fit. -/
theorem countersLe_deleteTimeoutFlow_iff (w : World) (portId : UInt16)
    (x : AgedReport × Option KeyPtr) :
    CountersLe w (deleteTimeoutFlow w portId x.1 x.2).1 ↔ ContextFits w portId x := by
  rcases deleteTimeoutFlow_cases w portId x.1 x.2 with ⟨heq, hno⟩ | ⟨k, flow, hk, hflow, heq⟩
  · rw [heq]
    refine iff_of_true (CountersLe.refl w) fun k hk flow hflow => ?_
    rw [hno k hk] at hflow
    cases hflow
  · have hcontext : ContextFits w portId x ↔
        ∀ d ∈ mergedCounters w portId x.1 flow, Fits (w.keys k).counters d := by
      simp only [ContextFits, hk, hflow, Option.mem_some_iff, forall_eq']
    have hdestroy : ∀ (w₁ : World) (k' : KeyPtr),
        ((destroyTimeoutFlow w₁ portId k flow x.1.destroyOk).keys k').counters =
          (w₁.keys k').counters := by
      intro w₁ k'
      cases x.1.destroyOk with
      | false => rw [destroyTimeoutFlow_false]
      | true => rw [destroyTimeoutFlow_true, counters_markNotOffload]
    rw [heq, hcontext]
    cases hquery : queryCounter w.nic portId flow x.1.queryOk x.1.stale with
    | none =>
        refine iff_of_true (fun k' => ?_) ?_
        · rw [hdestroy]
          exact CountersLe.refl w k'
        · simp [mergedCounters, hquery]
    | some c =>
        have hfits : (∀ d ∈ mergedCounters w portId x.1 flow, Fits (w.keys k).counters d) ↔
            Fits (w.keys k).counters (c.1.toUInt32, c.2.toUInt32) := by
          simp [mergedCounters, hquery]
        rw [hfits]
        apply countersLe_iff_fits
        · rw [hdestroy]
          exact counters_mergeCounter_self w k c.1 c.2
        · intro k' hne
          rw [hdestroy, mergeCounter, World.modifyKey_keys_of_ne w k _ hne]

/-- **The handler's states** only grow exactly when the sums of its batch fit. -/
theorem isChain_batchStates_iff (portId : UInt16) (batch : List (AgedReport × Option KeyPtr)) :
    ∀ w, (w :: batchStates w portId batch).IsChain CountersLe ↔ BatchFits w portId batch := by
  induction batch with
  | nil => exact fun w => iff_of_true (.singleton w) trivial
  | cons x rest ih =>
      intro w
      have hrest := ih (deleteTimeoutFlow w portId x.1 x.2).1
      rw [batchStates, BatchFits, List.isChain_cons_cons, hrest,
        countersLe_deleteTimeoutFlow_iff w portId x]

/-- The last of the handler's states is not less than the first. -/
theorem countersLe_of_isChain_batchStates {portId : UInt16}
    (batch : List (AgedReport × Option KeyPtr)) :
    ∀ {w : World}, (w :: batchStates w portId batch).IsChain CountersLe →
      CountersLe w (deleteTimeoutBatch w portId batch).1 := by
  induction batch with
  | nil => exact fun {w} _ => CountersLe.refl w
  | cons x rest ih =>
      intro w h
      obtain ⟨hfirst, hrest⟩ := List.isChain_cons_cons.mp h
      exact hfirst.trans (ih hrest)

/-- Opening a flow takes two keys from zero. -/
theorem countersLe_createFlow {w : World} {m : RteMbuf} {t : RdarmFiveTuple} {env : PacketEnv}
    {r : PacketResult} (hzero : UnopenedZero w) (h : createFlow w m t env = some r) :
    CountersLe w r.world := by
  intro k
  by_cases hk : k.serial = w.serial
  · rw [hzero k hk.ge]
    exact ⟨UInt32.zero_le, UInt32.zero_le⟩
  · rw [keys_of_createFlow h hk]
    exact ⟨UInt32.le_refl _, UInt32.le_refl _⟩

/-- Where the counters stay, none is less. -/
theorem countersLe_of_eq {w w' : World} (h : ∀ k, (w'.keys k).counters = (w.keys k).counters) :
    CountersLe w w' := by
  intro k
  rw [h k]
  exact ⟨UInt32.le_refl _, UInt32.le_refl _⟩

/-- A call that shows something admitted its frame. -/
theorem supported_of_step {w w' : World} {portId : UInt16} {m : RteMbuf} {env : PacketEnv}
    {os : List Obs} (h : offloadStep w (.packet portId m env) = some (w', os)) (hos : os ≠ []) :
    supportedPacketType m.packetType = true := by
  by_contra hno
  rw [Bool.not_eq_true] at hno
  simp only [offloadStep, packetProcessing_unsupported hno, packetObs, frameOwner, hno,
    Option.some.injEq, Prod.mk.injEq] at h
  exact hos h.2.symm

/-- A frame of a known flow leaves no counter less exactly when its sums fit. -/
theorem countersLe_known_iff (w : World) (k : KeyPtr) (pktLen : UInt32) :
    CountersLe w (requestOffload (countPacket w k pktLen) k) ↔
      Fits (w.keys k).counters (1, pktLen) := by
  apply countersLe_iff_fits
  · rw [counters_requestOffload, counters_countPacket_self]
  · intro k' hne
    rw [counters_requestOffload, counters_countPacket_of_ne w hne]

/-- **One step** goes through growing states exactly when it meets the guard. -/
theorem isChain_stepStates_iff {w w' : World} {e : OffloadEvent} {os : List Obs}
    (hflow : FlowInv w) (hzero : UnopenedZero w) (hstep : offloadStep w e = some (w', os)) :
    (w :: stepStates w e w').IsChain CountersLe ↔ NoWrap w e := by
  have h := stepped_of_step hstep
  have hpair : ∀ {w'}, CountersLe w w' → (w :: [w']).IsChain CountersLe := fun hle =>
    List.isChain_cons_cons.mpr ⟨hle, .singleton _⟩
  cases h with
  | ignored hno =>
      refine iff_of_true (hpair (CountersLe.refl w)) fun hs => ?_
      rw [hno] at hs
      cases hs
  | @opened portId m env r hopen hr =>
      refine iff_of_true (hpair (countersLe_createFlow hzero hr)) fun _ k hk => ?_
      rw [hopen.lookup] at hk
      cases hk
  | @known portId m env k hk =>
      have hs := supported_of_step hstep (List.cons_ne_nil _ _)
      have hguard : NoWrap w (.packet portId m env) ↔ Fits (w.keys k).counters (1, m.pktLen) := by
        simp only [NoWrap, hs, hk, Option.mem_some_iff, forall_const, forall_eq']
      rw [hguard, ← countersLe_known_iff]
      exact ⟨fun hchain => (List.isChain_cons_cons.mp hchain).1, fun hle => hpair hle⟩
  | dequeued _ => exact iff_of_true (hpair (countersLe_of_eq fun _ => rfl)) trivial
  | @engine k rest _ _ _ hburst hbody =>
      refine iff_of_true (hpair (countersLe_of_eq ?_)) trivial
      exact counters_createFlowLoopBody (w := { w with burst := rest })
        (hflow.link_of_burst hburst) hbody
  | @aged portId aged _ =>
      cases aged with
      | none =>
          refine iff_of_true (hpair (CountersLe.refl w)) fun reports hreports => ?_
          cases hreports
      | some reports =>
          have hbatch := isChain_batchStates_iff portId
            (reports.map fun report => (report, w.nic.owner report.flow)) w
          refine hbatch.trans ⟨fun h reports' heq => ?_, fun h => h reports rfl⟩
          rwa [← Option.some.inj heq]
  | traffic _ _ _ => exact iff_of_true (hpair (countersLe_of_eq fun _ => rfl)) trivial
  | timeout _ => exact iff_of_true (hpair (countersLe_of_eq fun _ => rfl)) trivial

/-- The last state of a growing step is not less than the first. -/
theorem countersLe_of_isChain_stepStates {w w' : World} {e : OffloadEvent} {os : List Obs}
    (hstep : offloadStep w e = some (w', os))
    (h : (w :: stepStates w e w').IsChain CountersLe) : CountersLe w w' := by
  have hpair : (w :: [w']).IsChain CountersLe → CountersLe w w' := fun hchain =>
    (List.isChain_cons_cons.mp hchain).1
  cases stepped_of_step hstep with
  | @aged portId aged _ =>
      cases aged with
      | none => exact hpair h
      | some reports => exact countersLe_of_isChain_batchStates _ h
  | ignored _ => exact hpair h
  | opened _ _ => exact hpair h
  | known _ => exact hpair h
  | dequeued _ => exact hpair h
  | engine _ _ => exact hpair h
  | traffic _ _ _ => exact hpair h
  | timeout _ => exact hpair h

/-! ### Runs -/

/-- Past the threshold, a flow that is not offloaded is wanted. -/
theorem wantsOffload_of_le {k : SmtoFlowKey} (h : pktAmountToOffload ≤ k.packetAmount)
    (hstatus : k.isOffload = .notOffload) : wantsOffload k = true := by
  have hon : (pktAmountToOffload != -1) = true := by decide
  simp only [wantsOffload, hon, hstatus, ge_iff_le, h, decide_true, beq_self_eq_true,
    Bool.and_self]

/-- **When counters only grow.**  Over any run: exactly when every frame of a known flow
and every counter of a timed-out rule is added without being cut. -/
theorem statisticsGrow_iff {w₀ w : World} {es : List OffloadEvent} {tr : List Obs}
    (hinit : offloadMachine.Init w₀) (hrun : offloadMachine.Run w₀ es tr w) :
    StatisticsGrow w₀ es w ↔ offloadMachine.RunWhile NoWrap w₀ es tr w := by
  have hstart : FlowInv w₀ ∧ UnopenedZero w₀ :=
    ⟨flowInv_of_init hinit, (accountInv_of_init hinit).unopened⟩
  have hkeep : ∀ {s e s' os}, FlowInv s ∧ UnopenedZero s → offloadStep s e = some (s', os) →
      FlowInv s' ∧ UnopenedZero s' := fun hs hstep =>
    ⟨flowInv_step hs.1 (stepped_of_step hstep),
      unopenedZero_step hs.1 hs.2 (stepped_of_step hstep)⟩
  have hiff : (∀ t e t', offloadMachine.Takes w₀ es t e t' →
      (t :: stepStates t e t').IsChain CountersLe) ↔ offloadMachine.RunWhile NoWrap w₀ es tr w :=
    Machine.run_forall_taken_iff hrun hstart hkeep
      fun hs hstep => isChain_stepStates_iff hs.1 hs.2 hstep
  refine ⟨fun h => hiff.mp h.steps, fun hguard => ?_⟩
  have hstrong := hguard.strengthen hstart fun hs _ hstep => hkeep hs hstep
  have hmono : ∀ t, offloadMachine.Visits w₀ es t → CountersLe t w := by
    intro t hvis
    refine hstrong.rel_of_visits CountersLe.refl CountersLe.trans ?_ hvis
    rintro s e s' os ⟨hs, hg⟩ hstep
    exact countersLe_of_isChain_stepStates hstep
      ((isChain_stepStates_iff hs.1 hs.2 hstep).mpr hg)
  refine ⟨hiff.mpr hguard, hmono, fun t hvis k hpast hstatus => ?_⟩
  exact wantsOffload_of_le (UInt32.le_trans hpast (hmono t hvis k).1) hstatus

instance (w : World) : DecidablePred (NoWrap w)
  | .packet _ m _ => inferInstanceAs (Decidable (supportedPacketType m.packetType = true →
      ∀ k ∈ w.flowHashMap.lookup (getIpv4_5tuple m ipv4Mask),
        Fits (w.keys k).counters (1, m.pktLen)))
  | .dequeueBurst => inferInstanceAs (Decidable True)
  | .flowEngine _ _ => inferInstanceAs (Decidable True)
  | .ageing portId aged => inferInstanceAs (Decidable (∀ reports ∈ aged, BatchFits w portId
      (reports.map fun report => (report, w.nic.owner report.flow))))
  | .traffic _ _ _ => inferInstanceAs (Decidable True)
  | .timeout _ => inferInstanceAs (Decidable True)

/-- A flow that is offloaded and aged. -/
theorem statisticsGrow_ageEvents :
    StatisticsGrow initialSingle ageEvents
      ((offloadMachine.exec initialSingle ageEvents).get ageRun_isSome).1 := by
  have hrun := Machine.run_exec_get ageRun_isSome
  exact (statisticsGrow_iff init_initialSingle hrun).mpr (hrun.runWhile (by decide +kernel))

/-- An offloaded flow of five packets forwards `2 ^ 32 - 5` more in the NIC, and its rule
times out. -/
def wrapEvents : List OffloadEvent :=
  offloadEvents ++ [.traffic 2 4294967291 429496729100, .timeout 2,
    .ageing 0 (some [⟨2, true, (0, 0), true⟩])]

theorem wrapRun_isSome : (offloadMachine.exec initialSingle wrapEvents).isSome = true := by
  decide +kernel

/-- **The packets of a flow wrap to zero**: after `2 ^ 32` packets it is below the threshold
again, and not eligible. -/
theorem not_statisticsGrow_wrapEvents :
    ∃ tr w, offloadMachine.Init initialSingle ∧
      offloadMachine.Run initialSingle wrapEvents tr w ∧
      (w.keys (.out 0)).packetAmount = 0 ∧ (w.keys (.out 0)).isOffload = .notOffload ∧
      ¬ StatisticsGrow initialSingle wrapEvents w := by
  have hrun := Machine.run_exec_get wrapRun_isSome
  refine ⟨_, _, init_initialSingle, hrun, by decide +kernel, by decide +kernel, fun h => ?_⟩
  have hoff := Machine.run_exec_get offloadRun_isSome
  have hvis : offloadMachine.Visits initialSingle wrapEvents
      ((offloadMachine.exec initialSingle offloadEvents).get offloadRun_isSome).1 :=
    ⟨offloadEvents, _, List.prefix_append _ _, hoff⟩
  have hless : ¬ (((offloadMachine.exec initialSingle offloadEvents).get
        offloadRun_isSome).1.keys (.out 0)).counters.1 ≤
      (((offloadMachine.exec initialSingle wrapEvents).get wrapRun_isSome).1.keys
        (.out 0)).counters.1 := by decide +kernel
  exact hless (h.monotone _ hvis (.out 0)).1

end SmartOffload
