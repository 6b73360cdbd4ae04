import SmartOffload.PlannedCalls

/-!
# `init_smto` as a transaction

What the calls of `init_smto` acquire and what its cleanup releases, as a ledger
(`initLedger`).  All or nothing is: on success every configuration step of the ports in
use was made and succeeded; on an error the ledger is balanced, and nothing was released
while a launched worker could still use it.

No label releases the memory pool, so from there on an error is never balanced
(`not_balanced_of_mbufPool`); and a failure of `init_port` does not even end in an error.
-/

namespace SmartOffload

/-- What a call acquires where it succeeds. -/
def InitCall.acquires : InitCall → Option Resource
  | .callocControlBlock => some .controlBlock
  | .rtePktmbufPoolCreate => some .mbufPool
  | .rteEthDevStart portId => some (.startedPort portId)
  | .rteEthHairpinBind txPort rxPort => some (.hairpinBinding txPort rxPort)
  | .createDefaultJumpFlow portId => some (.jumpFlow portId)
  | .createDefaultRssFlow portId => some (.rssFlow portId)
  | .rteHashCreate => some .hashTable
  | .rteCalloc ring => some (.ring ring)
  | .registerAgedEvent portId => some (.agedCallback portId)
  | .callocWorkerParams => some .workerParams
  | .rteEalRemoteLaunch lcoreId _ => some (.worker lcoreId)
  | _ => none

/-- What a call releases where it succeeds: `rte_flow_flush` all rules of its port. -/
def InitCall.releases (held : List Resource) : InitCall → List Resource
  | .unregisterAgedEvent portId => [.agedCallback portId]
  | .rteFlowFlush portId =>
      held.filter fun r => r = .jumpFlow portId ∨ r = .rssFlow portId
  | _ => []

/-- A launched worker. -/
def Resource.isWorker : Resource → Bool
  | .worker _ => true
  | _ => false

/-- The ledger entries of an event; `rte_eal_mp_wait_lcore` waits for all workers. -/
def InitEvent.entries (held : List Resource) : InitEvent → List (LedgerEntry Resource)
  | .call c true => c.acquires.toList.map .acquire ++ (c.releases held).map .release
  | .call _ false => []
  | .param _ _ => []
  | .running _ => []
  | .free r => [.release r]
  | .waitLcore => (held.filter Resource.isWorker).map .release

/-- **The ledger** of a log. -/
def initLedger (held : List Resource) : List InitEvent → List (LedgerEntry Resource)
  | [] => []
  | e :: es =>
      e.entries held ++ initLedger ((Ledger.replay held (e.entries held)).getD held) es

/-- What the workers use: everything but the callback and themselves. -/
def Resource.usedByWorkers : Resource → Bool
  | .agedCallback _ => false
  | .worker _ => false
  | _ => true

/-- Nothing the workers use is released while one of them is running. -/
def ReleasedIdle (held : List Resource) : List (LedgerEntry Resource) → Prop
  | [] => True
  | .acquire r :: es => ReleasedIdle (r :: held) es
  | .release r :: es =>
      (r.usedByWorkers = true → ∀ r' ∈ held, r'.isWorker = false) ∧ ReleasedIdle (held.erase r) es

/-- **All or nothing.**  A run that does not return is neither. -/
def AllOrNothing (env : InitEnv) : Prop :=
  match (initSmto env).1 with
  | .returned ret =>
      if ret = .code .success then ∀ c ∈ configCalls env, .call c true ∈ (initSmto env).2
      else Ledger.Balanced (initLedger [] (initSmto env).2) ∧
        ReleasedIdle [] (initLedger [] (initSmto env).2)
  | _ => False

variable {env : InitEnv} {held : List Resource} {es : List InitEvent}

/-! ### The memory pool -/

/-- A call that acquires the pool does so in the ledger. -/
theorem mem_initLedger_of_acquires {c : InitCall} {r : Resource} (hc : c.acquires = some r) :
    ∀ {held}, .call c true ∈ es → .acquire r ∈ initLedger held es := by
  induction es with
  | nil => exact fun hmem => by cases hmem
  | cons e es ih =>
      intro held hmem
      rw [initLedger, List.mem_append]
      rcases List.mem_cons.mp hmem with rfl | hmem
      · exact Or.inl (by simp [InitEvent.entries, hc])
      · exact Or.inr (ih hmem)

/-- No call releases the pool. -/
theorem mbufPool_notMem_releases (held : List Resource) (c : InitCall) :
    .mbufPool ∉ c.releases held := by
  intro h
  cases c with
  | unregisterAgedEvent portId => cases List.mem_singleton.mp h
  | rteFlowFlush portId =>
      rcases of_decide_eq_true (List.mem_filter.mp h).2 with heq | heq <;> cases heq
  | _ => exact List.not_mem_nil h

/-- Only `free` releases the pool. -/
theorem free_of_mem_entries {e : InitEvent} (h : .release .mbufPool ∈ e.entries held) :
    e = .free .mbufPool := by
  cases e with
  | call c ok =>
      cases ok with
      | true =>
          rcases List.mem_append.mp h with h | h
          · obtain ⟨r, -, heq⟩ := List.mem_map.mp h
            cases heq
          · obtain ⟨r, hr, heq⟩ := List.mem_map.mp h
            obtain rfl := LedgerEntry.release.inj heq
            exact absurd hr (mbufPool_notMem_releases held c)
      | false => exact absurd h List.not_mem_nil
  | param index value => exact absurd h List.not_mem_nil
  | running b => exact absurd h List.not_mem_nil
  | free r => rw [LedgerEntry.release.inj (List.mem_singleton.mp h)]
  | waitLcore =>
      obtain ⟨r, hr, heq⟩ := List.mem_map.mp h
      obtain rfl := LedgerEntry.release.inj heq
      cases (List.mem_filter.mp hr).2

theorem free_of_mem_initLedger :
    ∀ {held}, .release .mbufPool ∈ initLedger held es → .free .mbufPool ∈ es := by
  induction es with
  | nil => exact fun hmem => by cases hmem
  | cons e es ih =>
      intro held hmem
      rcases List.mem_append.mp hmem with hmem | hmem
      · exact free_of_mem_entries hmem ▸ List.mem_cons_self
      · exact List.mem_cons_of_mem _ (ih hmem)

/-- **The pool leaks**: a log that acquires it and never frees it is not balanced. -/
theorem not_balanced_of_mbufPool (hpool : .call .rtePktmbufPoolCreate true ∈ es)
    (hfree : .free .mbufPool ∉ es) : ¬ Ledger.Balanced (initLedger [] es) := by
  intro hbalanced
  have hacquire : 0 < (initLedger [] es).count (.acquire .mbufPool) :=
    List.count_pos_iff.mpr (mem_initLedger_of_acquires rfl hpool)
  have hrelease : (initLedger [] es).count (.release .mbufPool) = 0 :=
    List.count_eq_zero.mpr fun hmem => hfree (free_of_mem_initLedger hmem)
  rw [hbalanced.count_eq, hrelease] at hacquire
  exact absurd hacquire (lt_irrefl 0)

/-- Before the cleanup nothing frees the pool. -/
theorem startEvents_not_free : StartEvents env (· ≠ .free .mbufPool) :=
  ⟨⟨nofun, nofun, nofun⟩, nofun, nofun⟩

/-- Nor does the cleanup. -/
theorem free_mbufPool_notMem_cleanup (launched : Bool) (label : Label) :
    .free .mbufPool ∉ (cleanup env launched label).events := fun hmem => by
  have hevents := mem_cleanupEvents launched label _ hmem
  simp [cleanupEvents] at hevents

/-- **An error past the checks is not balanced**, whatever its label. -/
theorem not_balanced_of_not_failsEarly (h : ¬ env.FailsEarly) (launched : Bool) (label : Label) :
    ¬ Ledger.Balanced (initLedger []
      ((initSmtoBody env).events ++ (cleanup env launched label).events)) := by
  refine not_balanced_of_mbufPool ?_ fun hmem => ?_
  · rw [initSmtoBody_of_not_failsEarly h]
    exact List.mem_append_left _ (List.mem_cons_of_mem _ List.mem_cons_self)
  · rcases List.mem_append.mp hmem with hmem | hmem
    · rw [initSmtoBody_of_not_failsEarly h] at hmem
      have hrest : .free .mbufPool ∈ (initSmtoRest env).events := by simpa using hmem
      exact (spec_initSmtoRest h startEvents_not_free).allEvents _ hrest rfl
    · exact free_mbufPool_notMem_cleanup launched label hmem

/-! ### Success -/

/-- A logged call turned out as the environment decides. -/
def InitEvent.Honest (env : InitEnv) : InitEvent → Prop
  | .call c ok => ok = env.succeeds c
  | _ => True

theorem startEvents_honest : StartEvents env (InitEvent.Honest env) :=
  ⟨⟨fun _ _ => rfl, fun _ => trivial, trivial⟩, fun _ _ => rfl, fun _ _ => trivial⟩

/-- The calls of `init_port` are logged for every port in use. -/
theorem initPort_events_subset {portId : UInt16} (h : portId ∈ env.ports) :
    (initPort env portId).events ⊆ (configurePorts env).events := by
  unfold configurePorts
  unfold InitEnv.ports at h
  cases hmode : env.mode with
  | singlePortMode =>
      rw [hmode] at h
      obtain rfl := List.mem_singleton.mp h
      exact Procedure.events_subset_bind (initPort env env.port0).result _
  | doublePortMode =>
      rw [hmode] at h
      rcases List.mem_pair.mp h with rfl | rfl
      · exact Procedure.events_subset_bind (initPort env env.port0).result _
      · refine List.Subset.trans ?_ (Procedure.events_subset_bind_right rfl)
        exact Procedure.events_subset_bind (initPort env env.port1).result _

/-- Where every call succeeds, every configuration step is logged as a success. -/
theorem call_mem_of_planned (h : ¬ env.FailsEarly)
    (hall : ∀ c ∈ plannedCalls env, env.succeeds c = true) {c : InitCall}
    (hc : c ∈ configCalls env) : .call c true ∈ (initSmtoBody env).events := by
  have hP : SetupEvents env fun _ => True := startEvents_true.toSetupEvents
  rw [initSmtoBody_of_not_failsEarly h]
  refine List.mem_cons_of_mem _ (List.mem_cons_of_mem _ ?_)
  refine Procedure.events_subset_bind (configurePorts env) _ ?_
  rcases List.mem_append.mp hc with hc | hc
  · obtain ⟨portId, hport, hc⟩ := List.mem_flatMap.mp hc
    have hport_all : ∀ c ∈ initPortCalls env portId, env.succeeds c = true := fun c hc =>
      hall c (List.mem_append_left _ (List.mem_append_left _
        (List.mem_flatMap.mpr ⟨portId, hport, hc⟩)))
    have hspec := spec_initPort hP portId
    exact initPort_events_subset hport (hspec.logged (hspec.completes_iff.mpr hport_all) c hc)
  · have hchecked : ∀ c ∈ checkedPortCalls env, env.succeeds c = true := fun c hc =>
      hall c (List.mem_append_left _ (List.mem_append_right _ hc))
    have hspec := spec_configurePorts hP
    exact hspec.logged (hspec.completes_iff.mpr hchecked) c hc

/-- A call that is logged as a success succeeds. -/
theorem succeeds_of_call_mem (h : ¬ env.FailsEarly) {c : InitCall}
    (hmem : .call c true ∈ (initSmtoBody env).events) : env.succeeds c = true := by
  have hlogged := (spec_initSmtoRest h startEvents_honest).allEvents
  rw [initSmtoBody_of_not_failsEarly h] at hmem
  simp only [InitEnv.FailsEarly, not_or, Bool.not_eq_false] at h
  rcases List.mem_cons.mp hmem with heq | hmem
  · exact (InitEvent.call.inj heq).1 ▸ h.1
  · rcases List.mem_cons.mp hmem with heq | hmem
    · exact (InitEvent.call.inj heq).1 ▸ h.2.2.2
    · exact (hlogged _ hmem).symm

/-- **When `init_smto` is all or nothing**: where it gives up before it has the memory pool,
or every call it plans succeeds. -/
theorem allOrNothing_iff (env : InitEnv) :
    AllOrNothing env ↔ env.FailsEarly ∨ ∀ c ∈ plannedCalls env, env.succeeds c = true := by
  by_cases hearly : env.FailsEarly
  · refine iff_of_true ?_ (Or.inl hearly)
    obtain ⟨ret, hret, hend⟩ := initSmto_of_failsEarly hearly
    rcases hend with hend | ⟨es, hes, hend⟩
    · simp only [AllOrNothing, hend, if_neg hret]
      exact ⟨rfl, trivial⟩
    · simp only [AllOrNothing, hend, if_neg hret]
      -- the control block is acquired and released, with no worker in between
      rcases hes with rfl | rfl
      · exact ⟨rfl, fun _ => List.forall_mem_singleton.mpr rfl, trivial⟩
      · exact ⟨rfl, fun _ => List.forall_mem_singleton.mpr rfl, trivial⟩
  · rw [or_iff_right hearly]
    have hiff := (spec_initSmtoRest hearly startEvents_true).completes_iff
    rcases initSmto_of_not_failsEarly hearly with ⟨hcompletes, hend⟩ | ⟨hno, hend⟩
    · -- it succeeds: what is left are the calls of `init_port`
      have hchecked := hiff.mp hcompletes
      simp only [AllOrNothing, hend, if_true]
      constructor
      · intro hlogged c hc
        rcases List.mem_append.mp hc with hc | hc
        · exact succeeds_of_call_mem hearly (hlogged c hc)
        · exact hchecked c (List.mem_append_right _ hc)
      · exact fun hall c hc => call_mem_of_planned hearly hall hc
    · refine iff_of_false (fun hatomic => ?_) fun hall => hno (hiff.mpr fun c hc => ?_)
      · rcases hend with hno | ⟨ret, launched, label, hret, hend⟩
        · unfold AllOrNothing at hatomic
          split at hatomic
          next ret heq => exact hno ret heq
          · exact hatomic
        · simp only [AllOrNothing, hend, if_neg hret] at hatomic
          exact not_balanced_of_not_failsEarly hearly launched label hatomic.1
      · rcases List.mem_append.mp hc with hc | hc
        · exact hall c (List.mem_append_left _ (List.mem_append_right _ hc))
        · exact hall c (List.mem_append_right _ hc)

/-- **The pool leaks.**  Where the default jump rule is not created, `init_smto` returns
`SMTO_ERROR_FLOW_CREATE` and neither frees the memory pool nor stops the port. -/
theorem not_allOrNothing_jumpFlow :
    (initSmto (threeLcoresEnv 1 fun c => c ≠ .createDefaultJumpFlow 0)).1 =
        .returned (.code .flowCreate) ∧
      ¬ AllOrNothing (threeLcoresEnv 1 fun c => c ≠ .createDefaultJumpFlow 0) := by
  have hret : (initSmto (threeLcoresEnv 1 fun c => c ≠ .createDefaultJumpFlow 0)).1 =
      .returned (.code .flowCreate) := by decide +kernel
  refine ⟨hret, fun h => ?_⟩
  simp only [AllOrNothing, hret] at h
  exact absurd h.1 (by decide +kernel)

end SmartOffload
