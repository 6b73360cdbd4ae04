import SmartOffload.PlannedCalls

/-!
# Who works where

The launch loop of `init_smto` after a successful run: which functions the lcores were
launched with, and what the entries of `worker_params` hold.  The plan is that every
receive queue of every port in use has one packet worker, that there is one flow engine,
and that only entries of the array are written (`WorkerPlan`).

The admission check and the array count the workers of one port.  With one port the plan
comes out, whatever the number of queues and lcores; with two it never does
(`workerPlan_iff`).
-/

namespace SmartOffload

/-- A worker that was launched. -/
def InitEvent.launched : InitEvent → Option WorkerJob
  | .call (.rteEalRemoteLaunch _ job) true => some job
  | _ => none

/-- A write to `worker_params`. -/
def InitEvent.written : InitEvent → Option (ℕ × WorkerParameter)
  | .param index value => some (index, value)
  | _ => none

/-- What `worker_params` holds after some events. -/
def workerParams (es : List InitEvent) : ℕ → Option WorkerParameter :=
  (es.filterMap InitEvent.written).foldl
    (fun params w => Function.update params w.1 (some w.2)) fun _ => none

/-- The port and the queue a worker receives from. -/
def WorkerJob.serves (params : ℕ → Option WorkerParameter) : WorkerJob → Option WorkerParameter
  | .processLoop index => params index
  | .createFlowLoop => none

/-- The queues that are served, one entry for each packet worker. -/
def servedQueues (es : List InitEvent) : List WorkerParameter :=
  (es.filterMap InitEvent.launched).filterMap (WorkerJob.serves (workerParams es))

/-- **The plan.** -/
structure WorkerPlan (env : InitEnv) (es : List InitEvent) : Prop where
  queues : ∀ portId ∈ env.ports, ∀ queueId < env.queues,
    (servedQueues es).count ⟨portId, UInt16.ofNat queueId⟩ = 1
  engine : (es.filterMap InitEvent.launched).count .createFlowLoop = 1
  inBounds : ∀ w ∈ es.filterMap InitEvent.written, w.1 < env.queues

variable {env : InitEnv}

/-- What is written for the lcore with an index. -/
def workerParam (env : InitEnv) (index : ℕ) : Option WorkerParameter :=
  if index < env.queues then some ⟨env.port0, UInt16.ofNat index⟩
  else if env.mode = .doublePortMode ∧ index < 2 * env.queues then
    some ⟨env.port1, UInt16.ofNat (index - env.queues)⟩
  else none

/-! ### What the loop logs -/

theorem events_launchProcessLoop {lcoreId : UInt16} {index : ℕ} {param : WorkerParameter}
    (h : (launchProcessLoop env true lcoreId index param).Completes) :
    (launchProcessLoop env true lcoreId index param).events =
      [.param index param, .call (.rteEalRemoteLaunch lcoreId (.processLoop index)) true] := by
  obtain ⟨-, -, hlaunch, hevents⟩ := Procedure.exists_of_completes_bind h
  rw [launchProcessLoop, hevents, remoteLaunch, attemptCall,
    Procedure.events_of_completes_attempt hlaunch]
  rfl

/-- One lcore: its job, and its parameter. -/
theorem filterMap_launchWorker {lcoreId : UInt16} {index : ℕ}
    (h : (launchWorker env true lcoreId index).Completes) :
    (launchWorker env true lcoreId index).events.filterMap InitEvent.launched =
        (workerJob env index).toList ∧
      (launchWorker env true lcoreId index).events.filterMap InitEvent.written =
        ((workerParam env index).map (index, ·)).toList := by
  unfold workerJob workerParam
  unfold launchWorker at h ⊢
  split at h
  next hfirst =>
    simp only [if_pos hfirst, events_launchProcessLoop h]
    exact ⟨rfl, rfl⟩
  next hfirst =>
    simp only [if_neg hfirst]
    split at h
    next hsecond =>
      simp only [if_pos hsecond, events_launchProcessLoop h]
      exact ⟨rfl, rfl⟩
    next hsecond =>
      simp only [if_neg hsecond]
      split at h
      next hengine =>
        simp only [if_pos hengine, remoteLaunch, attemptCall]
        rw [Procedure.events_of_completes_attempt h]
        exact ⟨rfl, rfl⟩
      next hidle =>
        simp only [if_neg hidle]
        exact ⟨rfl, rfl⟩

/-- The step lemma, run over the lcores. -/
theorem filterMap_launchWorkers {lcores : List UInt16} :
    ∀ {index}, (launchWorkers env true lcores index).Completes →
      (launchWorkers env true lcores index).events.filterMap InitEvent.launched =
          (List.range' index lcores.length).filterMap (workerJob env) ∧
        (launchWorkers env true lcores index).events.filterMap InitEvent.written =
          (List.range' index lcores.length).filterMap
            fun i => (workerParam env i).map (i, ·) := by
  induction lcores with
  | nil => exact fun _ => ⟨rfl, rfl⟩
  | cons lcoreId rest ih =>
      intro index h
      obtain ⟨a, ha, hrest, hevents⟩ := Procedure.exists_of_completes_bind h
      obtain ⟨hjob, hparam⟩ := filterMap_launchWorker ⟨a, ha⟩
      obtain ⟨hjobs, hparams⟩ := ih hrest
      rw [launchWorkers, hevents, List.length_cons, List.range'_succ, List.filterMap_append,
        List.filterMap_append, hjob, hparam, hjobs, hparams]
      constructor
      · cases hw : workerJob env index <;> simp [hw]
      · cases hw : workerParam env index <;> simp [hw]

/-- Nothing of this happens before the loop. -/
theorem setupEvents_idle :
    SetupEvents env fun e => e.launched = none ∧ e.written = none := by
  refine ⟨fun c hc => ⟨?_, rfl⟩, fun _ => ⟨rfl, rfl⟩, rfl, rfl⟩
  cases c with
  | rteEalRemoteLaunch lcoreId job => exact absurd rfl (hc lcoreId job)
  | _ => rfl

/-- The log of a successful run ends with the launch loop. -/
theorem exists_initSmto_events (h : (initSmto env).1 = .returned (.code .success)) :
    (launchWorkers env true env.lcores 0).Completes ∧
      ∃ es, (∀ e ∈ es, e.launched = none ∧ e.written = none) ∧
        (initSmto env).2 = es ++ (launchWorkers env true env.lcores 0).events := by
  obtain ⟨hearly, hall⟩ := initSmto_success_iff.mp h
  have hparams : env.succeeds .callocWorkerParams = true :=
    hall _ (List.mem_append_right _ (List.mem_append_right _ List.mem_cons_self))
  have hcompletes := (spec_initSmtoRest hearly startEvents_true).completes_iff.mpr hall
  have hend : (initSmto env).2 = (initSmtoBody env).events := by
    rcases initSmto_of_not_failsEarly hearly with ⟨-, hend⟩ | ⟨hno, -⟩
    · rw [hend]
    · exact absurd hcompletes hno
  -- the parts of the straight line, one after the other
  obtain ⟨-, -, htables, hports⟩ := Procedure.exists_of_completes_bind hcompletes
  obtain ⟨-, -, hstart, htables⟩ := Procedure.exists_of_completes_bind htables
  rw [startWorkers, hparams] at hstart htables
  obtain ⟨-, -, hloop, hstart⟩ := Procedure.exists_of_completes_bind hstart
  refine ⟨hloop, .call .callocControlBlock true :: .call .rtePktmbufPoolCreate true ::
    ((configurePorts env).events ++ ((createTables env).events ++
      [.call .callocWorkerParams true])), ?_, ?_⟩
  · simp only [List.forall_mem_cons, List.forall_mem_append]
    exact ⟨⟨rfl, rfl⟩, ⟨rfl, rfl⟩, (spec_configurePorts setupEvents_idle).allEvents,
      (spec_createTables setupEvents_idle).allEvents, ⟨rfl, rfl⟩, fun _ he => by cases he⟩
  · rw [hend, initSmtoBody_of_not_failsEarly hearly, initSmtoRest, hports, startWorkers, hparams,
      htables, hstart]
    simp only [List.cons_append, List.append_assoc]
    rfl

/-- **The log of a successful run**: what was launched, and what was written. -/
theorem filterMap_initSmto (h : (initSmto env).1 = .returned (.code .success)) :
    (initSmto env).2.filterMap InitEvent.launched =
        (List.range env.lcores.length).filterMap (workerJob env) ∧
      (initSmto env).2.filterMap InitEvent.written =
        (List.range env.lcores.length).filterMap
          fun i => (workerParam env i).map (i, ·) := by
  obtain ⟨hloop, es, hes, hevents⟩ := exists_initSmto_events h
  obtain ⟨hjobs, hparams⟩ := filterMap_launchWorkers hloop
  rw [hevents, List.filterMap_append, List.filterMap_append, hjobs, hparams,
    List.filterMap_eq_nil_iff.mpr fun e he => (hes e he).1,
    List.filterMap_eq_nil_iff.mpr fun e he => (hes e he).2, List.range_eq_range']
  exact ⟨rfl, rfl⟩

/-! ### The two modes -/

/-- An accepted number of lcores has one for every queue and one for the engine. -/
theorem queues_lt_length (h : ¬ env.FailsEarly) : env.queues < env.lcores.length := by
  by_contra hle
  refine h (Or.inr (Or.inl ?_))
  rw [InitEnv.rteLcoreCount]
  omega

/-- Port and queue numbers are 16-bit, and there are fewer queues than lcores. -/
theorem length_lcores_le (env : InitEnv) : env.lcores.length ≤ UInt16.size := by
  have hnodup : (env.lcores.map UInt16.toNat).Nodup :=
    env.lcores_nodup.map fun _ _ => UInt16.toNat_inj.mp
  have hsub : env.lcores.map UInt16.toNat ⊆ List.range UInt16.size := by
    intro n hn
    obtain ⟨lcoreId, -, rfl⟩ := List.mem_map.mp hn
    exact List.mem_range.mpr lcoreId.toNat_lt
  have hle := (List.subperm_of_subset hnodup hsub).length_le
  rwa [List.length_map, List.length_range] at hle

/-- A range, split at the number of queues: the queues, the next index, and the rest. -/
theorem filterMap_range_split {β : Type} {f : ℕ → Option β} {g : ℕ → β} {q n : ℕ}
    (hlt : q < n) (hqueues : ∀ i < q, f i = some (g i)) (hrest : ∀ i, q < i → f i = none) :
    (List.range n).filterMap f = (List.range q).map g ++ (f q).toList := by
  obtain ⟨r, rfl⟩ := Nat.exists_eq_add_of_lt hlt
  have hfront : (List.range q).filterMap f = (List.range q).map g := by
    rw [← List.filterMap_eq_map]
    exact List.filterMap_congr fun i hi => hqueues i (List.mem_range.mp hi)
  have hback : ((List.range r).map (q + 1 + ·)).filterMap f = [] := by
    rw [List.filterMap_eq_nil_iff]
    intro i hi
    obtain ⟨j, -, rfl⟩ := List.mem_map.mp hi
    exact hrest _ (by omega)
  rw [Nat.add_right_comm, List.range_add, List.filterMap_append, hback, List.append_nil,
    List.range_succ, List.filterMap_append, hfront]
  cases hq : f q <;> simp [hq]

/-- Entries written in turn hold what was written. -/
theorem foldl_update_range {β : Type} (g : ℕ → β) (q i : ℕ) :
    ((List.range q).map fun i => (i, g i)).foldl
        (fun (params : ℕ → Option β) w => Function.update params w.1 (some w.2))
        (fun _ => none) i =
      if i < q then some (g i) else none := by
  induction q with
  | zero => simp
  | succ q ih =>
      rw [List.range_succ, List.map_append, List.foldl_append]
      by_cases heq : i = q
      · subst heq
        simp
      · have hlt : i < q + 1 ↔ i < q := by omega
        simp [Function.update_of_ne heq, ih, hlt]

section

variable (h : (initSmto env).1 = .returned (.code .success)) (hmode : env.mode = .singlePortMode)
include h hmode

/-- With one port the first lcores serve the queues and the next one is the engine. -/
theorem launched_of_single : (initSmto env).2.filterMap InitEvent.launched =
    (List.range env.queues).map .processLoop ++ [.createFlowLoop] := by
  have hjob : ∀ i, workerJob env i = if i < env.queues then some (.processLoop i)
      else if i = env.queues then some .createFlowLoop else none := by
    intro i
    simp [workerJob, hmode]
  have hlt := queues_lt_length (initSmto_success_iff.mp h).1
  rw [(filterMap_initSmto h).1, filterMap_range_split (g := WorkerJob.processLoop) hlt, hjob,
    if_neg (lt_irrefl _), if_pos rfl]
  · rfl
  · exact fun i hi => by rw [hjob, if_pos hi]
  · exact fun i hi => by rw [hjob, if_neg (lt_asymm hi), if_neg hi.ne']

theorem written_of_single : (initSmto env).2.filterMap InitEvent.written =
    (List.range env.queues).map fun i => (i, ⟨env.port0, UInt16.ofNat i⟩) := by
  have hparam : ∀ i, workerParam env i =
      if i < env.queues then some ⟨env.port0, UInt16.ofNat i⟩ else none := by
    intro i
    simp [workerParam, hmode]
  have hlt := queues_lt_length (initSmto_success_iff.mp h).1
  rw [(filterMap_initSmto h).2, filterMap_range_split
    (g := fun i => (i, (⟨env.port0, UInt16.ofNat i⟩ : WorkerParameter))) hlt, hparam,
    if_neg (lt_irrefl _)]
  · exact List.append_nil _
  · exact fun i hi => by rw [hparam, if_pos hi]; rfl
  · exact fun i hi => by rw [hparam, if_neg (lt_asymm hi)]; rfl

/-- Each packet worker finds its own queue in its parameter. -/
theorem servedQueues_of_single : servedQueues (initSmto env).2 =
    (List.range env.queues).map fun i => ⟨env.port0, UInt16.ofNat i⟩ := by
  have hparams : ∀ i < env.queues, workerParams (initSmto env).2 i =
      some ⟨env.port0, UInt16.ofNat i⟩ := by
    intro i hi
    rw [workerParams, written_of_single h hmode, foldl_update_range
      (fun i => (⟨env.port0, UInt16.ofNat i⟩ : WorkerParameter)), if_pos hi]
  rw [servedQueues, launched_of_single h hmode, List.filterMap_append, List.filterMap_map,
    ← List.filterMap_eq_map]
  refine (List.append_nil _).trans (List.filterMap_congr fun i hi => ?_)
  exact hparams i (List.mem_range.mp hi)

/-- **With one port** the plan comes out. -/
theorem workerPlan_of_single : WorkerPlan env (initSmto env).2 := by
  have hlt := queues_lt_length (initSmto_success_iff.mp h).1
  have hsize := length_lcores_le env
  constructor
  · intro portId hport queueId hqueue
    obtain rfl : portId = env.port0 := by simpa [InitEnv.ports, hmode] using hport
    rw [servedQueues_of_single h hmode]
    refine List.count_eq_one_of_mem ?_ (List.mem_map.mpr ⟨queueId, List.mem_range.mpr hqueue, rfl⟩)
    refine List.nodup_range.map_on fun i hi j hj heq => ?_
    have hi' := List.mem_range.mp hi
    have hj' := List.mem_range.mp hj
    have hnat := congrArg UInt16.toNat (WorkerParameter.mk.inj heq).2
    rwa [UInt16.toNat_ofNat_of_lt' (by omega), UInt16.toNat_ofNat_of_lt' (by omega)] at hnat
  · rw [launched_of_single h hmode, List.count_append, List.count_eq_zero.mpr]
    · rfl
    · intro hmem
      obtain ⟨i, -, heq⟩ := List.mem_map.mp hmem
      cases heq
  · rw [written_of_single h hmode]
    intro w hw
    obtain ⟨i, hi, rfl⟩ := List.mem_map.mp hw
    exact List.mem_range.mp hi

end

/-- **With two ports** the second packet worker is already beyond the array. -/
theorem not_workerPlan_of_double (h : (initSmto env).1 = .returned (.code .success))
    (hmode : env.mode = .doublePortMode) : ¬ WorkerPlan env (initSmto env).2 := by
  intro hplan
  obtain ⟨-, hparams⟩ := filterMap_initSmto h
  have hlt := queues_lt_length (initSmto_success_iff.mp h).1
  have hpos := env.queues_pos
  have hmem : (env.queues, (⟨env.port1, UInt16.ofNat 0⟩ : WorkerParameter)) ∈
      (initSmto env).2.filterMap InitEvent.written := by
    rw [hparams, List.mem_filterMap]
    refine ⟨env.queues, List.mem_range.mpr hlt, ?_⟩
    rw [workerParam, if_neg (lt_irrefl _), if_pos ⟨hmode, by omega⟩, Nat.sub_self]
    rfl
  exact lt_irrefl _ (hplan.inBounds _ hmem)

/-- **When the worker plan comes out**: for any number of queues and lcores that
`init_smto` starts with, exactly when it uses one port. -/
theorem workerPlan_iff (h : (initSmto env).1 = .returned (.code .success)) :
    WorkerPlan env (initSmto env).2 ↔ env.mode = .singlePortMode := by
  refine ⟨fun hplan => ?_, workerPlan_of_single h⟩
  cases hmode : env.mode with
  | singlePortMode => rfl
  | doublePortMode => exact absurd hplan (not_workerPlan_of_double h hmode)

/-- One port, one queue, three lcores. -/
theorem workerPlan_onePort :
    WorkerPlan (threeLcoresEnv 1 fun _ => true) (initSmto (threeLcoresEnv 1 fun _ => true)).2 :=
  (workerPlan_iff (initSmto_threeLcoresEnv 1 (by decide))).mpr (by decide)

/-- **Two ports**, one queue, three lcores: `init_smto` succeeds, with a packet worker for
each port and no flow engine. -/
theorem not_workerPlan_twoPorts :
    (initSmto (threeLcoresEnv 2 fun _ => true)).1 = .returned (.code .success) ∧
      ¬ WorkerPlan (threeLcoresEnv 2 fun _ => true)
        (initSmto (threeLcoresEnv 2 fun _ => true)).2 := by
  have hsuccess := initSmto_threeLcoresEnv 2 (by decide)
  exact ⟨hsuccess, not_workerPlan_of_double hsuccess (by decide)⟩

end SmartOffload
