import SmartOffload.Initialization

/-!
# The calls of `init_smto`

The calls a run of `init_smto` makes where nothing fails (`plannedCalls`), and that each
part of the code carries its share of them out, but for the results that are dropped
(`initSmto_success_iff`).  Each part has one specification, with what it logs: it holds
for every predicate on events that the calls of the part meet (`SetupEvents`).
-/

namespace SmartOffload

variable (env : InitEnv)

/-! ### The calls of a run without failures -/

/-- The calls of `init_port`. -/
def initPortCalls (portId : UInt16) : List InitCall :=
  .rteEthDevInfoGet portId :: .rteEthDevConfigure portId ::
    ((List.range env.queues).map (.rteEthRxQueueSetup portId) ++
      ((List.range env.queues).map (.rteEthTxQueueSetup portId) ++
        [.rteEthPromiscuousEnable portId]))

/-- The calls of `setup_hairpin_queues`. -/
def hairpinCalls (portId peerPortId : UInt16) : List InitCall :=
  [.rteEthTxHairpinQueueSetup portId peerPortId, .rteEthRxHairpinQueueSetup peerPortId portId]

/-- The ports in use. -/
def InitEnv.ports : List UInt16 :=
  match env.mode with
  | .singlePortMode => [env.port0]
  | .doublePortMode => [env.port0, env.port1]

/-- The calls on the ports whose results are checked. -/
def checkedPortCalls : List InitCall :=
  match env.mode with
  | .singlePortMode => hairpinCalls env.port0 env.port0 ++
      [.rteEthDevStart env.port0, .assertLinkStatus env.port0]
  | .doublePortMode => (hairpinCalls env.port0 env.port1 ++ hairpinCalls env.port1 env.port0) ++
      [.rteEthDevStart env.port0, .rteEthDevStart env.port1,
        .rteEthHairpinBind env.port0 env.port1, .rteEthHairpinBind env.port1 env.port0]

/-- **The configuration steps** of the ports in use. -/
def configCalls : List InitCall := env.ports.flatMap (initPortCalls env) ++ checkedPortCalls env

/-- The calls for a ring. -/
def ringCalls (ring : SmtoRing) : List InitCall := [.rteCalloc ring, .rteRingInit ring]

/-- The calls of `createTables`. -/
def tableCalls : List InitCall :=
  .createDefaultJumpFlow env.port0 :: .createDefaultRssFlow env.port0 :: .rteHashCreate ::
    (ringCalls .flowRulesRing ++ (ringCalls .portPool ++
      ((List.range' 1 (maxHashEntries - 1)).map .rteRingEnqueue ++
        [.registerAgedEvent env.port0])))

/-- What the lcore with an index is launched with. -/
def workerJob (index : ℕ) : Option WorkerJob :=
  if index < env.queues then some (.processLoop index)
  else if env.mode = .doublePortMode ∧ index < 2 * env.queues then some (.processLoop index)
  else if (env.mode = .singlePortMode ∧ index = env.queues) ∨
      (env.mode = .doublePortMode ∧ index = env.queues * 2) then some .createFlowLoop
  else none

/-- The launches, from an index on. -/
def launchCalls : List UInt16 → ℕ → List InitCall
  | [], _ => []
  | lcoreId :: rest, index =>
      (workerJob env index).toList.map (.rteEalRemoteLaunch lcoreId) ++ launchCalls rest (index + 1)

/-- The calls of `startWorkers`. -/
def startCalls : List InitCall := .callocWorkerParams :: launchCalls env env.lcores 0

/-- Every call from the memory pool on. -/
def plannedCalls : List InitCall := configCalls env ++ (tableCalls env ++ startCalls env)

variable {env}

/-! ### What the parts do -/

/-- What a predicate on events has to hold of before the workers: the calls but for
launches, a ring that is freed, and `is_running`. -/
structure SetupEvents (env : InitEnv) (P : InitEvent → Prop) : Prop where
  call : ∀ c, (∀ lcoreId job, c ≠ .rteEalRemoteLaunch lcoreId job) →
    P (.call c (env.succeeds c))
  free : ∀ ring, P (.free (.ring ring))
  running : P (.running true)

/-- With the workers, of launches and writes to `worker_params`, too. -/
structure StartEvents (env : InitEnv) (P : InitEvent → Prop) : Prop extends
    SetupEvents env P where
  launch : ∀ lcoreId job, P (.call (.rteEalRemoteLaunch lcoreId job)
    (env.succeeds (.rteEalRemoteLaunch lcoreId job)))
  param : ∀ index value, P (.param index value)

/-- Past the checks every failure is an error and a label, or a crash. -/
def InitStop.Fails : InitStop → Prop
  | .returned _ => False
  | .goto ret _ => ret ≠ .code .success
  | .crashed => True

section

variable {P : InitEvent → Prop} (hP : SetupEvents env P)
include hP

theorem spec_attemptCall {J : Type} {Q : J → Prop} {c : InitCall} {j : J}
    (hc : ∀ lcoreId job, c ≠ .rteEalRemoteLaunch lcoreId job) (hj : Q j) :
    (attemptCall env c j).Spec env.succeeds InitEvent.call P Q [c] :=
  .attempt (hP.call c hc) hj

theorem spec_forM_attemptCall {J : Type} {Q : J → Prop} (l : List ℕ) {call : ℕ → InitCall}
    {j : J} (hc : ∀ i lcoreId job, call i ≠ .rteEalRemoteLaunch lcoreId job) (hj : Q j) :
    (l.forM fun i => attemptCall env (call i) j).Spec env.succeeds InitEvent.call P Q
      (l.map call) := by
  rw [List.map_eq_flatMap]
  exact .forM fun i => spec_attemptCall hP (hc i) hj

theorem spec_initPort (portId : UInt16) :
    (initPort env portId).Spec env.succeeds InitEvent.call P (fun _ => True)
      (initPortCalls env portId) := by
  refine .bind (spec_attemptCall hP (by nofun) trivial) fun _ => ?_
  refine .bind (spec_attemptCall hP (by nofun) trivial) fun _ => ?_
  refine .bind (spec_forM_attemptCall hP _ (by nofun) trivial) fun _ => ?_
  refine .bind (spec_forM_attemptCall hP _ (by nofun) trivial) fun _ => ?_
  exact spec_attemptCall hP (by nofun) trivial

theorem spec_setupHairpinQueues (portId peerPortId : UInt16) :
    ((setupHairpinQueues env portId peerPortId).mapJump fun _ => .code .hairpinSetup).Spec
      env.succeeds InitEvent.call P (· ≠ InitRet.code .success)
      (hairpinCalls portId peerPortId) := by
  have hqueues : (setupHairpinQueues env portId peerPortId).Spec env.succeeds InitEvent.call P
      (fun _ => True) (hairpinCalls portId peerPortId) :=
    .bind (spec_attemptCall hP (by nofun) trivial) fun _ => spec_attemptCall hP (by nofun) trivial
  exact hqueues.mapJump fun _ _ => nofun

theorem spec_setupTwoPortHairpin (portId peerPortId : UInt16) :
    (setupTwoPortHairpin env portId peerPortId).Spec env.succeeds InitEvent.call P
      (· ≠ InitRet.code .success)
      (hairpinCalls portId peerPortId ++ hairpinCalls peerPortId portId) :=
  .bind (spec_setupHairpinQueues hP portId peerPortId) fun _ =>
    spec_setupHairpinQueues hP peerPortId portId

/-- **The ports.**  Whether `init_port` completes makes no difference. -/
theorem spec_configurePorts :
    (configurePorts env).Spec env.succeeds InitEvent.call P InitStop.Fails
      (checkedPortCalls env) := by
  have hport : ∀ portId, ((initPort env portId).result : Procedure InitStop _ _).Spec
      env.succeeds InitEvent.call P InitStop.Fails [] :=
    fun portId => .result (spec_initPort hP portId).allEvents
  unfold configurePorts checkedPortCalls
  cases env.mode with
  | singlePortMode =>
      refine .after (hport _) fun _ => ?_
      refine .bind ((spec_setupHairpinQueues hP _ _).mapJump fun _ hret => hret) fun _ => ?_
      refine .bind (spec_attemptCall hP (by nofun) nofun) fun _ => ?_
      exact spec_attemptCall hP (by nofun) nofun
  | doublePortMode =>
      refine .after (hport _) fun _ => .after (hport _) fun _ => ?_
      refine .bind ((spec_setupTwoPortHairpin hP _ _).mapJump fun _ hret => hret) fun _ => ?_
      refine .bind (spec_attemptCall hP (by nofun) nofun) fun _ => ?_
      refine .bind (spec_attemptCall hP (by nofun) nofun) fun _ => ?_
      refine .bind (spec_attemptCall hP (by nofun) nofun) fun _ => ?_
      exact spec_attemptCall hP (by nofun) nofun

theorem spec_createRing (ring : SmtoRing) (label : Label) :
    (createRing env ring label).Spec env.succeeds InitEvent.call P InitStop.Fails
      (ringCalls ring) := by
  refine .bind (spec_attemptCall hP (by nofun) nofun) fun _ => ?_
  exact .attemptUndo (hP.call _ nofun) (List.forall_mem_singleton.mpr (hP.free ring)) nofun

/-- **The tables.** -/
theorem spec_createTables :
    (createTables env).Spec env.succeeds InitEvent.call P InitStop.Fails (tableCalls env) := by
  refine .bind (spec_attemptCall hP (by nofun) nofun) fun _ => ?_
  refine .bind (spec_attemptCall hP (by nofun) nofun) fun _ => ?_
  refine .bind (spec_attemptCall hP (by nofun) nofun) fun _ => ?_
  refine .bind (spec_createRing hP _ _) fun _ => .bind (spec_createRing hP _ _) fun _ => ?_
  refine .bind (spec_forM_attemptCall hP _ (by nofun) nofun) fun _ => ?_
  exact .bind (spec_attemptCall hP (by nofun) nofun) fun _ => .emit hP.running

end

/-- Without worker parameters the first packet worker crashes the loop. -/
theorem launchWorkers_crash {lcores : List UInt16} (hne : lcores ≠ []) :
    launchWorkers env false lcores 0 = ⟨.error .crashed, []⟩ := by
  cases lcores with
  | nil => exact absurd rfl hne
  | cons lcoreId rest =>
      have hworker : launchWorker env false lcoreId 0 = ⟨.error .crashed, []⟩ := by
        rw [launchWorker, if_pos env.queues_pos]
        rfl
      rw [launchWorkers, hworker]
      rfl

section

variable {P : InitEvent → Prop} (hP : StartEvents env P)
include hP

theorem spec_remoteLaunch (lcoreId : UInt16) (job : WorkerJob) :
    (remoteLaunch env lcoreId job).Spec env.succeeds InitEvent.call P InitStop.Fails
      [.rteEalRemoteLaunch lcoreId job] := .attempt (hP.launch lcoreId job) nofun

theorem spec_launchWorker (lcoreId : UInt16) (index : ℕ) :
    (launchWorker env true lcoreId index).Spec env.succeeds InitEvent.call P InitStop.Fails
      ((workerJob env index).toList.map (.rteEalRemoteLaunch lcoreId)) := by
  have hprocess : ∀ param, (launchProcessLoop env true lcoreId index param).Spec env.succeeds
      InitEvent.call P InitStop.Fails [.rteEalRemoteLaunch lcoreId (.processLoop index)] :=
    fun param => .after (.emit (hP.param _ _)) fun _ => spec_remoteLaunch hP _ _
  unfold launchWorker workerJob
  split
  · exact hprocess _
  · split
    · exact hprocess _
    · split
      · exact spec_remoteLaunch hP _ _
      · exact .pure _

/-- The launch loop, where there are worker parameters. -/
theorem spec_launchWorkers (lcores : List UInt16) :
    ∀ index, (launchWorkers env true lcores index).Spec env.succeeds InitEvent.call P
      InitStop.Fails (launchCalls env lcores index) := by
  induction lcores with
  | nil => exact fun _ => .pure _
  | cons lcoreId rest ih =>
      exact fun index => .bind (spec_launchWorker hP _ _) fun _ => ih (index + 1)

/-- **The workers.** -/
theorem spec_startWorkers (hne : env.lcores ≠ []) :
    (startWorkers env).Spec env.succeeds InitEvent.call P InitStop.Fails (startCalls env) := by
  have hcall := hP.call .callocWorkerParams nofun
  unfold startWorkers startCalls
  cases hparams : env.succeeds .callocWorkerParams with
  | true =>
      rw [hparams] at hcall
      have hemit : (Procedure.emit (.call .callocWorkerParams true) : InitM).Spec
          env.succeeds InitEvent.call P InitStop.Fails [.callocWorkerParams] :=
        ⟨iff_of_true ⟨_, rfl⟩ (List.forall_mem_singleton.mpr hparams),
          fun _ => List.forall_mem_singleton.mpr List.mem_cons_self,
          List.forall_mem_singleton.mpr hcall, fun _ h => by cases h⟩
      exact .bind hemit fun _ => spec_launchWorkers hP _ _
  | false =>
      rw [hparams] at hcall
      rw [launchWorkers_crash hne]
      refine .of_error rfl (List.forall_mem_singleton.mpr hcall) trivial fun hall => ?_
      rw [hall _ List.mem_cons_self] at hparams
      cases hparams

end

/-! ### The first checks -/

/-- `init_smto` gives up before it has the memory pool. -/
def InitEnv.FailsEarly (env : InitEnv) : Prop :=
  env.succeeds .callocControlBlock = false ∨ env.rteLcoreCount < env.queues + 2 ∨
    env.portQuantity < 1 ∨ env.succeeds .rtePktmbufPoolCreate = false

theorem attemptCall_of_true {J : Type} {c : InitCall} (j : J) (h : env.succeeds c = true) :
    attemptCall env c j = ⟨.ok (), [.call c true]⟩ := if_pos h

theorem attemptCall_of_false {J : Type} {c : InitCall} (j : J) (h : env.succeeds c = false) :
    attemptCall env c j = ⟨.error j, [.call c false]⟩ := if_neg (by simp [h])

/-- Where the checks pass, two calls have been made. -/
theorem checkEnvironment_of_not_failsEarly (h : ¬ env.FailsEarly) :
    checkEnvironment env =
      ⟨.ok (), [.call .callocControlBlock true, .call .rtePktmbufPoolCreate true]⟩ := by
  simp only [InitEnv.FailsEarly, not_or, Bool.not_eq_false] at h
  obtain ⟨hblock, hcount, hports, hpool⟩ := h
  rw [checkEnvironment, attemptCall_of_true _ hblock, attemptCall_of_true _ hpool,
    rejectIf, rejectIf, if_neg hcount, if_neg hports]
  rfl

/-- A jump out of the checks frees the control block. -/
theorem initSmto_of_check {ret : InitRet} (es : List InitEvent)
    (h : checkEnvironment env = ⟨.error (.goto ret .err), es⟩) :
    initSmto env = (.returned ret, es ++ [.free .controlBlock]) := by
  have hbody : initSmtoBody env = ⟨.error (.goto ret .err), es⟩ := by
    rw [initSmtoBody, h]
    rfl
  rw [initSmto, hbody]
  rfl

/-- **Giving up early**: there is no control block, or it is all that is freed. -/
theorem initSmto_of_failsEarly (h : env.FailsEarly) : ∃ ret, ret ≠ .code .success ∧
    (initSmto env = (.returned ret, [.call .callocControlBlock false]) ∨
      ∃ es, (es = [] ∨ es = [.call .rtePktmbufPoolCreate false]) ∧ initSmto env =
        (.returned ret, .call .callocControlBlock true :: (es ++ [.free .controlBlock]))) := by
  cases hblock : env.succeeds .callocControlBlock with
  | false =>
      refine ⟨.code .memoryAllocation, nofun, Or.inl ?_⟩
      have hcheck : checkEnvironment env =
          ⟨.error (.returned (.code .memoryAllocation)), [.call .callocControlBlock false]⟩ := by
        rw [checkEnvironment, attemptCall_of_false _ hblock]
        rfl
      have hbody : initSmtoBody env =
          ⟨.error (.returned (.code .memoryAllocation)), [.call .callocControlBlock false]⟩ := by
        rw [initSmtoBody, hcheck]
        rfl
      rw [initSmto, hbody]
  | true =>
      by_cases hcount : env.rteLcoreCount < env.queues + 2
      · refine ⟨.code .noEnoughWorker, nofun, Or.inr ⟨[], Or.inl rfl, ?_⟩⟩
        refine initSmto_of_check [.call .callocControlBlock true] ?_
        rw [checkEnvironment, attemptCall_of_true _ hblock, rejectIf, if_pos hcount]
        rfl
      · by_cases hports : env.portQuantity < 1
        · refine ⟨.code .noAvailablePorts, nofun, Or.inr ⟨[], Or.inl rfl, ?_⟩⟩
          refine initSmto_of_check [.call .callocControlBlock true] ?_
          rw [checkEnvironment, attemptCall_of_true _ hblock, rejectIf, rejectIf, if_neg hcount,
            if_pos hports]
          rfl
        · have hpool : env.succeeds .rtePktmbufPoolCreate = false := by
            rcases h with h | h | h | h
            · rw [hblock] at h
              cases h
            · exact absurd h hcount
            · exact absurd h hports
            · exact h
          refine ⟨.code .hugePageMemoryAllocation, nofun, Or.inr ⟨_, Or.inr rfl, ?_⟩⟩
          refine initSmto_of_check
            [.call .callocControlBlock true, .call .rtePktmbufPoolCreate false] ?_
          rw [checkEnvironment, attemptCall_of_true _ hblock, attemptCall_of_false _ hpool,
            rejectIf, rejectIf, if_neg hcount, if_neg hports]
          rfl

/-- Past the checks, the rest of `init_smto` follows. -/
theorem initSmtoBody_of_not_failsEarly (h : ¬ env.FailsEarly) : initSmtoBody env =
    ⟨(initSmtoRest env).outcome, .call .callocControlBlock true ::
      .call .rtePktmbufPoolCreate true :: (initSmtoRest env).events⟩ := by
  rw [initSmtoBody, checkEnvironment_of_not_failsEarly h]
  rfl

theorem lcores_ne_nil_of_not_failsEarly (h : ¬ env.FailsEarly) : env.lcores ≠ [] := by
  intro hnil
  refine h (Or.inr (Or.inl ?_))
  rw [InitEnv.rteLcoreCount, hnil, List.length_nil]
  omega

/-- **Past the checks**, what is left carries out the calls whose results are checked. -/
theorem spec_initSmtoRest {P : InitEvent → Prop} (h : ¬ env.FailsEarly)
    (hP : StartEvents env P) :
    (initSmtoRest env).Spec env.succeeds InitEvent.call P InitStop.Fails
      (checkedPortCalls env ++ (tableCalls env ++ startCalls env)) :=
  .bind (spec_configurePorts hP.toSetupEvents) fun _ =>
    .bind (spec_createTables hP.toSetupEvents) fun _ =>
      spec_startWorkers hP (lcores_ne_nil_of_not_failsEarly h)

theorem startEvents_true : StartEvents env fun _ => True :=
  ⟨⟨fun _ _ => trivial, fun _ => trivial, trivial⟩, fun _ _ => trivial, fun _ _ => trivial⟩

/-! ### How it ends -/

/-- What the cleanup may log at all. -/
def cleanupEvents (env : InitEnv) : List InitEvent :=
  [.free .workerParams, .running false,
    .call (.unregisterAgedEvent env.port0) (env.succeeds (.unregisterAgedEvent env.port0)),
    .waitLcore, .free (.ring .portPool), .free (.ring .flowRulesRing), .free .hashTable,
    .call (.rteFlowFlush env.port0) (env.succeeds (.rteFlowFlush env.port0)),
    .free .controlBlock]

theorem mem_cleanupEvents (launched : Bool) (label : Label) :
    ∀ e ∈ (cleanup env launched label).events, e ∈ cleanupEvents env := by
  refine Procedure.forall_events_forM fun label e he => ?_
  cases label with
  | err5 =>
      -- whether it waits for the workers or crashes, the first three events are the same
      rcases Procedure.mem_events_bind he with he | ⟨-, -, he⟩
      · exact List.mem_singleton.mp he ▸ List.mem_cons_self
      rcases Procedure.mem_events_bind he with he | ⟨-, -, he⟩
      · simp [List.mem_singleton.mp he, cleanupEvents]
      rcases Procedure.mem_events_bind he with he | ⟨-, -, he⟩
      · simp [List.mem_singleton.mp he, cleanupEvents]
      split at he
      · exact absurd he List.not_mem_nil
      · simp [List.mem_singleton.mp he, cleanupEvents]
  | err2 =>
      simp only [Label.body] at he
      split at he
      · exact absurd he List.not_mem_nil
      · simp [List.mem_singleton.mp he, cleanupEvents]
  | err1 =>
      rcases Procedure.mem_events_bind he with he | ⟨-, -, he⟩
      · simp [List.mem_singleton.mp he, cleanupEvents]
      split at he <;> exact absurd he List.not_mem_nil
  | err4 | err3 | err => simp [List.mem_singleton.mp he, cleanupEvents]

/-- Where the cleanup from a label on stops short. -/
def InitEnv.cleanupStop (env : InitEnv) (launched : Bool) (label : Label) : Option InitOutcome :=
  if label = .err5 ∧ launched ∧ env.workersEnd = .crashed then some .crashed
  else if label ∉ [.err, .err1] ∧ launched ∧ env.workersEnd = .tableFilled then some .hangs
  else if label ≠ .err ∧ env.succeeds (.rteFlowFlush env.port0) ∧ env.flowErrorCrash then
    some .crashed
  else none

@[simp] theorem cleanupStop_err (launched : Bool) : env.cleanupStop launched .err = none := by
  simp [InitEnv.cleanupStop]

/-- **How the cleanup ends**, label by label. -/
theorem cleanup_outcome (launched : Bool) (label : Label) :
    (cleanup env launched label).outcome =
      (env.cleanupStop launched label).elim (.ok ()) .error := by
  have herr1 : (cleanup env launched .err1).outcome =
      if env.succeeds (.rteFlowFlush env.port0) ∧ env.flowErrorCrash then .error .crashed
      else .ok () := by
    refine Procedure.outcome_bind_ite (x := Label.body env launched .err1) (a := ()) ?_
    show (if _ then Procedure.jump _ else pure () : CleanupM).outcome = _
    split <;> rfl
  have herr2 : (cleanup env launched .err2).outcome =
      if launched ∧ env.workersEnd = .tableFilled then .error .hangs
      else (cleanup env launched .err1).outcome := by
    refine Procedure.outcome_bind_ite (x := Label.body env launched .err2) (a := ()) ?_
    simp only [Label.body]
    split <;> rfl
  have herr5 : (cleanup env launched .err5).outcome =
      if launched ∧ env.workersEnd = .crashed then .error .crashed
      else (cleanup env launched .err2).outcome := by
    refine Procedure.outcome_bind_ite (x := Label.body env launched .err5) (a := ()) ?_
    show (if _ then Procedure.jump _ else Procedure.emit _ : CleanupM).outcome = _
    split <;> rfl
  have herr3 : (cleanup env launched .err3).outcome = (cleanup env launched .err2).outcome := rfl
  have herr4 : (cleanup env launched .err4).outcome = (cleanup env launched .err2).outcome := rfl
  cases label with
  | err =>
      rw [cleanupStop_err]
      rfl
  | _ =>
      simp only [InitEnv.cleanupStop, herr1, herr2, herr3, herr4, herr5, List.mem_cons,
        List.not_mem_nil, reduceCtorEq, or_true, or_false, not_true, not_false_iff, true_and,
        false_and, ne_eq, if_false]
      split_ifs <;> rfl

/-- A cleanup that stops short does not return. -/
theorem cleanupStop_ne_returned {launched : Bool} {label : Label} {ret : InitRet} :
    env.cleanupStop launched label ≠ some (.returned ret) := by
  unfold InitEnv.cleanupStop
  split_ifs <;> simp

/-- **How `init_smto` ends** past its checks: with success; or it does not return; or it
returns an error, after the cleanup from some label on. -/
theorem initSmto_of_not_failsEarly (h : ¬ env.FailsEarly) :
    (initSmtoRest env).Completes ∧
      initSmto env = (.returned (.code .success), (initSmtoBody env).events) ∨
    ¬ (initSmtoRest env).Completes ∧
      ((∀ ret, (initSmto env).1 ≠ .returned ret) ∨ ∃ ret launched label, ret ≠ .code .success ∧
        initSmto env = (.returned ret,
          (initSmtoBody env).events ++ (cleanup env launched label).events)) := by
  have hbody := initSmtoBody_of_not_failsEarly h
  have houtcome : (initSmtoBody env).outcome = (initSmtoRest env).outcome := by rw [hbody]
  rcases (initSmtoRest env).completes_or_jumps with ⟨a, ha⟩ | ⟨stop, hstop⟩
  · exact Or.inl ⟨⟨a, ha⟩, by rw [initSmto, houtcome, ha]⟩
  · have hno : ¬ (initSmtoRest env).Completes := fun ⟨a, ha⟩ => by
      rw [hstop] at ha
      cases ha
    have hfails := (spec_initSmtoRest h startEvents_true).jumps stop hstop
    refine Or.inr ⟨hno, ?_⟩
    rw [initSmto, houtcome, hstop]
    cases stop with
    | returned ret => exact hfails.elim
    | goto ret label =>
        dsimp only
        generalize hlaunched : workersLaunched (initSmtoBody env).events = launched
        rw [cleanup_outcome]
        cases hstop : env.cleanupStop launched label with
        | none => exact Or.inr ⟨ret, launched, label, hfails, rfl⟩
        | some outcome =>
            exact Or.inl fun ret' heq => cleanupStop_ne_returned (hstop.trans (congrArg some heq))
    | crashed => exact Or.inl nofun

/-- **When `init_smto` succeeds**: past its checks, exactly when every call whose result is
checked succeeds, and `worker_params` is allocated. -/
theorem initSmto_success_iff : (initSmto env).1 = .returned (.code .success) ↔
    ¬ env.FailsEarly ∧
      ∀ c ∈ checkedPortCalls env ++ (tableCalls env ++ startCalls env), env.succeeds c = true := by
  by_cases h : env.FailsEarly
  · obtain ⟨ret, hret, hend⟩ := initSmto_of_failsEarly h
    have hfst : (initSmto env).1 = .returned ret := by
      rcases hend with hend | ⟨es, -, hend⟩ <;> rw [hend]
    rw [hfst]
    exact iff_of_false (fun heq => hret (InitOutcome.returned.inj heq)) fun hand => hand.1 h
  · rw [and_iff_right h, ← (spec_initSmtoRest h startEvents_true).completes_iff]
    rcases initSmto_of_not_failsEarly h with ⟨hcompletes, hend⟩ | ⟨hno, hend⟩
    · exact iff_of_true (by rw [hend]) hcompletes
    · refine iff_of_false (fun heq => ?_) hno
      rcases hend with hno | ⟨ret, launched, label, hret, hend⟩
      · exact hno _ heq
      · rw [hend] at heq
        exact hret (InitOutcome.returned.inj heq)

/-- Three lcores, of which one is the main lcore, and two ports to choose from. -/
def threeLcoresEnv (portQuantity : UInt16) (ok : InitCall → Bool) : InitEnv where
  queues := generalQueuesQuantity
  lcores := [1, 2]
  portQuantity := portQuantity
  port0 := 0
  port1 := 1
  ok := ok
  link _ _ := .up
  workersEnd := .tableEmpty
  flowErrorCrash := false
  queues_pos := by decide
  lcores_nodup := by decide

/-- Where nothing fails, one port or two do. -/
theorem initSmto_threeLcoresEnv (portQuantity : UInt16) (h : ¬ portQuantity < 1) :
    (initSmto (threeLcoresEnv portQuantity fun _ => true)).1 = .returned (.code .success) := by
  have hsucceeds : ∀ c, (threeLcoresEnv portQuantity fun _ => true).succeeds c = true := by
    intro c
    cases c with
    | assertLinkStatus portId =>
        have hup : assertLinkStatus (fun _ => .up) = .success := by decide
        exact decide_eq_true hup
    | _ => rfl
  refine initSmto_success_iff.mpr ⟨?_, fun c _ => hsucceeds c⟩
  rintro (hblock | hcount | hports | hpool)
  · rw [hsucceeds] at hblock
    cases hblock
  · exact lt_irrefl 3 hcount
  · exact h hports
  · rw [hsucceeds] at hpool
    cases hpool

end SmartOffload
