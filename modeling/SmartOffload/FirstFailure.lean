import SmartOffload.PlannedCalls

/-!
# The first failure of `init_smto`

`init_smto` stops at the first of its checked calls that fails, and returns the code of
that call if its cleanup comes to the end (`initSmto_outcome`).  The calls are
`InitEnv.attemptedCalls`, in the order of the code; those of `init_port` are not among them.

The cleanup depends on whether workers run by then.  Past the checks the first failure tells
that: they do where it is a launch on an lcore other than the first
(`workersLaunched_of_firstFailure`).
-/

namespace SmartOffload

variable {env : InitEnv}

/-! ### The first failing call -/

/-- What is returned where a call fails: the errno of `rte_eth_dev_start` and of
`rte_eth_hairpin_bind`, and a code for every other call. -/
def InitCall.ret : InitCall → InitRet
  | .callocControlBlock => .code .memoryAllocation
  | .rtePktmbufPoolCreate => .code .hugePageMemoryAllocation
  | .rteEthDevInfoGet _ => .code .deviceConfigure
  | .rteEthDevConfigure _ => .code .deviceConfigure
  | .rteEthRxQueueSetup _ _ => .code .queueSetup
  | .rteEthTxQueueSetup _ _ => .code .queueSetup
  | .rteEthPromiscuousEnable _ => .code .deviceConfigure
  | .rteEthTxHairpinQueueSetup _ _ => .code .hairpinSetup
  | .rteEthRxHairpinQueueSetup _ _ => .code .hairpinSetup
  | .assertLinkStatus _ => .code .deviceStart
  | .createDefaultJumpFlow _ => .code .flowCreate
  | .createDefaultRssFlow _ => .code .flowCreate
  | .rteHashCreate => .code .hashMapCreation
  | .rteCalloc _ => .code .hugePageMemoryAllocation
  | .rteRingInit _ => .code .ringCreation
  | .rteRingEnqueue _ => .code .ringCreation
  | .registerAgedEvent _ => .code .eventRegister
  | .rteEalRemoteLaunch _ _ => .code .workerLaunch
  | c => .errno c

/-- The label the cleanup begins at where a call fails. -/
def InitCall.label : InitCall → Label
  | .createDefaultRssFlow _ => .err1
  | .rteHashCreate => .err1
  | .rteCalloc .flowRulesRing => .err2
  | .rteRingInit .flowRulesRing => .err2
  | .rteCalloc .portPool => .err3
  | .rteRingInit .portPool => .err3
  | .rteRingEnqueue _ => .err4
  | .registerAgedEvent _ => .err4
  | .rteEalRemoteLaunch _ _ => .err5
  | _ => .err

/-- How `init_smto` leaves its straight line where a call fails. -/
def InitCall.stop : InitCall → InitStop
  | .callocControlBlock => .returned (.code .memoryAllocation)
  | .callocWorkerParams => .crashed
  | c => .goto c.ret c.label

/-- Whether workers run where a call is the first to fail. -/
def InitCall.afterLaunch (env : InitEnv) : InitCall → Bool
  | .rteEalRemoteLaunch lcoreId _ => env.lcores.head? ≠ some lcoreId
  | _ => false

/-- How `init_smto` ends where a call is the first to fail. -/
def InitCall.outcome (env : InitEnv) : InitCall → InitOutcome
  | .callocWorkerParams => .crashed
  | c => (env.cleanupStop (c.afterLaunch env) c.label).getD (.returned c.ret)

variable (env) in
/-- The calls past the checks whose results are looked at, or whose NULL is dereferenced. -/
def checkedCalls : List InitCall := checkedPortCalls env ++ (tableCalls env ++ startCalls env)

/-- The lcores or the ports do not suffice. -/
def InitEnv.Rejected (env : InitEnv) : Prop :=
  env.rteLcoreCount < env.queues + 2 ∨ env.portQuantity < 1

instance (env : InitEnv) : Decidable env.Rejected := inferInstanceAs (Decidable (_ ∨ _))

/-- What is returned where no call fails. -/
def InitEnv.verdict (env : InitEnv) : SmtoErrorCode :=
  if env.rteLcoreCount < env.queues + 2 then .noEnoughWorker
  else if env.portQuantity < 1 then .noAvailablePorts else .success

/-- The calls of `init_smto` in order, as far as it gets where none fails. -/
def InitEnv.attemptedCalls (env : InitEnv) : List InitCall :=
  .callocControlBlock ::
    if env.Rejected then [] else .rtePktmbufPoolCreate :: checkedCalls env

/-- **The first call that fails**, if one does. -/
def InitEnv.firstFailure (env : InitEnv) : Option InitCall :=
  env.attemptedCalls.find? fun c => !env.succeeds c

/-! ### Each part reports its calls -/

theorem reports_attemptCall {c : InitCall} {j : InitStop} (hj : j = c.stop) :
    (attemptCall env c j).Reports env.succeeds InitCall.stop [c] := .attempt hj

theorem reports_setupHairpinQueues (portId peerPortId : UInt16) :
    ((setupHairpinQueues env portId peerPortId).mapJump fun _ => .code .hairpinSetup).Reports
      env.succeeds InitCall.ret (hairpinCalls portId peerPortId) := by
  have hqueues : (setupHairpinQueues env portId peerPortId).Reports env.succeeds .errno
      (hairpinCalls portId peerPortId) :=
    .bind (.attempt rfl) fun _ => .attempt rfl
  refine hqueues.mapJump fun c hc => ?_
  rcases List.mem_pair.mp hc with rfl | rfl <;> rfl

theorem reports_setupTwoPortHairpin (portId peerPortId : UInt16) :
    (setupTwoPortHairpin env portId peerPortId).Reports env.succeeds InitCall.ret
      (hairpinCalls portId peerPortId ++ hairpinCalls peerPortId portId) :=
  .bind (reports_setupHairpinQueues portId peerPortId) fun _ =>
    reports_setupHairpinQueues peerPortId portId

/-- **The ports.** -/
theorem reports_configurePorts :
    (configurePorts env).Reports env.succeeds InitCall.stop (checkedPortCalls env) := by
  have hstop : ∀ {a b : UInt16}, ∀ c ∈ hairpinCalls a b, .goto c.ret .err = c.stop := by
    intro a b c hc
    rcases List.mem_pair.mp hc with rfl | rfl <;> rfl
  unfold configurePorts checkedPortCalls
  cases env.mode with
  | singlePortMode =>
      refine .after (.result _) fun _ => ?_
      refine .bind ((reports_setupHairpinQueues _ _).mapJump hstop) fun _ => ?_
      refine .bind (reports_attemptCall rfl) fun _ => ?_
      exact reports_attemptCall rfl
  | doublePortMode =>
      have hboth : ∀ c ∈ hairpinCalls env.port0 env.port1 ++ hairpinCalls env.port1 env.port0,
          .goto c.ret .err = c.stop := fun c hc =>
        (List.mem_append.mp hc).elim (hstop c) (hstop c)
      refine .after (.result _) fun _ => .after (.result _) fun _ => ?_
      refine .bind ((reports_setupTwoPortHairpin _ _).mapJump hboth) fun _ => ?_
      refine .bind (reports_attemptCall rfl) fun _ => ?_
      refine .bind (reports_attemptCall rfl) fun _ => ?_
      refine .bind (reports_attemptCall rfl) fun _ => ?_
      exact reports_attemptCall rfl

theorem reports_createRing {ring : SmtoRing} {label : Label}
    (hcalloc : (InitCall.rteCalloc ring).label = label)
    (hinit : (InitCall.rteRingInit ring).label = label) :
    (createRing env ring label).Reports env.succeeds InitCall.stop (ringCalls ring) := by
  refine .bind (reports_attemptCall ?_) fun _ => .attemptUndo ?_
  · rw [← hcalloc]
    rfl
  · rw [← hinit]
    rfl

/-- **The tables.** -/
theorem reports_createTables :
    (createTables env).Reports env.succeeds InitCall.stop (tableCalls env) := by
  refine .bind (reports_attemptCall rfl) fun _ => ?_
  refine .bind (reports_attemptCall rfl) fun _ => ?_
  refine .bind (reports_attemptCall rfl) fun _ => ?_
  refine .bind (reports_createRing rfl rfl) fun _ => ?_
  refine .bind (reports_createRing rfl rfl) fun _ => ?_
  have hfill : ((List.range' 1 (maxHashEntries - 1)).forM fun i =>
      attemptCall env (.rteRingEnqueue i) (.goto (.code .ringCreation) .err4)).Reports
        env.succeeds InitCall.stop
        ((List.range' 1 (maxHashEntries - 1)).map .rteRingEnqueue) := by
    rw [List.map_eq_flatMap]
    exact .forM fun i => reports_attemptCall rfl
  refine .bind hfill fun _ => ?_
  exact .bind (reports_attemptCall rfl) fun _ => .emit _

theorem reports_launchWorker (lcoreId : UInt16) (index : ℕ) :
    (launchWorker env true lcoreId index).Reports env.succeeds InitCall.stop
      ((workerJob env index).toList.map (.rteEalRemoteLaunch lcoreId)) := by
  have hprocess : ∀ param, (launchProcessLoop env true lcoreId index param).Reports env.succeeds
      InitCall.stop [.rteEalRemoteLaunch lcoreId (.processLoop index)] :=
    fun param => .after (.emit _) fun _ => reports_attemptCall rfl
  unfold launchWorker workerJob
  split
  · exact hprocess _
  · split
    · exact hprocess _
    · split
      · exact reports_attemptCall rfl
      · exact .pure _

theorem reports_launchWorkers (lcores : List UInt16) :
    ∀ index, (launchWorkers env true lcores index).Reports env.succeeds InitCall.stop
      (launchCalls env lcores index) := by
  induction lcores with
  | nil => exact fun _ => .pure _
  | cons lcoreId rest ih =>
      exact fun index => .bind (reports_launchWorker _ _) fun _ => ih (index + 1)

/-- **The workers.**  Where `worker_params` is NULL, the first write to it crashes. -/
theorem reports_startWorkers (hne : env.lcores ≠ []) :
    (startWorkers env).Reports env.succeeds InitCall.stop (startCalls env) := by
  unfold startWorkers startCalls
  cases hparams : env.succeeds .callocWorkerParams with
  | true =>
      have hemit : (Procedure.emit (.call .callocWorkerParams true) : InitM).Reports
          env.succeeds InitCall.stop [.callocWorkerParams] := by
        refine ⟨fun _ => ⟨_, rfl⟩, fun c hc => ?_⟩
        simp [hparams] at hc
      exact .bind hemit fun _ => reports_launchWorkers _ _
  | false =>
      rw [launchWorkers_crash hne]
      refine ⟨fun hall => ?_, fun c hc => ?_⟩
      · have htrue := hall _ List.mem_cons_self
        rw [hparams] at htrue
        cases htrue
      · rw [List.find?_cons_of_pos (by simp [hparams])] at hc
        obtain rfl := Option.some.inj hc
        rfl

theorem reports_initSmtoRest (hne : env.lcores ≠ []) :
    (initSmtoRest env).Reports env.succeeds InitCall.stop (checkedCalls env) :=
  .bind reports_configurePorts fun _ =>
    .bind reports_createTables fun _ => reports_startWorkers hne

/-! ### Launches -/

/-- An event that launches no worker. -/
def InitEvent.Quiet : InitEvent → Prop
  | .call (.rteEalRemoteLaunch _ _) ok => ok = false
  | _ => True

theorem setupEvents_quiet : SetupEvents env InitEvent.Quiet where
  call c hc := by
    cases c with
    | rteEalRemoteLaunch lcoreId job => exact absurd rfl (hc lcoreId job)
    | _ => trivial
  free _ := trivial
  running := trivial

/-- How a launch ends. -/
def launchResult (ok : Bool) : Except InitStop Unit :=
  if ok then .ok () else .error (.goto (.code .workerLaunch) .err5)

theorem remoteLaunch_eq (lcoreId : UInt16) (job : WorkerJob) :
    remoteLaunch env lcoreId job =
      ⟨launchResult (env.succeeds (.rteEalRemoteLaunch lcoreId job)),
        [.call (.rteEalRemoteLaunch lcoreId job)
          (env.succeeds (.rteEalRemoteLaunch lcoreId job))]⟩ := by
  unfold remoteLaunch
  cases h : env.succeeds (.rteEalRemoteLaunch lcoreId job) with
  | true => exact attemptCall_of_true _ h
  | false => exact attemptCall_of_false _ h

/-- The calls of the launch loop are launches on its lcores. -/
theorem exists_of_mem_launchCalls {lcores : List UInt16} {c : InitCall} :
    ∀ {index}, c ∈ launchCalls env lcores index →
      ∃ l ∈ lcores, ∃ job, c = .rteEalRemoteLaunch l job := by
  induction lcores with
  | nil => exact fun h => absurd h List.not_mem_nil
  | cons lcoreId rest ih =>
      intro index h
      rcases List.mem_append.mp h with h | h
      · obtain ⟨job, -, rfl⟩ := List.mem_map.mp h
        exact ⟨lcoreId, List.mem_cons_self, job, rfl⟩
      · obtain ⟨l, hl, job, rfl⟩ := ih h
        exact ⟨l, List.mem_cons_of_mem _ hl, job, rfl⟩

/-- **Where the first launch to fail is on the first lcore**, no worker was launched. -/
theorem quiet_launchWorkers_iff {l : UInt16} {job : WorkerJob} {lcores : List UInt16}
    (hnodup : lcores.Nodup) (hfirst : (launchCalls env lcores 0).find?
      (fun c => !env.succeeds c) = some (.rteEalRemoteLaunch l job)) :
    (∀ e ∈ (launchWorkers env true lcores 0).events, e.Quiet) ↔ lcores.head? = some l := by
  cases lcores with
  | nil => cases hfirst
  | cons lcoreId rest =>
      have hworker : launchWorker env true lcoreId 0 =
          launchProcessLoop env true lcoreId 0 ⟨env.port0, UInt16.ofNat 0⟩ := if_pos env.queues_pos
      have hjob : workerJob env 0 = some (.processLoop 0) := if_pos env.queues_pos
      rw [launchCalls, hjob] at hfirst
      rw [launchWorkers, hworker, launchProcessLoop, remoteLaunch_eq]
      cases hok : env.succeeds (.rteEalRemoteLaunch lcoreId (.processLoop 0)) with
      | false =>
          rw [Option.toList_some, List.map_singleton, List.singleton_append,
            List.find?_cons_of_pos (by simp [hok])] at hfirst
          obtain ⟨rfl, -⟩ := InitCall.rteEalRemoteLaunch.inj (Option.some.inj hfirst)
          refine iff_of_true ?_ rfl
          show ∀ e ∈ [InitEvent.param 0 _, .call _ false], e.Quiet
          exact List.forall_mem_cons.mpr ⟨trivial, List.forall_mem_singleton.mpr rfl⟩
      | true =>
          rw [Option.toList_some, List.map_singleton, List.singleton_append,
            List.find?_cons_of_neg (by simp [hok])] at hfirst
          obtain ⟨l', hl, job', heq⟩ :=
            exists_of_mem_launchCalls (List.mem_of_find?_eq_some hfirst)
          obtain ⟨rfl, -⟩ := InitCall.rteEalRemoteLaunch.inj heq
          refine iff_of_false (fun hquiet => ?_) fun hhead => ?_
          · have hlaunch : (InitEvent.call (.rteEalRemoteLaunch lcoreId (.processLoop 0))
                true).Quiet := hquiet _ (List.mem_cons_of_mem _ List.mem_cons_self)
            exact Bool.noConfusion (hlaunch : true = false)
          · obtain rfl := Option.some.inj hhead
            exact (List.nodup_cons.mp hnodup).1 hl

/-- No set-up call jumps to `err5`. -/
theorem label_of_mem : ∀ c ∈ checkedPortCalls env ++ tableCalls env, c.label ≠ .err5 := by
  have hlabel : ∀ {c : InitCall}, (c.label != .err5) = true → c.label ≠ .err5 := bne_iff_ne.mp
  have hnil : ∀ c ∈ ([] : List InitCall), c.label ≠ .err5 := fun c hc => absurd hc List.not_mem_nil
  have hhairpin : ∀ a b, ∀ c ∈ hairpinCalls a b, c.label ≠ .err5 := fun a b =>
    List.forall_mem_cons.mpr ⟨hlabel rfl, List.forall_mem_singleton.mpr (hlabel rfl)⟩
  refine List.forall_mem_append.mpr ⟨?_, ?_⟩
  · unfold checkedPortCalls
    cases env.mode with
    | singlePortMode =>
        simp only [List.forall_mem_append, List.forall_mem_cons]
        exact ⟨hhairpin _ _, hlabel rfl, hlabel rfl, hnil⟩
    | doublePortMode =>
        simp only [List.forall_mem_append, List.forall_mem_cons]
        exact ⟨⟨hhairpin _ _, hhairpin _ _⟩, hlabel rfl, hlabel rfl, hlabel rfl, hlabel rfl, hnil⟩
  · simp only [tableCalls, ringCalls, List.forall_mem_cons, List.forall_mem_append,
      List.forall_mem_map]
    exact ⟨hlabel rfl, hlabel rfl, hlabel rfl, ⟨hlabel rfl, hlabel rfl, hnil⟩,
      ⟨hlabel rfl, hlabel rfl, hnil⟩, fun _ _ => hlabel rfl, hlabel rfl, hnil⟩

/-- Past the checks the first failure is one of what is left. -/
theorem firstFailure_of_not_failsEarly (h : ¬ env.FailsEarly) :
    env.firstFailure = (checkedCalls env).find? fun c => !env.succeeds c := by
  simp only [InitEnv.FailsEarly, not_or, Bool.not_eq_false] at h
  obtain ⟨hblock, hcount, hports, hpool⟩ := h
  have hrejected : ¬ env.Rejected := not_or.mpr ⟨hcount, hports⟩
  rw [InitEnv.firstFailure, InitEnv.attemptedCalls, if_neg hrejected,
    List.find?_cons_of_neg (by simp [hblock]), List.find?_cons_of_neg (by simp [hpool])]

/-- The log of a complete set-up. -/
def setupEvents (env : InitEnv) : List InitEvent :=
  .call .callocControlBlock true :: .call .rtePktmbufPoolCreate true ::
    ((configurePorts env).events ++ ((createTables env).events ++
      [.call .callocWorkerParams (env.succeeds .callocWorkerParams)]))

/-- The launch loop of `init_smto`. -/
def launchLoop (env : InitEnv) : InitM :=
  launchWorkers env (env.succeeds .callocWorkerParams) env.lcores 0

theorem startWorkers_eq (env : InitEnv) :
    startWorkers env = ⟨(launchLoop env).outcome,
      .call .callocWorkerParams (env.succeeds .callocWorkerParams) ::
        (launchLoop env).events⟩ := rfl

theorem quiet_setupEvents (env : InitEnv) : ∀ e ∈ setupEvents env, e.Quiet := by
  have hports : ∀ e ∈ (configurePorts env).events, e.Quiet :=
    (spec_configurePorts setupEvents_quiet).allEvents
  have htables : ∀ e ∈ (createTables env).events, e.Quiet :=
    (spec_createTables setupEvents_quiet).allEvents
  simp only [setupEvents, List.forall_mem_cons, List.forall_mem_append]
  exact ⟨trivial, trivial, hports, htables, trivial, fun e he => absurd he List.not_mem_nil⟩

/-- **Either no worker is launched, or the set-up is complete.** -/
theorem quiet_or_started (h : ¬ env.FailsEarly) :
    ((∀ e ∈ (initSmtoBody env).events, e.Quiet) ∧
        ∃ c ∈ checkedPortCalls env ++ tableCalls env, env.firstFailure = some c) ∨
      (configurePorts env).Completes ∧ (createTables env).Completes ∧
        initSmtoBody env =
          ⟨(launchLoop env).outcome, setupEvents env ++ (launchLoop env).events⟩ ∧
        env.firstFailure = (startCalls env).find? fun c => !env.succeeds c := by
  have hquiet : ∀ e ∈ (configurePorts env).events, e.Quiet :=
    (spec_configurePorts setupEvents_quiet).allEvents
  have hquiet' : ∀ e ∈ (createTables env).events, e.Quiet :=
    (spec_createTables setupEvents_quiet).allEvents
  rw [firstFailure_of_not_failsEarly h, checkedCalls, List.find?_append, List.find?_append,
    initSmtoBody_of_not_failsEarly h, initSmtoRest]
  rcases (configurePorts env).completes_or_jumps with ⟨a, ha⟩ | ⟨j, hj⟩
  · rw [reports_configurePorts.find?_of_ok ha, Option.none_or, Procedure.bind_of_ok ha]
    rcases (createTables env).completes_or_jumps with ⟨b, hb⟩ | ⟨j, hj⟩
    · rw [reports_createTables.find?_of_ok hb, Option.none_or, Procedure.bind_of_ok hb]
      refine Or.inr ⟨⟨a, ha⟩, ⟨b, hb⟩, ?_, rfl⟩
      rw [startWorkers_eq]
      simp only [setupEvents, List.cons_append, List.nil_append, List.append_assoc]
    · obtain ⟨c, hc, -⟩ := reports_createTables.find?_of_error hj
      rw [hc, Option.some_or, Procedure.bind_of_error hj]
      refine Or.inl ⟨?_, c, List.mem_append_right _ (List.mem_of_find?_eq_some hc), rfl⟩
      simp only [List.forall_mem_append, List.forall_mem_cons]
      exact ⟨trivial, trivial, hquiet, hquiet'⟩
  · obtain ⟨c, hc, -⟩ := reports_configurePorts.find?_of_error hj
    rw [hc, Option.some_or, Procedure.bind_of_error hj]
    refine Or.inl ⟨?_, c, List.mem_append_left _ (List.mem_of_find?_eq_some hc), rfl⟩
    simp only [List.forall_mem_cons]
    exact ⟨trivial, trivial, hquiet⟩

theorem workersLaunched_eq_false_iff {es : List InitEvent} :
    workersLaunched es = false ↔ ∀ e ∈ es, e.Quiet := by
  rw [workersLaunched, List.any_eq_false]
  refine forall₂_congr fun e _ => ?_
  unfold InitEvent.Quiet
  split <;> simp

/-- Workers run only where a launch fails. -/
theorem afterLaunch_of_label {c : InitCall} (h : c.label ≠ .err5) : c.afterLaunch env = false := by
  cases c with
  | rteEalRemoteLaunch lcoreId job => exact absurd rfl h
  | _ => rfl

/-- **The first failure tells** whether workers run. -/
theorem workersLaunched_of_firstFailure (h : ¬ env.FailsEarly) {c : InitCall}
    (hc : env.firstFailure = some c) :
    workersLaunched (initSmtoBody env).events = c.afterLaunch env := by
  rw [Bool.eq_iff_iff, ← not_iff_not, Bool.not_eq_true, Bool.not_eq_true,
    workersLaunched_eq_false_iff]
  rcases quiet_or_started h with ⟨hquiet, c', hc', hfirst⟩ | ⟨-, -, hbody, hfirst⟩
  · obtain rfl := Option.some.inj (hfirst.symm.trans hc)
    exact iff_of_true hquiet (afterLaunch_of_label (label_of_mem _ hc'))
  · rw [hbody, List.forall_mem_append, and_iff_right (quiet_setupEvents env)]
    rw [hfirst, startCalls] at hc
    cases hparams : env.succeeds .callocWorkerParams with
    | false =>
        rw [List.find?_cons_of_pos (by simp [hparams])] at hc
        obtain rfl := Option.some.inj hc
        rw [launchLoop, hparams, launchWorkers_crash (lcores_ne_nil_of_not_failsEarly h)]
        exact iff_of_true (fun e he => absurd he List.not_mem_nil) rfl
    | true =>
        rw [List.find?_cons_of_neg (by simp [hparams])] at hc
        obtain ⟨l, -, job, rfl⟩ := exists_of_mem_launchCalls (List.mem_of_find?_eq_some hc)
        rw [launchLoop, hparams, quiet_launchWorkers_iff env.lcores_nodup hc,
          InitCall.afterLaunch, decide_eq_false_iff_not, not_not]

/-! ### How it ends -/

/-- How a straight line ends, seen from outside. -/
def InitStop.outcome (env : InitEnv) (launched : Bool) : InitStop → InitOutcome
  | .returned ret => .returned ret
  | .goto ret label => (env.cleanupStop launched label).getD (.returned ret)
  | .crashed => .crashed

/-- A call whose failure only frees the control block. -/
theorem InitCall.outcome_of_label_err (c : InitCall) (h : c.label = .err)
    (hc : c ≠ .callocWorkerParams) : c.outcome env = .returned c.ret := by
  unfold InitCall.outcome
  split
  · exact absurd rfl hc
  · rw [h, cleanupStop_err, Option.getD_none]

theorem InitCall.outcome_stop (c : InitCall) :
    c.stop.outcome env (c.afterLaunch env) = c.outcome env := by
  cases c with
  | callocControlBlock => exact (outcome_of_label_err .callocControlBlock rfl nofun).symm
  | _ => rfl

/-- The straight line decides, with its cleanup. -/
theorem initSmto_fst_of_error {stop : InitStop} (h : (initSmtoBody env).outcome = .error stop) :
    (initSmto env).1 = stop.outcome env (workersLaunched (initSmtoBody env).events) := by
  unfold initSmto
  dsimp only
  rw [h]
  cases stop with
  | returned ret => rfl
  | goto ret label =>
      dsimp only
      rw [cleanup_outcome, InitStop.outcome]
      cases env.cleanupStop (workersLaunched (initSmtoBody env).events) label <;> rfl
  | crashed => rfl

/-- **The checks**, one after the other. -/
theorem outcome_checkEnvironment (env : InitEnv) : (checkEnvironment env).outcome =
    if env.succeeds .callocControlBlock = false then .error (.returned (.code .memoryAllocation))
    else if env.rteLcoreCount < env.queues + 2 then .error (.goto (.code .noEnoughWorker) .err)
    else if env.portQuantity < 1 then .error (.goto (.code .noAvailablePorts) .err)
    else if env.succeeds .rtePktmbufPoolCreate = false then
      .error (.goto (.code .hugePageMemoryAllocation) .err)
    else .ok () := by
  unfold checkEnvironment rejectIf
  cases hblock : env.succeeds .callocControlBlock with
  | false => rw [attemptCall_of_false _ hblock]; rfl
  | true =>
      rw [attemptCall_of_true _ hblock, if_neg (Bool.noConfusion : ¬ true = false)]
      split
      · rfl
      · split
        · rfl
        · cases hpool : env.succeeds .rtePktmbufPoolCreate with
          | false => rw [attemptCall_of_false _ hpool]; rfl
          | true => rw [attemptCall_of_true _ hpool]; rfl

/-- A jump out of the checks returns an error. -/
theorem initSmto_fst_of_check {ret : InitRet}
    (h : (checkEnvironment env).outcome = .error (.goto ret .err)) :
    (initSmto env).1 = .returned ret := by
  have hbody : (initSmtoBody env).outcome = .error (.goto ret .err) := by
    rw [initSmtoBody, Procedure.bind_of_error h]
  rw [initSmto_fst_of_error hbody, InitStop.outcome, cleanupStop_err, Option.getD_none]

/-- Past the checks what is left decides. -/
theorem initSmto_fst_of_not_failsEarly (h : ¬ env.FailsEarly) :
    (initSmto env).1 =
      (env.firstFailure.map (InitCall.outcome env)).getD (.returned (.code .success)) := by
  have hreports := reports_initSmtoRest (lcores_ne_nil_of_not_failsEarly h)
  have houtcome : (initSmtoBody env).outcome = (initSmtoRest env).outcome := by
    rw [initSmtoBody_of_not_failsEarly h]
  have hfirst := firstFailure_of_not_failsEarly h
  rcases Procedure.Reports.find_cases env.succeeds (checkedCalls env) with ⟨hall, hnone⟩ | ⟨c, hc⟩
  · obtain ⟨a, ha⟩ := hreports.completes hall
    rw [hfirst, hnone, initSmto, houtcome, ha]
    rfl
  · rw [initSmto_fst_of_error (houtcome.trans (hreports.stops c hc)), hfirst, hc,
      workersLaunched_of_firstFailure h (hfirst.trans hc), InitCall.outcome_stop]
    rfl

/-- **How `init_smto` ends**, in every environment: as the first of its calls that fails has
it, and where none fails with the verdict on lcores and ports. -/
theorem initSmto_outcome (env : InitEnv) :
    (initSmto env).1 =
      (env.firstFailure.map (InitCall.outcome env)).getD (.returned (.code env.verdict)) := by
  by_cases hearly : env.FailsEarly
  · have hcheck := outcome_checkEnvironment env
    unfold InitEnv.firstFailure InitEnv.attemptedCalls InitEnv.verdict
    cases hblock : env.succeeds .callocControlBlock with
    | false =>
        rw [if_pos hblock] at hcheck
        have hbody : (initSmtoBody env).outcome =
            .error (.returned (.code .memoryAllocation)) := by
          rw [initSmtoBody, Procedure.bind_of_error hcheck]
        rw [initSmto_fst_of_error hbody, List.find?_cons_of_pos (by simp [hblock]),
          Option.map_some, Option.getD_some,
          InitCall.outcome_of_label_err .callocControlBlock rfl (by simp)]
        rfl
    | true =>
        rw [hblock, if_neg Bool.noConfusion] at hcheck
        rw [List.find?_cons_of_neg (by simp [hblock])]
        by_cases hrejected : env.Rejected
        · rw [if_pos hrejected, List.find?_nil, Option.map_none, Option.getD_none]
          split at hcheck
          next hcount => rw [initSmto_fst_of_check hcheck, if_pos hcount]
          next hcount =>
            have hports : env.portQuantity < 1 := hrejected.resolve_left hcount
            rw [if_pos hports] at hcheck
            rw [initSmto_fst_of_check hcheck, if_neg hcount, if_pos hports]
        · obtain ⟨hcount, hports⟩ := not_or.mp hrejected
          have hpool : env.succeeds .rtePktmbufPoolCreate = false := by
            rcases hearly with h | h | h | h
            · rw [hblock] at h
              cases h
            · exact absurd h hcount
            · exact absurd h hports
            · exact h
          rw [if_neg hcount, if_neg hports, if_pos hpool] at hcheck
          rw [if_neg hrejected, initSmto_fst_of_check hcheck,
            List.find?_cons_of_pos (by simp [hpool]), Option.map_some, Option.getD_some,
            InitCall.outcome_of_label_err .rtePktmbufPoolCreate rfl (by simp)]
          rfl
  · obtain ⟨hcount, hports⟩ := not_or.mp (not_or.mp hearly).2
    have hverdict : env.verdict = .success := by
      rw [InitEnv.verdict, if_neg hcount, if_neg (not_or.mp hports).1]
    rw [initSmto_fst_of_not_failsEarly hearly, hverdict]

end SmartOffload
