import SmartOffload.FlowKey
import SmartOffload.Lib.Ledger
import SmartOffload.Lib.Procedure

/-!
# Initialisation

`init_smto` of `smto.c` with `init_port` and the hairpin setup of `smto_setup.c`, as a
procedure of fallible calls.  An `InitEnv` is what the environment decides: the lcores,
the ports, and how every call turns out.  `GENERAL_QUEUES_QUANTITY` is a parameter.

The log of a procedure holds its calls, the writes to `worker_params`, and what is freed.
The results of `init_port` are dropped, the one of `calloc` for `worker_params` is not
checked, and every other failure jumps to one of six labels, from which the cleanup runs
(`cleanup`).  It may not come to its end: at `err1` it reads an error that a successful
`rte_flow_flush` leaves uninitialised, at `err2` it calls `destroy_hash_map`, and before
either it waits for workers whose parameters it has freed.  What the calls are about
(descriptors, offloads, hairpin configurations, RSS keys) is not modelled, nor what the
workers do while `init_smto` goes on; a write past the end of `worker_params` is logged,
and taken to go on.
-/

namespace SmartOffload

/-- `struct worker_parameter`. -/
structure WorkerParameter where
  portId : UInt16
  queueId : UInt16
  deriving DecidableEq, Repr

/-- What `rte_eal_remote_launch` is given: a function and its argument. -/
inductive WorkerJob where
  /-- `process_loop(&worker_params[index])`. -/
  | processLoop (index : ℕ)
  | createFlowLoop
  deriving DecidableEq, Repr

/-- The rings of the control block. -/
inductive SmtoRing where
  | flowRulesRing
  | portPool
  deriving DecidableEq, Repr

/-- The calls whose result says whether they succeeded. -/
inductive InitCall where
  /-- `calloc(sizeof(struct smto), 1)`. -/
  | callocControlBlock
  | rtePktmbufPoolCreate
  | rteEthDevInfoGet (portId : UInt16)
  | rteEthDevConfigure (portId : UInt16)
  | rteEthRxQueueSetup (portId : UInt16) (queueId : ℕ)
  | rteEthTxQueueSetup (portId : UInt16) (queueId : ℕ)
  | rteEthPromiscuousEnable (portId : UInt16)
  | rteEthTxHairpinQueueSetup (portId peerPortId : UInt16)
  | rteEthRxHairpinQueueSetup (portId peerPortId : UInt16)
  | rteEthDevStart (portId : UInt16)
  | assertLinkStatus (portId : UInt16)
  | rteEthHairpinBind (txPort rxPort : UInt16)
  | createDefaultJumpFlow (portId : UInt16)
  | createDefaultRssFlow (portId : UInt16)
  | rteHashCreate
  | rteCalloc (ring : SmtoRing)
  | rteRingInit (ring : SmtoRing)
  /-- `rte_ring_enqueue(port_pool, i)`. -/
  | rteRingEnqueue (i : ℕ)
  | registerAgedEvent (portId : UInt16)
  /-- `calloc(sizeof(struct worker_parameter), GENERAL_QUEUES_QUANTITY)`. -/
  | callocWorkerParams
  | rteEalRemoteLaunch (lcoreId : UInt16) (job : WorkerJob)
  | unregisterAgedEvent (portId : UInt16)
  | rteFlowFlush (portId : UInt16)
  deriving DecidableEq, Repr

/-- What `init_smto` acquires. -/
inductive Resource where
  | controlBlock
  | mbufPool
  | startedPort (portId : UInt16)
  | hairpinBinding (txPort rxPort : UInt16)
  | jumpFlow (portId : UInt16)
  | rssFlow (portId : UInt16)
  | hashTable
  | ring (ring : SmtoRing)
  | agedCallback (portId : UInt16)
  | workerParams
  | worker (lcoreId : UInt16)
  deriving DecidableEq, Repr

/-- What the log shows. -/
inductive InitEvent where
  | call (c : InitCall) (ok : Bool)
  /-- `worker_params[index] = param`. -/
  | param (index : ℕ) (param : WorkerParameter)
  /-- `smto_cb->is_running = b`. -/
  | running (b : Bool)
  /-- `free`, `rte_free` and `rte_hash_free`. -/
  | free (r : Resource)
  /-- `rte_eal_mp_wait_lcore`. -/
  | waitLcore
  deriving DecidableEq, Repr

/-- What `rte_eth_link_get` answers. -/
inductive LinkAnswer where
  | error
  | down
  | up
  deriving DecidableEq, Repr

/-- What becomes of the workers that run when a launch fails, until they have stopped. -/
inductive WorkersEnd where
  /-- They leave the flow table empty. -/
  | tableEmpty
  /-- They leave a flow in the table. -/
  | tableFilled
  /-- One reads its parameter after it has been freed, and crashes. -/
  | crashed
  deriving DecidableEq, Repr

/-- **What the environment decides.** -/
structure InitEnv where
  /-- `GENERAL_QUEUES_QUANTITY`. -/
  queues : ℕ
  /-- The lcores of `RTE_LCORE_FOREACH_WORKER`, in order; the main lcore is not one. -/
  lcores : List UInt16
  /-- `rte_eth_dev_count_avail()`. -/
  portQuantity : UInt16
  /-- `rte_eth_find_next_owned_by`, the first time. -/
  port0 : UInt16
  /-- `rte_eth_find_next_owned_by`, the second time. -/
  port1 : UInt16
  ok : InitCall → Bool
  /-- `rte_eth_link_get` of a port, time after time. -/
  link : UInt16 → ℕ → LinkAnswer
  workersEnd : WorkersEnd
  /-- Uninitialised, `flow_error` has a type other than `RTE_FLOW_ERROR_TYPE_NONE`, and a
  message that cannot be printed. -/
  flowErrorCrash : Bool
  queues_pos : 0 < queues
  lcores_nodup : lcores.Nodup

/-! ### The link check -/

/-- `MAX_REPEAT_TIMES`. -/
def maxRepeatTimes : ℕ := 90

/-- The loop of `assert_link_status`, with `repCnt` rounds to go: whether `ret < 0`, and
whether `link.link_status` is up, when it ends. -/
def linkLoop (answers : ℕ → LinkAnswer) (failed up : Bool) (i : ℕ) : ℕ → Bool × Bool
  | 0 => (failed, up)
  | repCnt + 1 =>
      match answers i with
      | .up => (false, true)
      | .down => linkLoop answers false false (i + 1) repCnt
      | .error => linkLoop answers true up (i + 1) repCnt

/-- `assert_link_status`. -/
def assertLinkStatus (answers : ℕ → LinkAnswer) : SmtoErrorCode :=
  match linkLoop answers false false 0 maxRepeatTimes with
  | (true, _) => .deviceStart
  | (false, false) => .deviceStart
  | (false, true) => .success

/-- The loop ends with the link up exactly when some round sees it so. -/
theorem linkLoop_eq_up_iff (answers : ℕ → LinkAnswer) (repCnt : ℕ) :
    ∀ (failed : Bool) (i : ℕ), linkLoop answers failed false i repCnt = (false, true) ↔
      ∃ n < repCnt, answers (i + n) = .up := by
  induction repCnt with
  | zero => intro failed i; simp [linkLoop]
  | succ repCnt ih =>
      intro failed i
      -- the first round, or one of the others
      have hsplit : (∃ n < repCnt + 1, answers (i + n) = .up) ↔
          answers i = .up ∨ ∃ n < repCnt, answers (i + 1 + n) = .up := by
        rw [Nat.exists_lt_succ_left]
        simp only [Nat.add_zero, Nat.add_assoc, Nat.add_comm 1]
      rw [hsplit, linkLoop]
      split
      next hup => simp [hup]
      next hdown => rw [ih]; simp [hdown]
      next herror => rw [ih]; simp [herror]

/-- **The link check** passes exactly when one of its attempts sees the link up. -/
theorem assertLinkStatus_eq_success_iff (answers : ℕ → LinkAnswer) :
    assertLinkStatus answers = .success ↔ ∃ n < maxRepeatTimes, answers n = .up := by
  have hiff := linkLoop_eq_up_iff answers maxRepeatTimes false 0
  simp only [Nat.zero_add] at hiff
  rw [← hiff, assertLinkStatus]
  split <;> simp_all

/-! ### The code -/

/-- What `init_smto` or one of its functions returns: a code of its own, or the negative
result of a call, handed on. -/
inductive InitRet where
  | code (code : SmtoErrorCode)
  | errno (c : InitCall)
  deriving DecidableEq, Repr

/-- The cleanup labels of `init_smto`. -/
inductive Label where
  | err
  | err1
  | err2
  | err3
  | err4
  | err5
  deriving DecidableEq, Repr

/-- How `init_smto` leaves its straight line. -/
inductive InitStop where
  | returned (ret : InitRet)
  | goto (ret : InitRet) (label : Label)
  /-- NULL is dereferenced. -/
  | crashed
  deriving DecidableEq, Repr

/-- The functions of `smto_setup.c`. -/
abbrev SetupM := Procedure InitRet InitEvent Unit

/-- The parts of `init_smto`. -/
abbrev InitM := Procedure InitStop InitEvent Unit

variable (env : InitEnv)

/-- How a call turns out. -/
def InitEnv.succeeds : InitCall → Bool
  | .assertLinkStatus portId => assertLinkStatus (env.link portId) = .success
  | c => env.ok c

/-- `smto_cb->mode`. -/
def InitEnv.mode : SmtoMode := if env.portQuantity = 1 then .singlePortMode else .doublePortMode

/-- `rte_lcore_count()`. -/
def InitEnv.rteLcoreCount : ℕ := env.lcores.length + 1

/-- `if (c(…)) { … return ret; }`, and the same with `goto`. -/
def attemptCall {J : Type} (c : InitCall) (j : J) : Procedure J InitEvent Unit :=
  .attempt env.succeeds .call c j

/-- `init_port`. -/
def initPort (portId : UInt16) : SetupM := do
  attemptCall env (.rteEthDevInfoGet portId) (.code .deviceConfigure)
  attemptCall env (.rteEthDevConfigure portId) (.code .deviceConfigure)
  (List.range env.queues).forM fun i =>
    attemptCall env (.rteEthRxQueueSetup portId i) (.code .queueSetup)
  (List.range env.queues).forM fun i =>
    attemptCall env (.rteEthTxQueueSetup portId i) (.code .queueSetup)
  attemptCall env (.rteEthPromiscuousEnable portId) (.code .deviceConfigure)

/-- `setup_hairpin_queues`. -/
def setupHairpinQueues (portId peerPortId : UInt16) : SetupM := do
  let tx := .rteEthTxHairpinQueueSetup portId peerPortId
  attemptCall env tx (.errno tx)
  let rx := .rteEthRxHairpinQueueSetup peerPortId portId
  attemptCall env rx (.errno rx)

/-- `setup_one_port_hairpin`. -/
def setupOnePortHairpin (portId : UInt16) : SetupM :=
  (setupHairpinQueues env portId portId).mapJump fun _ => .code .hairpinSetup

/-- `setup_two_port_hairpin`. -/
def setupTwoPortHairpin (portId peerPortId : UInt16) : SetupM := do
  (setupHairpinQueues env portId peerPortId).mapJump fun _ => .code .hairpinSetup
  (setupHairpinQueues env peerPortId portId).mapJump fun _ => .code .hairpinSetup

/-- `if (…) { ret = …; goto err; }`. -/
def rejectIf (p : Prop) [Decidable p] (ret : SmtoErrorCode) : InitM :=
  if p then .jump (.goto (.code ret) .err) else pure ()

/-- `init_smto` as far as the memory pool. -/
def checkEnvironment : InitM := do
  attemptCall env .callocControlBlock (.returned (.code .memoryAllocation))
  rejectIf (env.rteLcoreCount < env.queues + 2) .noEnoughWorker
  rejectIf (env.portQuantity < 1) .noAvailablePorts
  attemptCall env .rtePktmbufPoolCreate (.goto (.code .hugePageMemoryAllocation) .err)

/-- A call whose own result is returned. -/
def attemptErrno (c : InitCall) : InitM := attemptCall env c (.goto (.errno c) .err)

/-- The ports of `init_smto`, up to their links or bindings.  `init_port` is called for its
effects. -/
def configurePorts : InitM :=
  match env.mode with
  | .singlePortMode => do
      let _ ← (initPort env env.port0).result
      (setupOnePortHairpin env env.port0).mapJump fun ret => .goto ret .err
      attemptErrno env (.rteEthDevStart env.port0)
      attemptCall env (.assertLinkStatus env.port0) (.goto (.code .deviceStart) .err)
  | .doublePortMode => do
      let _ ← (initPort env env.port0).result
      let _ ← (initPort env env.port1).result
      (setupTwoPortHairpin env env.port0 env.port1).mapJump fun ret => .goto ret .err
      attemptErrno env (.rteEthDevStart env.port0)
      attemptErrno env (.rteEthDevStart env.port1)
      attemptErrno env (.rteEthHairpinBind env.port0 env.port1)
      attemptErrno env (.rteEthHairpinBind env.port1 env.port0)

/-- A ring is allocated, then initialised; where that fails it is freed on the spot. -/
def createRing (ring : SmtoRing) (label : Label) : InitM := do
  attemptCall env (.rteCalloc ring) (.goto (.code .hugePageMemoryAllocation) label)
  .attemptUndo env.succeeds .call (.rteRingInit ring) [.free (.ring ring)]
    (.goto (.code .ringCreation) label)

/-- `init_smto` from the default flow rules to the aged-flow event. -/
def createTables : InitM := do
  attemptCall env (.createDefaultJumpFlow env.port0) (.goto (.code .flowCreate) .err)
  attemptCall env (.createDefaultRssFlow env.port0) (.goto (.code .flowCreate) .err1)
  attemptCall env .rteHashCreate (.goto (.code .hashMapCreation) .err1)
  createRing env .flowRulesRing .err2
  createRing env .portPool .err3
  (List.range' 1 (maxHashEntries - 1)).forM fun i =>
    attemptCall env (.rteRingEnqueue i) (.goto (.code .ringCreation) .err4)
  attemptCall env (.registerAgedEvent env.port0) (.goto (.code .eventRegister) .err4)
  .emit (.running true)

/-- `rte_eal_remote_launch` for an lcore. -/
def remoteLaunch (lcoreId : UInt16) (job : WorkerJob) : InitM :=
  attemptCall env (.rteEalRemoteLaunch lcoreId job) (.goto (.code .workerLaunch) .err5)

/-- `worker_params[index] = param`, where there is an array. -/
def storeParam (params : Bool) (index : ℕ) (param : WorkerParameter) : InitM :=
  if params then .emit (.param index param) else .jump .crashed

/-- A packet worker: its parameter is written, and it is launched. -/
def launchProcessLoop (params : Bool) (lcoreId : UInt16) (index : ℕ) (param : WorkerParameter) :
    InitM := do
  storeParam params index param
  remoteLaunch env lcoreId (.processLoop index)

/-- The body of the launch loop. -/
def launchWorker (params : Bool) (lcoreId : UInt16) (index : ℕ) : InitM :=
  if index < env.queues then
    launchProcessLoop env params lcoreId index ⟨env.port0, UInt16.ofNat index⟩
  else if env.mode = .doublePortMode ∧ index < 2 * env.queues then
    launchProcessLoop env params lcoreId index ⟨env.port1, UInt16.ofNat (index - env.queues)⟩
  else if (env.mode = .singlePortMode ∧ index = env.queues) ∨
      (env.mode = .doublePortMode ∧ index = env.queues * 2) then
    remoteLaunch env lcoreId .createFlowLoop
  else pure ()

/-- The launch loop: `index` counts the lcores.  There are fewer than `2 ^ 16` of them, so
it does not wrap. -/
def launchWorkers (params : Bool) : List UInt16 → ℕ → InitM
  | [], _ => pure ()
  | lcoreId :: rest, index => do
      launchWorker env params lcoreId index
      launchWorkers params rest (index + 1)

/-- `init_smto` from the worker parameters on; whether there are any is not checked. -/
def startWorkers : InitM := do
  .emit (.call .callocWorkerParams (env.succeeds .callocWorkerParams))
  launchWorkers env (env.succeeds .callocWorkerParams) env.lcores 0

/-- `init_smto` from the memory pool on. -/
def initSmtoRest : InitM := do
  configurePorts env
  createTables env
  startWorkers env

/-- The straight line of `init_smto`. -/
def initSmtoBody : InitM := do
  checkEnvironment env
  initSmtoRest env

/-- How a run of `init_smto` ends. -/
inductive InitOutcome where
  | returned (ret : InitRet)
  | crashed
  /-- It never does. -/
  | hangs
  deriving DecidableEq, Repr

/-- A worker has been launched. -/
def workersLaunched (es : List InitEvent) : Bool :=
  es.any fun
    | .call (.rteEalRemoteLaunch _ _) ok => ok
    | _ => false

/-- The parts of the cleanup, which jumps only to where it does not go on. -/
abbrev CleanupM := Procedure InitOutcome InitEvent Unit

/-- What stands under a label, where workers have been launched or not. -/
def Label.body (launched : Bool) : Label → CleanupM
  | .err5 => do
      .emit (.free .workerParams)
      .emit (.running false)
      .emit (.call (.unregisterAgedEvent env.port0)
        (env.succeeds (.unregisterAgedEvent env.port0)))
      if launched ∧ env.workersEnd = .crashed then .jump .crashed else .emit .waitLcore
  | .err4 => .emit (.free (.ring .portPool))
  | .err3 => .emit (.free (.ring .flowRulesRing))
  | .err2 =>
      -- the loop of `destroy_hash_map` does not end on a table with a flow in it
      if launched ∧ env.workersEnd = .tableFilled then .jump .hangs
      else .emit (.free .hashTable)
  | .err1 => do
      .emit (.call (.rteFlowFlush env.port0) (env.succeeds (.rteFlowFlush env.port0)))
      -- only a flush that fails fills `flow_error` in
      if env.succeeds (.rteFlowFlush env.port0) ∧ env.flowErrorCrash then .jump .crashed
      else pure ()
  | .err => .emit (.free .controlBlock)

/-- A jump to a label runs everything from there on. -/
def cleanup (launched : Bool) (label : Label) : CleanupM :=
  ([.err5, .err4, .err3, .err2, .err1, .err].dropWhile (· ≠ label)).forM
    (Label.body env launched)

/-- How `init_smto` ends after a jump: with the error that led there, if the cleanup comes to
its end. -/
def InitOutcome.ofCleanup (ret : InitRet) : Except InitOutcome Unit → InitOutcome
  | .ok _ => .returned ret
  | .error outcome => outcome

/-- **`init_smto`**: how it ends, and its log. -/
def initSmto : InitOutcome × List InitEvent :=
  let body := initSmtoBody env
  match body.outcome with
  | .ok _ => (.returned (.code .success), body.events)
  | .error (.returned ret) => (.returned ret, body.events)
  | .error (.goto ret label) =>
      let rest := cleanup env (workersLaunched body.events) label
      (.ofCleanup ret rest.outcome, body.events ++ rest.events)
  | .error .crashed => (.crashed, body.events)

end SmartOffload
