import SmartOffload.LaunchOrder

/-!
# What the ports are set up with

`setup_hairpin_queues` fills one `rte_eth_hairpin_conf` and passes it to two queues: the
transmit queue of `port_id` and the receive queue of `peer_port_id`.  Both times the peer is
`peer_port_id`, so a receive queue always has its own port for a peer, and where two ports are
in use no two hairpin queues have each other (`linked_iff_of_success`), though they are bound
by hand.

What follows the ports is done for the first one: of two ports the second is started and
polled, but gets neither default rule and no ageing event (`serviced_iff_of_success`).

Both rest on what `init_smto` may call at all (`mem_calls_of_mem`).
-/

namespace SmartOffload

variable {env : InitEnv}

/-! ### The calls of any run -/

theorem call_inj {c c' : InitCall} {b b' : Bool}
    (h : InitEvent.call c b = InitEvent.call c' b') : c = c' := (InitEvent.call.inj h).1

theorem makes_attemptCall {J : Type} (c : InitCall) (j : J) :
    (attemptCall env c j).Makes InitEvent.call [c] := .attempt call_inj

theorem makes_forM_attemptCall {J : Type} (l : List ℕ) (call : ℕ → InitCall) (j : J) :
    (l.forM fun i => attemptCall env (call i) j).Makes InitEvent.call (l.map call) := by
  rw [List.map_eq_flatMap]
  exact .forM fun i => makes_attemptCall _ _

theorem makes_initPort (portId : UInt16) :
    (initPort env portId).Makes InitEvent.call (initPortCalls env portId) := by
  refine .bind (makes_attemptCall _ _) fun _ => .bind (makes_attemptCall _ _) fun _ => ?_
  exact .bind (makes_forM_attemptCall _ _ _) fun _ =>
    .bind (makes_forM_attemptCall _ _ _) fun _ => makes_attemptCall _ _

theorem makes_setupHairpinQueues (portId peerPortId : UInt16) :
    (setupHairpinQueues env portId peerPortId).Makes InitEvent.call
      (hairpinCalls portId peerPortId) :=
  .bind (makes_attemptCall _ _) fun _ => makes_attemptCall _ _

theorem makes_configurePorts : (configurePorts env).Makes InitEvent.call (configCalls env) := by
  have hport : ∀ portId, ((initPort env portId).result : Procedure InitStop _ _).Makes
      InitEvent.call (initPortCalls env portId) := fun portId => .result (makes_initPort portId)
  have hhairpin : ∀ a b, ((setupHairpinQueues env a b).mapJump fun _ =>
      InitRet.code .hairpinSetup).Makes InitEvent.call (hairpinCalls a b) :=
    fun a b => .mapJump (makes_setupHairpinQueues a b)
  unfold configurePorts configCalls InitEnv.ports checkedPortCalls setupOnePortHairpin
    setupTwoPortHairpin
  cases env.mode with
  | singlePortMode =>
      rw [List.flatMap_singleton]
      exact .bind (hport _) fun _ => .bind (.mapJump (hhairpin _ _)) fun _ =>
        .bind (makes_attemptCall _ _) fun _ => makes_attemptCall _ _
  | doublePortMode =>
      rw [List.flatMap_cons, List.flatMap_singleton, List.append_assoc]
      refine .bind (hport _) fun _ => .bind (hport _) fun _ => ?_
      refine .bind (.mapJump (.bind (hhairpin _ _) fun _ => hhairpin _ _)) fun _ => ?_
      exact .bind (makes_attemptCall _ _) fun _ => .bind (makes_attemptCall _ _) fun _ =>
        .bind (makes_attemptCall _ _) fun _ => makes_attemptCall _ _

theorem makes_createRing (ring : SmtoRing) (label : Label) :
    (createRing env ring label).Makes InitEvent.call (ringCalls ring) :=
  .bind (makes_attemptCall _ _) fun _ => .attemptUndo call_inj
    (List.forall_mem_singleton.mpr nofun)

theorem makes_createTables : (createTables env).Makes InitEvent.call (tableCalls env) := by
  refine .bind (makes_attemptCall _ _) fun _ => .bind (makes_attemptCall _ _) fun _ => ?_
  refine .bind (makes_attemptCall _ _) fun _ => .bind (makes_createRing _ _) fun _ => ?_
  refine .bind (makes_createRing _ _) fun _ => .bind (makes_forM_attemptCall _ _ _) fun _ => ?_
  exact .bind (makes_attemptCall _ _) fun _ => .emit nofun

theorem makes_launchWorker (params : Bool) (lcoreId : UInt16) (index : ℕ) :
    (launchWorker env params lcoreId index).Makes InitEvent.call
      ((workerJob env index).toList.map (.rteEalRemoteLaunch lcoreId)) := by
  have hprocess : ∀ param, (launchProcessLoop env params lcoreId index param).Makes
      InitEvent.call [.rteEalRemoteLaunch lcoreId (.processLoop index)] := by
    intro param
    have hstore : (storeParam params index param).Makes InitEvent.call [] := by
      unfold storeParam
      split
      · exact .emit nofun
      · exact .jump _
    exact .bind hstore fun _ => makes_attemptCall _ _
  unfold launchWorker workerJob
  split
  · exact hprocess _
  · split
    · exact hprocess _
    · split
      · exact makes_attemptCall _ _
      · exact .pure _

theorem makes_launchWorkers (params : Bool) (lcores : List UInt16) : ∀ index,
    (launchWorkers env params lcores index).Makes InitEvent.call
      (launchCalls env lcores index) := by
  induction lcores with
  | nil => exact fun _ => .pure _
  | cons lcoreId rest ih =>
      exact fun index => .bind (makes_launchWorker params lcoreId index) fun _ => ih (index + 1)

theorem makes_startWorkers : (startWorkers env).Makes InitEvent.call (startCalls env) := by
  have hparams : (Procedure.emit (.call .callocWorkerParams
      (env.succeeds .callocWorkerParams)) : InitM).Makes InitEvent.call [.callocWorkerParams] :=
    fun c b hmem => List.mem_singleton.mpr (call_inj (List.mem_singleton.mp hmem))
  exact .bind hparams fun _ => makes_launchWorkers _ _ _

theorem makes_checkEnvironment : (checkEnvironment env).Makes InitEvent.call
    [.callocControlBlock, .rtePktmbufPoolCreate] := by
  have hreject : ∀ (p : Prop) [Decidable p] ret, (rejectIf p ret).Makes InitEvent.call [] := by
    intro p _ ret
    unfold rejectIf
    split
    · exact .jump _
    · exact .pure _
  exact .bind (makes_attemptCall _ _) fun _ => .bind (hreject _ _) fun _ =>
    .bind (hreject _ _) fun _ => makes_attemptCall _ _

/-- The calls under the labels. -/
def cleanupCalls (env : InitEnv) : List InitCall :=
  [.unregisterAgedEvent env.port0, .rteFlowFlush env.port0]

theorem mem_cleanupCalls {launched : Bool} {label : Label} {c : InitCall} {b : Bool}
    (h : .call c b ∈ (cleanup env launched label).events) : c ∈ cleanupCalls env := by
  have hevents := mem_cleanupEvents launched label _ h
  simp only [cleanupEvents, cleanupCalls, List.mem_cons, List.not_mem_nil, or_false,
    reduceCtorEq, InitEvent.call.injEq, false_or] at hevents ⊢
  exact hevents.imp And.left And.left

/-- **What `init_smto` may call at all**: the two calls of its checks, what it plans, and what
stands under its labels. -/
theorem mem_calls_of_mem {c : InitCall} {b : Bool} (h : .call c b ∈ (initSmto env).2) :
    c ∈ [.callocControlBlock, .rtePktmbufPoolCreate] ++ plannedCalls env ++ cleanupCalls env := by
  have hbody : (initSmtoBody env).Makes InitEvent.call
      ([.callocControlBlock, .rtePktmbufPoolCreate] ++ plannedCalls env) :=
    .bind makes_checkEnvironment fun _ => .bind makes_configurePorts fun _ =>
      .bind makes_createTables fun _ => makes_startWorkers
  rw [initSmto_snd] at h
  rcases List.mem_append.mp h with h | h
  · exact List.mem_append_left _ (hbody c b h)
  · refine List.mem_append_right _ ?_
    unfold logTail at h
    split at h
    · exact mem_cleanupCalls h
    · cases h

/-- What holds of the calls of each part holds of every call of every run. -/
theorem forall_calls {P : InitCall → Prop} (hinit : ∀ portId, ∀ c ∈ initPortCalls env portId, P c)
    (hchecked : ∀ c ∈ checkedPortCalls env, P c) (htables : ∀ c ∈ tableCalls env, P c)
    (hlaunch : ∀ lcoreId job, P (.rteEalRemoteLaunch lcoreId job))
    (hmemory : ∀ c ∈ [.callocControlBlock, .rtePktmbufPoolCreate, .callocWorkerParams], P c)
    (hcleanup : ∀ c ∈ cleanupCalls env, P c) {c : InitCall} {b : Bool}
    (h : .call c b ∈ (initSmto env).2) : P c := by
  simp only [List.forall_mem_cons] at hmemory
  have hmem := mem_calls_of_mem h
  simp only [plannedCalls, configCalls, startCalls, List.mem_append, List.mem_cons,
    List.not_mem_nil, or_false] at hmem
  rcases hmem with ((rfl | rfl) | ((hmem | hmem) | hmem | rfl | hmem)) | hmem
  · exact hmemory.1
  · exact hmemory.2.1
  · obtain ⟨portId, -, hmem⟩ := List.mem_flatMap.mp hmem
    exact hinit portId c hmem
  · exact hchecked c hmem
  · exact htables c hmem
  · exact hmemory.2.2.1
  · obtain ⟨l, -, job, rfl⟩ := exists_of_mem_launchCalls hmem
    exact hlaunch l job
  · exact hcleanup c hmem

/-! ### Hairpin queues -/

/-- The two ends of a hairpin. -/
inductive HairpinEnd where
  | tx
  | rx
  deriving DecidableEq

/-- A hairpin queue of a port; there is one for each end. -/
structure HairpinQueue where
  hairpinEnd : HairpinEnd
  portId : UInt16
  deriving DecidableEq

/-- `struct rte_eth_hairpin_conf` with its one peer. -/
structure RteEthHairpinConf where
  peerPort : UInt16
  peerQueue : ℕ
  manualBind : Bool
  txExplicit : Bool
  deriving DecidableEq

/-- `hairpin_conf` of `setup_hairpin_queues`, filled alike for both of its calls; the hairpin
queue comes after the general ones. -/
def hairpinConf (queues : ℕ) (portId peerPortId : UInt16) : RteEthHairpinConf where
  peerPort := peerPortId
  peerQueue := queues
  manualBind := portId ≠ peerPortId
  txExplicit := portId ≠ peerPortId

/-- What a call of `setup_hairpin_queues` sets up. -/
def InitCall.hairpin (queues : ℕ) : InitCall → Option (HairpinQueue × RteEthHairpinConf)
  | .rteEthTxHairpinQueueSetup portId peerPortId =>
      some (⟨.tx, portId⟩, hairpinConf queues portId peerPortId)
  | .rteEthRxHairpinQueueSetup peerPortId portId =>
      some (⟨.rx, peerPortId⟩, hairpinConf queues portId peerPortId)
  | _ => none

/-- What an event sets up. -/
def InitEvent.hairpin (queues : ℕ) : InitEvent → Option (HairpinQueue × RteEthHairpinConf)
  | .call c true => c.hairpin queues
  | _ => none

/-- How a hairpin queue is set up after a log: as it was last. -/
def hairpinConfAfter (queues : ℕ) (es : List InitEvent) (q : HairpinQueue) :
    Option RteEthHairpinConf :=
  (es.reverse.filterMap (InitEvent.hairpin queues)).lookup q

/-- The port whose hairpin queues a port of the set-up is paired with. -/
def InitEnv.hairpinPeer (env : InitEnv) (portId : UInt16) : UInt16 :=
  match env.mode with
  | .singlePortMode => portId
  | .doublePortMode => if portId = env.port0 then env.port1 else env.port0

/-- The configuration of a hairpin queue in a set-up. -/
def InitEnv.hairpinConf (env : InitEnv) : HairpinQueue → RteEthHairpinConf
  | ⟨.tx, portId⟩ => SmartOffload.hairpinConf env.queues portId (env.hairpinPeer portId)
  | ⟨.rx, portId⟩ => SmartOffload.hairpinConf env.queues (env.hairpinPeer portId) portId

theorem hairpinPeer_single (hmode : env.mode = .singlePortMode) (portId : UInt16) :
    env.hairpinPeer portId = portId := by
  rw [InitEnv.hairpinPeer, hmode]

theorem hairpinPeer_port0 (hmode : env.mode = .doublePortMode) :
    env.hairpinPeer env.port0 = env.port1 := by
  simp [InitEnv.hairpinPeer, hmode]

theorem hairpinPeer_port1 (hmode : env.mode = .doublePortMode) :
    env.hairpinPeer env.port1 = env.port0 := by
  simp only [InitEnv.hairpinPeer, hmode]
  split
  next heq => exact heq
  · rfl

/-- What a call does to hairpins is as `init_smto` means it to be. -/
def InitCall.Wires (env : InitEnv) (c : InitCall) : Prop :=
  ∀ q conf, c.hairpin env.queues = some (q, conf) → q.portId ∈ env.ports ∧ conf = env.hairpinConf q

theorem wires_of_none {c : InitCall} (h : c.hairpin env.queues = none) : c.Wires env := by
  intro q conf hc
  rw [h] at hc
  cases hc

theorem wires_initPortCalls (portId : UInt16) : ∀ c ∈ initPortCalls env portId, c.Wires env := by
  simp only [initPortCalls, List.forall_mem_cons, List.forall_mem_append, List.forall_mem_map]
  exact ⟨wires_of_none rfl, wires_of_none rfl, fun _ _ => wires_of_none rfl,
    fun _ _ => wires_of_none rfl, wires_of_none rfl, fun _ h => absurd h List.not_mem_nil⟩

theorem wires_hairpinCalls {portId peerPortId : UInt16} (hport : portId ∈ env.ports)
    (hpeer : env.hairpinPeer portId = peerPortId) (hmem : peerPortId ∈ env.ports)
    (hback : env.hairpinPeer peerPortId = portId) :
    ∀ c ∈ hairpinCalls portId peerPortId, c.Wires env := by
  simp only [hairpinCalls, List.forall_mem_cons]
  refine ⟨?_, ?_, fun _ h => absurd h List.not_mem_nil⟩
  · rintro q conf h
    obtain ⟨rfl, rfl⟩ := Prod.mk.inj (Option.some.inj h)
    exact ⟨hport, by rw [InitEnv.hairpinConf, hpeer]⟩
  · rintro q conf h
    obtain ⟨rfl, rfl⟩ := Prod.mk.inj (Option.some.inj h)
    exact ⟨hmem, by rw [InitEnv.hairpinConf, hback]⟩

theorem wires_checkedPortCalls : ∀ c ∈ checkedPortCalls env, c.Wires env := by
  unfold checkedPortCalls
  cases hmode : env.mode with
  | singlePortMode =>
      have hport : env.port0 ∈ env.ports := by simp [InitEnv.ports, hmode]
      have hpeer := hairpinPeer_single hmode env.port0
      simp only [List.forall_mem_append, List.forall_mem_cons]
      exact ⟨wires_hairpinCalls hport hpeer hport hpeer, wires_of_none rfl, wires_of_none rfl,
        fun _ h => absurd h List.not_mem_nil⟩
  | doublePortMode =>
      have hport : env.port0 ∈ env.ports := by simp [InitEnv.ports, hmode]
      have hport' : env.port1 ∈ env.ports := by simp [InitEnv.ports, hmode]
      have hpeer := hairpinPeer_port0 hmode
      have hpeer' := hairpinPeer_port1 hmode
      simp only [List.forall_mem_append, List.forall_mem_cons]
      exact ⟨⟨wires_hairpinCalls hport hpeer hport' hpeer',
          wires_hairpinCalls hport' hpeer' hport hpeer⟩,
        wires_of_none rfl, wires_of_none rfl, wires_of_none rfl, wires_of_none rfl,
        fun _ h => absurd h List.not_mem_nil⟩

theorem wires_tableCalls : ∀ c ∈ tableCalls env, c.Wires env := by
  simp only [tableCalls, ringCalls, List.forall_mem_cons, List.forall_mem_append,
    List.forall_mem_map]
  exact ⟨wires_of_none rfl, wires_of_none rfl, wires_of_none rfl,
    ⟨wires_of_none rfl, wires_of_none rfl, fun _ h => absurd h List.not_mem_nil⟩,
    ⟨wires_of_none rfl, wires_of_none rfl, fun _ h => absurd h List.not_mem_nil⟩,
    fun _ _ => wires_of_none rfl, wires_of_none rfl, fun _ h => absurd h List.not_mem_nil⟩

/-- **Every call of every run** wires a port in use to its peer. -/
theorem wires_of_mem {c : InitCall} {b : Bool} (h : .call c b ∈ (initSmto env).2) :
    c.Wires env :=
  forall_calls wires_initPortCalls wires_checkedPortCalls wires_tableCalls
    (fun _ _ => wires_of_none rfl) (by simp [InitCall.Wires, InitCall.hairpin])
    (by simp [cleanupCalls, InitCall.Wires, InitCall.hairpin]) h

/-- A run that succeeds has made every call whose result is checked. -/
theorem call_mem_of_success (h : (initSmto env).1 = .returned (.code .success)) {c : InitCall}
    (hc : c ∈ checkedPortCalls env ++ (tableCalls env ++ startCalls env)) :
    .call c true ∈ (initSmto env).2 := by
  obtain ⟨hearly, hall⟩ := initSmto_success_iff.mp h
  have hspec := spec_initSmtoRest hearly startEvents_true
  have hmem := hspec.logged (hspec.completes_iff.mpr hall) c hc
  rw [initSmto_snd, initSmtoBody_of_not_failsEarly hearly]
  exact List.mem_append_left _ (List.mem_cons_of_mem _ (List.mem_cons_of_mem _ hmem))

/-! ### The wires -/

/-- Every hairpin queue of every run is set up as it is meant to be. -/
theorem conf_of_hairpinConfAfter {es : List InitEvent} (hes : es ⊆ (initSmto env).2)
    {q : HairpinQueue} {conf : RteEthHairpinConf}
    (h : hairpinConfAfter env.queues es q = some conf) :
    q.portId ∈ env.ports ∧ conf = env.hairpinConf q := by
  rw [hairpinConfAfter, List.lookup_eq_some_iff] at h
  obtain ⟨l₁, l₂, heq, -⟩ := h
  have hmem : (q, conf) ∈ es.reverse.filterMap (InitEvent.hairpin env.queues) := by
    rw [heq]
    exact List.mem_append_right _ List.mem_cons_self
  obtain ⟨e, he, hhairpin⟩ := List.mem_filterMap.mp hmem
  unfold InitEvent.hairpin at hhairpin
  split at hhairpin
  next c => exact wires_of_mem (hes (List.mem_reverse.mp he)) q conf hhairpin
  · cases hhairpin

/-- A hairpin queue that a log sets up is set up after it. -/
theorem hairpinConfAfter_ne_none {es : List InitEvent} {c : InitCall} {q : HairpinQueue}
    {conf : RteEthHairpinConf} (h : .call c true ∈ es)
    (hc : c.hairpin env.queues = some (q, conf)) :
    hairpinConfAfter env.queues es q ≠ none := by
  intro hnone
  have hmem : (q, conf) ∈ es.reverse.filterMap (InitEvent.hairpin env.queues) :=
    List.mem_filterMap.mpr ⟨_, List.mem_reverse.mpr h, hc⟩
  have hne := List.lookup_eq_none_iff.mp hnone _ hmem
  simp at hne

/-- The call that sets a hairpin queue up. -/
def InitEnv.hairpinCall (env : InitEnv) : HairpinQueue → InitCall
  | ⟨.tx, portId⟩ => .rteEthTxHairpinQueueSetup portId (env.hairpinPeer portId)
  | ⟨.rx, portId⟩ => .rteEthRxHairpinQueueSetup portId (env.hairpinPeer portId)

theorem hairpin_hairpinCall (q : HairpinQueue) :
    (env.hairpinCall q).hairpin env.queues = some (q, env.hairpinConf q) := by
  obtain ⟨_ | _, portId⟩ := q <;> rfl

/-- It is made for every port in use. -/
theorem hairpinCall_mem {q : HairpinQueue} (hq : q.portId ∈ env.ports) :
    env.hairpinCall q ∈ checkedPortCalls env := by
  obtain ⟨hairpinEnd, portId⟩ := q
  unfold InitEnv.ports at hq
  unfold checkedPortCalls hairpinCalls
  cases hmode : env.mode with
  | singlePortMode =>
      rw [hmode] at hq
      obtain rfl := List.mem_singleton.mp hq
      cases hairpinEnd <;> simp [InitEnv.hairpinCall, hairpinPeer_single hmode]
  | doublePortMode =>
      rw [hmode] at hq
      rcases List.mem_pair.mp hq with rfl | rfl
      · cases hairpinEnd <;> simp [InitEnv.hairpinCall, hairpinPeer_port0 hmode]
      · cases hairpinEnd <;> simp [InitEnv.hairpinCall, hairpinPeer_port1 hmode]

/-- **How the hairpin queues are set up** where `init_smto` succeeds: all of them, and each
as it is meant to be. -/
theorem hairpinConfAfter_of_success (h : (initSmto env).1 = .returned (.code .success))
    (q : HairpinQueue) : hairpinConfAfter env.queues (initSmto env).2 q =
      if q.portId ∈ env.ports then some (env.hairpinConf q) else none := by
  split
  next hq =>
    have hmem := call_mem_of_success h (List.mem_append_left _ (hairpinCall_mem hq))
    obtain ⟨conf, hconf⟩ := Option.ne_none_iff_exists'.mp
      (hairpinConfAfter_ne_none hmem (hairpin_hairpinCall q))
    rw [hconf, (conf_of_hairpinConfAfter (List.Subset.refl _) hconf).2]
  next hq =>
    by_contra hsome
    obtain ⟨conf, hconf⟩ := Option.ne_none_iff_exists'.mp hsome
    exact hq (conf_of_hairpinConfAfter (List.Subset.refl _) hconf).1

/-- **Two hairpin queues have each other**: the transmit queue of the one port and the receive
queue of the other are set up, each with the other for its peer. -/
def Linked (queues : ℕ) (es : List InitEvent) (txPort rxPort : UInt16) : Prop :=
  (∃ conf, hairpinConfAfter queues es ⟨.tx, txPort⟩ = some conf ∧ conf.peerPort = rxPort ∧
    conf.peerQueue = queues) ∧
  ∃ conf, hairpinConfAfter queues es ⟨.rx, rxPort⟩ = some conf ∧ conf.peerPort = txPort ∧
    conf.peerQueue = queues

/-- A port in use is its own peer exactly if it is the only one. -/
theorem hairpinPeer_self_iff {portId : UInt16} (h : portId ∈ env.ports) :
    env.hairpinPeer portId = portId ↔ env.mode = .singlePortMode ∨ env.port0 = env.port1 := by
  unfold InitEnv.ports at h
  cases hmode : env.mode with
  | singlePortMode => exact iff_of_true (hairpinPeer_single hmode portId) (Or.inl rfl)
  | doublePortMode =>
      rw [hmode] at h
      rw [or_iff_right nofun]
      rcases List.mem_pair.mp h with rfl | rfl
      · rw [hairpinPeer_port0 hmode]
        exact eq_comm
      · rw [hairpinPeer_port1 hmode]

/-- **Hairpins across ports have no other end.**  Whatever hairpin queue a run sets up is one of
a port in use, with the configuration of its own; and where `init_smto` succeeds, a transmit and
a receive queue have each other exactly if they are those of one port in use, and there is no
second one. -/
theorem linked_iff_of_success (env : InitEnv) :
    (∀ c ok, .call c ok ∈ (initSmto env).2 → c.Wires env) ∧
      ((initSmto env).1 = .returned (.code .success) → ∀ txPort rxPort,
        (Linked env.queues (initSmto env).2 txPort rxPort ↔
          txPort = rxPort ∧ txPort ∈ env.ports ∧
            (env.mode = .singlePortMode ∨ env.port0 = env.port1))) := by
  refine ⟨fun _ _ => wires_of_mem, fun h txPort rxPort => ⟨?_, ?_⟩⟩
  · rintro ⟨⟨conf, htx, hpeer, -⟩, conf', hrx, hpeer', -⟩
    obtain ⟨hport, rfl⟩ := conf_of_hairpinConfAfter (List.Subset.refl _) htx
    obtain ⟨-, rfl⟩ := conf_of_hairpinConfAfter (List.Subset.refl _) hrx
    -- a receive queue has its own port for a peer
    obtain rfl : rxPort = txPort := hpeer'
    exact ⟨rfl, hport, (hairpinPeer_self_iff hport).mp hpeer⟩
  · rintro ⟨rfl, hport, hone⟩
    have hconf := hairpinConfAfter_of_success h
    have hpeer := (hairpinPeer_self_iff hport).mpr hone
    exact ⟨⟨_, (hconf ⟨.tx, txPort⟩).trans (if_pos hport), hpeer, rfl⟩,
      _, (hconf ⟨.rx, txPort⟩).trans (if_pos hport), rfl, rfl⟩

/-- Two ports: the queues that are bound do not have each other. -/
theorem not_linked_twoPorts : ¬ Linked 1 (initSmto (threeLcoresEnv 2 fun _ => true)).2 0 1 :=
  fun h => absurd (((linked_iff_of_success _).2 (initSmto_threeLcoresEnv 2 (by decide))
    0 1).mp h).1 (by decide)

/-! ### What only the first port gets -/

/-- What makes frames of a port reach the workers, and its timeouts the handler. -/
def serviceCalls (portId : UInt16) : List InitCall :=
  [.createDefaultJumpFlow portId, .createDefaultRssFlow portId, .registerAgedEvent portId]

/-- The port a call is a service to. -/
def InitCall.servicePort : InitCall → Option UInt16
  | .createDefaultJumpFlow portId => some portId
  | .createDefaultRssFlow portId => some portId
  | .registerAgedEvent portId => some portId
  | _ => none

/-- No run does another port a service. -/
theorem servicePort_of_mem {c : InitCall} {b : Bool} (h : .call c b ∈ (initSmto env).2) :
    ∀ portId ∈ c.servicePort, portId = env.port0 := by
  refine forall_calls (P := fun c => ∀ portId ∈ c.servicePort, portId = env.port0) ?_ ?_ ?_ ?_ ?_
    ?_ h
  · simp only [initPortCalls, List.forall_mem_cons, List.forall_mem_append, List.forall_mem_map]
    simp [InitCall.servicePort]
  · unfold checkedPortCalls hairpinCalls
    cases env.mode <;> simp [InitCall.servicePort]
  · simp only [tableCalls, ringCalls, List.forall_mem_cons, List.forall_mem_append,
      List.forall_mem_map]
    simp [InitCall.servicePort]
  · simp [InitCall.servicePort]
  · simp [InitCall.servicePort]
  · simp [cleanupCalls, InitCall.servicePort]

/-- Every port in use is started. -/
theorem devStart_mem {portId : UInt16} (h : portId ∈ env.ports) :
    .rteEthDevStart portId ∈ checkedPortCalls env := by
  unfold InitEnv.ports at h
  unfold checkedPortCalls
  cases hmode : env.mode with
  | singlePortMode =>
      rw [hmode] at h
      obtain rfl := List.mem_singleton.mp h
      simp
  | doublePortMode =>
      rw [hmode] at h
      rcases List.mem_pair.mp h with rfl | rfl <;> simp

/-- **Only the first port is serviced.**  Where `init_smto` succeeds every port in use is
started, and each of the services is done exactly to the first port. -/
theorem serviced_iff_of_success (h : (initSmto env).1 = .returned (.code .success))
    {portId : UInt16} (hport : portId ∈ env.ports) :
    .call (.rteEthDevStart portId) true ∈ (initSmto env).2 ∧
      ∀ c ∈ serviceCalls portId, .call c true ∈ (initSmto env).2 ↔ portId = env.port0 := by
  refine ⟨call_mem_of_success h (List.mem_append_left _ (devStart_mem hport)), fun c hc => ?_⟩
  constructor
  · intro hmem
    have hport : c.servicePort = some portId := by
      simp only [serviceCalls, List.mem_cons, List.not_mem_nil, or_false] at hc
      rcases hc with rfl | rfl | rfl <;> rfl
    exact servicePort_of_mem hmem portId hport
  · rintro rfl
    have htable : c ∈ tableCalls env := by
      simp only [serviceCalls, List.mem_cons, List.not_mem_nil, or_false] at hc
      rcases hc with rfl | rfl | rfl <;> simp [tableCalls]
    exact call_mem_of_success h (List.mem_append_right _ (List.mem_append_left _ htable))

/-- Two ports: no frame of the second one is spread over queues. -/
theorem serviced_twoPorts :
    .call (.createDefaultRssFlow 1) true ∉ (initSmto (threeLcoresEnv 2 fun _ => true)).2 := by
  have hport : (1 : UInt16) ∈ (threeLcoresEnv 2 fun _ => true).ports := by decide
  intro hmem
  exact absurd (((serviced_iff_of_success (initSmto_threeLcoresEnv 2 (by decide)) hport).2 _
    (List.mem_cons_of_mem _ List.mem_cons_self)).mp hmem) (by decide)

end SmartOffload
