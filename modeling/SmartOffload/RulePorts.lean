import SmartOffload.Pairing

/-!
# The ports of the rules

A frame of a flow arrives on one port, frames of the other direction on the other
one, and either direction may be the first to have enough packets.  The ring
carries the address of the key and nothing else, so the engine cannot tell which
it was: it installs the rule of the dequeued key on `ports[0]` and that of the
partner on `ports[1]`.

`trackedMachine` is the system with one thing added: next to every key that waits
stands the port of the worker that enqueued it.  The rules of a run are then where
their frames arrive exactly when every key that gets a rule was enqueued by a
worker of the first port (`rulesRight_iff`).
-/

namespace SmartOffload

/-- The system, and the keys that wait with the port whose frame had them enqueued. -/
structure Tracked where
  world : World
  queue : List (KeyPtr × UInt16)

/-- The other one of the two ports. -/
def World.otherPort (w : World) (portId : UInt16) : UInt16 :=
  if portId = w.port0 then w.port1 else w.port0

/-- A rule the engine installs: whether it is for the key it dequeued or for the
partner, the port of the worker that enqueued that key, the other port, and the
port the rule is on. -/
structure RuleInstalled where
  dequeued : Bool
  workerPort : UInt16
  otherPort : UInt16
  rulePort : UInt16
  deriving DecidableEq, Repr

/-- **The rule is where its frames arrive**: on the port of the worker, or, for the
partner, on the other port. -/
def RuleInstalled.Right (r : RuleInstalled) : Prop :=
  r.rulePort = if r.dequeued then r.workerPort else r.otherPort

instance : DecidablePred RuleInstalled.Right := fun _ => inferInstanceAs (Decidable (_ = _))

/-- A rule installed for a key that a worker of a port enqueued. -/
def ruleInstalled (w : World) (k : KeyPtr) (workerPort : UInt16) (r : RteFlow) :
    RuleInstalled where
  dequeued := decide (r.ageContext = some k)
  workerPort := workerPort
  otherPort := w.otherPort workerPort
  rulePort := r.portId

/-- The rules an event installs; only the engine does, for the key at the head of the
queue. -/
def rulesInstalled (s : Tracked) (w' : World) : OffloadEvent → List RuleInstalled
  | .flowEngine _ _ =>
      match s.queue with
      | [] => []
      | (k, workerPort) :: _ =>
          (s.world.nic.installedSince w'.nic).map (ruleInstalled s.world k workerPort)
  | _ => []

/-- Who enqueued what waits after an event: what a packet adds to the queue, the worker
of its port added. -/
def queueAfter (s : Tracked) (w' : World) : OffloadEvent → List (KeyPtr × UInt16)
  | .packet portId _ _ => s.queue ++ (w'.pending.drop s.queue.length).map (·, portId)
  | .flowEngine _ _ => s.queue.tail
  | _ => s.queue

/-- Frames are processed on the ports in use. -/
def OnPortInUse (w : World) : OffloadEvent → Prop
  | .packet portId _ _ => portId ∈ w.portsInUse
  | _ => True

instance (w : World) : DecidablePred (OnPortInUse w)
  | .packet portId _ _ => inferInstanceAs (Decidable (portId ∈ w.portsInUse))
  | .dequeueBurst => inferInstanceAs (Decidable True)
  | .flowEngine _ _ => inferInstanceAs (Decidable True)
  | .ageing _ _ => inferInstanceAs (Decidable True)
  | .traffic _ _ _ => inferInstanceAs (Decidable True)
  | .timeout _ => inferInstanceAs (Decidable True)

/-- One event. -/
def trackedStep (s : Tracked) (e : OffloadEvent) : Option (Tracked × List RuleInstalled) :=
  if OnPortInUse s.world e then
    match offloadStep s.world e with
    | none => none
    | some (w', _) => some (⟨w', queueAfter s w' e⟩, rulesInstalled s w' e)
  else none

/-- **The system with its queue annotated**, in `DOUBLE_PORT_MODE`. -/
def trackedMachine : Machine Tracked OffloadEvent RuleInstalled where
  Init s := offloadMachine.Init s.world ∧ s.world.mode = .doublePortMode ∧ s.queue = []
  step := trackedStep

/-- A step of the annotated system is a step of the system. -/
theorem step_of_trackedStep {s s' : Tracked} {e : OffloadEvent} {os : List RuleInstalled}
    (h : trackedStep s e = some (s', os)) :
    (∃ tr, offloadStep s.world e = some (s'.world, tr)) ∧ OnPortInUse s.world e ∧
      s'.queue = queueAfter s s'.world e ∧ os = rulesInstalled s s'.world e := by
  unfold trackedStep at h
  split at h
  next hport =>
    split at h
    · cases h
    next w' tr hstep =>
      obtain ⟨rfl, rfl⟩ := Prod.mk.inj (Option.some.inj h)
      exact ⟨⟨tr, hstep⟩, hport, rfl, rfl⟩
  · cases h

/-- Runs of the annotated system are runs of the system. -/
theorem run_of_trackedRun {s₀ s : Tracked} {es : List OffloadEvent} {tr : List RuleInstalled}
    (h : trackedMachine.Run s₀ es tr s) : ∃ tr', offloadMachine.Run s₀.world es tr' s.world := by
  induction h with
  | nil => exact ⟨[], .nil _⟩
  | snoc _ _ hstep ih =>
      obtain ⟨tr', hrun⟩ := ih
      obtain ⟨⟨os, hstep'⟩, -⟩ := step_of_trackedStep hstep
      exact ⟨_, hrun.snoc hstep'⟩

/-- The annotated queue is the queue, and the system has two ports. -/
structure TrackedInv (s : Tracked) : Prop where
  flow : FlowInv s.world
  queue : s.queue.map Prod.fst = s.world.pending
  mode : s.world.mode = .doublePortMode
  ports : s.world.port0 ≠ s.world.port1

theorem trackedInv_of_init {s : Tracked} (h : trackedMachine.Init s) : TrackedInv s := by
  obtain ⟨hinit, hmode, hqueue⟩ := h
  refine ⟨flowInv_of_init hinit, ?_, hmode, ?_⟩
  · obtain ⟨mode, port0, port1, portPool, readSpec, -, -, hw⟩ := hinit
    rw [hqueue, hw]
    simp [World.pending, initialWorld, rteRingInit]
  · obtain ⟨mode, port0, port1, portPool, readSpec, hports, -, hw⟩ := hinit
    rw [hw] at hmode ⊢
    exact hports hmode

/-- A packet only adds to the queue. -/
theorem pending_of_packet {w w' : World} {portId : UInt16} {m : RteMbuf} {env : PacketEnv}
    {os : List Obs} (h : Stepped w (.packet portId m env) w' os) :
    w.pending <+: w'.pending := by
  cases h with
  | ignored _ => exact List.prefix_rfl
  | opened _ hr =>
      obtain ⟨-, -, hpending, -⟩ := frame_of_createFlow hr
      simp only [hpending, List.prefix_rfl]
  | @known _ _ _ k _ =>
      rcases requestOffload_cases (countPacket w k m.pktLen) k with heq | ⟨ring, -, henq, heq⟩
      · simp only [heq, countPacket_pending, List.prefix_rfl]
      · rw [heq, pending_of_enqueue henq, countPacket_pending]
        exact List.prefix_append _ _

/-- **The annotation stays in step with the queue.** -/
theorem queueAfter_map_fst {s : Tracked} {w' : World} {e : OffloadEvent} {os : List Obs}
    (hqueue : s.queue.map Prod.fst = s.world.pending) (h : Stepped s.world e w' os) :
    (queueAfter s w' e).map Prod.fst = w'.pending := by
  cases e with
  | packet portId m env =>
      obtain ⟨added, hadded⟩ := pending_of_packet h
      have hlength : s.queue.length = s.world.pending.length := by
        rw [← hqueue, List.length_map]
      simp only [queueAfter]
      rw [← hadded, hlength, List.drop_left, List.map_append, hqueue, List.map_map]
      simp [Function.comp_def]
  | dequeueBurst =>
      cases h with
      | dequeued hburst => rw [dequeueFlowRules_pending hburst]; exact hqueue
  | flowEngine ok okSymmetrical =>
      cases h with
      | engine hburst hbody =>
          simp only [queueAfter]
          rw [createFlowLoopBody_pending hbody, List.map_tail, hqueue]
          simp [World.pending, hburst]
  | ageing portId aged =>
      cases h with
      | aged _ => rw [deleteTimeoutFlows_pending]; exact hqueue
  | traffic flow hits bytes =>
      cases h with
      | traffic _ _ _ => exact hqueue
  | timeout flow =>
      cases h with
      | timeout _ => exact hqueue

theorem trackedInv_step {s s' : Tracked} {e : OffloadEvent} {os : List RuleInstalled}
    (hinv : TrackedInv s) (h : trackedMachine.step s e = some (s', os)) : TrackedInv s' := by
  obtain ⟨⟨tr, hstep⟩, -, hqueue, -⟩ := step_of_trackedStep h
  have hstepped := stepped_of_step hstep
  obtain ⟨hmode, hport0, hport1⟩ := config_of_stepped hstepped
  refine ⟨flowInv_step hinv.flow hstepped, ?_, hmode.trans hinv.mode, ?_⟩
  · rw [hqueue]
    exact queueAfter_map_fst hinv.queue hstepped
  · rw [hport0, hport1]
    exact hinv.ports

/-! ### Where the rules go -/

/-- **The rules of one iteration**: none; that of the key, on the first port; or also
that of its partner, on the port of symmetrical flows. -/
theorem installedSince_createFlowLoopBody {w w' : World} {k partner : KeyPtr}
    {ok okSymmetrical : Bool} (hlink : (w.keys k).symmetricalFlowKey = some partner)
    (h : createFlowLoopBody w k ok okSymmetrical = some w') :
    ¬ (ok = true ∧ Offloadable (w.keys k)) ∧ w.nic.installedSince w'.nic = [] ∨
      (ok = true ∧ Offloadable (w.keys k)) ∧ ∃ pattern rest,
        w.nic.installedSince w'.nic = offloadRule w.port0 k pattern :: rest ∧
        ∀ r ∈ rest, ∃ pattern', r = offloadRule (symmetricalPort w) partner pattern' := by
  rcases createFlowLoopBody_cases h with ⟨rfl, hno⟩ | ⟨hyes, pattern, partner', hlink', rfl⟩
  · exact Or.inl ⟨hno, by simp⟩
  · rw [hlink] at hlink'
    obtain rfl := Option.some.inj hlink'
    refine Or.inr ⟨hyes, pattern, ?_⟩
    generalize hnic' : w.nic.install (offloadRule w.port0 k pattern) = nic
    generalize hw₁ : markOffloadSuccess { w with nic := nic } k w.nic.next = w₁
    have hnic : w₁.nic = w.nic.install (offloadRule w.port0 k pattern) := by
      rw [← hw₁, hnic', markOffloadSuccess_nic]
    rcases offloadKey_cases w₁ (symmetricalPort w) partner okSymmetrical with
      ⟨heq, -⟩ | ⟨-, pattern', heq⟩
    · refine ⟨[], ?_, fun r hr => absurd hr List.not_mem_nil⟩
      rw [heq, markNotOffload_nic, hnic, Nic.installedSince_install]
    · refine ⟨[offloadRule (symmetricalPort w) partner pattern'], ?_, fun r hr => ?_⟩
      · rw [heq, markOffloadSuccess_nic, hnic, Nic.installedSince_install_install]
      · exact ⟨pattern', List.mem_singleton.mp hr⟩

/-- The guard: a key that gets a rule was enqueued by a worker of the first port. -/
def EnqueuedOnFirstPort (s : Tracked) : OffloadEvent → Prop
  | .flowEngine ok _ => ∀ x ∈ s.queue.head?, ok = true → Offloadable (s.world.keys x.1) →
      x.2 = s.world.port0
  | _ => True

/-- **The first port decides.**  The rule of a key on the first port, and rules of its
partner on the second one, are right exactly for a worker of the first port. -/
theorem right_ruleInstalled_iff {w : World} {k partner : KeyPtr} {workerPort : UInt16}
    {pattern : List RteFlowItem} {rest : List RteFlow} (hne : partner ≠ k)
    (hmode : w.mode = .doublePortMode)
    (hrest : ∀ r ∈ rest, ∃ pattern', r = offloadRule (symmetricalPort w) partner pattern') :
    (∀ o ∈ (offloadRule w.port0 k pattern :: rest).map (ruleInstalled w k workerPort),
      o.Right) ↔ workerPort = w.port0 := by
  constructor
  · intro hall
    have hfirst := hall _ (List.mem_map_of_mem List.mem_cons_self)
    simpa [RuleInstalled.Right, ruleInstalled] using Eq.symm hfirst
  · rintro rfl o ho
    obtain ⟨r, hr, rfl⟩ := List.mem_map.mp ho
    rcases List.mem_cons.mp hr with rfl | hr
    · simp [RuleInstalled.Right, ruleInstalled]
    · obtain ⟨pattern', rfl⟩ := hrest r hr
      simp [RuleInstalled.Right, ruleInstalled, hne, World.otherPort, symmetricalPort, hmode]

/-- **One step installs rules where their frames arrive exactly when it meets the
guard.** -/
theorem right_trackedStep_iff {s s' : Tracked} {e : OffloadEvent} {os : List RuleInstalled}
    (hinv : TrackedInv s) (h : trackedMachine.step s e = some (s', os)) :
    (∀ o ∈ os, o.Right) ↔ EnqueuedOnFirstPort s e := by
  obtain ⟨w', queue'⟩ := s'
  obtain ⟨⟨tr, hstep⟩, -, -, rfl⟩ := step_of_trackedStep h
  have hnone : (∀ o ∈ ([] : List RuleInstalled), o.Right) ↔ True := by simp
  cases stepped_of_step hstep with
  | @engine k rest ok okSymmetrical _ hburst hbody =>
      have hlink := hinv.flow.link_of_burst hburst
      -- the head of the annotated queue is the key that is processed
      have hqueue := hinv.queue
      rw [World.pending, hburst, List.cons_append] at hqueue
      obtain ⟨⟨k', workerPort⟩, others, hs, hk, -⟩ := List.map_eq_cons_iff.mp hqueue
      obtain rfl : k' = k := hk
      simp only [rulesInstalled, hs, EnqueuedOnFirstPort, List.head?_cons, Option.mem_some_iff,
        forall_eq']
      rcases installedSince_createFlowLoopBody (w := { s.world with burst := rest }) hlink
        hbody with ⟨hno, hrules⟩ | ⟨hyes, pattern, others', hrules, hothers⟩
      · rw [show s.world.nic.installedSince w'.nic = [] from hrules]
        refine iff_of_true (fun o ho => absurd ho List.not_mem_nil) fun hok hoff => ?_
        exact absurd ⟨hok, hoff⟩ hno
      · rw [show s.world.nic.installedSince w'.nic = _ from hrules]
        constructor
        · intro hall _ _
          exact (right_ruleInstalled_iff k'.partner_ne hinv.mode hothers).mp hall
        · intro hport
          exact (right_ruleInstalled_iff k'.partner_ne hinv.mode hothers).mpr
            (hport hyes.1 hyes.2)
  | ignored _ => exact hnone
  | opened _ _ => exact hnone
  | known _ => exact hnone
  | dequeued _ => exact hnone
  | aged _ => exact hnone
  | traffic _ _ _ => exact hnone
  | timeout _ => exact hnone

/-- **When the rules are where their frames arrive.**  In a run in
`DOUBLE_PORT_MODE`: exactly when every key whose rule the engine creates was
enqueued by a worker of the first port. -/
theorem rulesRight_iff {s₀ s : Tracked} {es : List OffloadEvent} {tr : List RuleInstalled}
    (hinit : trackedMachine.Init s₀) (hrun : trackedMachine.Run s₀ es tr s) :
    (∀ o ∈ tr, o.Right) ↔ trackedMachine.RunWhile EnqueuedOnFirstPort s₀ es tr s :=
  Machine.RunWhile.forall_obs_iff (J := TrackedInv) hrun (trackedInv_of_init hinit)
    (fun hinv _ hstep => trackedInv_step hinv hstep)
    fun hinv _ hstep => right_trackedStep_iff hinv hstep

/-! ### Two runs -/

/-- The start in `DOUBLE_PORT_MODE`, with nothing waiting. -/
def initialTracked : Tracked := ⟨initialDouble, []⟩

theorem init_initialTracked : trackedMachine.Init initialTracked :=
  ⟨init_initialDouble, rfl, rfl⟩

instance (s : Tracked) : DecidablePred (EnqueuedOnFirstPort s)
  | .flowEngine ok _ => inferInstanceAs (Decidable (∀ x ∈ s.queue.head?, ok = true →
      Offloadable (s.world.keys x.1) → x.2 = s.world.port0))
  | .packet _ _ _ => inferInstanceAs (Decidable True)
  | .dequeueBurst => inferInstanceAs (Decidable True)
  | .ageing _ _ => inferInstanceAs (Decidable True)
  | .traffic _ _ _ => inferInstanceAs (Decidable True)
  | .timeout _ => inferInstanceAs (Decidable True)

/-- A flow whose opener sends the five packets. -/
def openerFirstEvents : List OffloadEvent :=
  List.replicate 5 (.packet 0 (udpFrame 100 ⟨client, server⟩) .allSucceed) ++
    [.dequeueBurst, .flowEngine true true]

theorem openerFirst_isSome :
    (trackedMachine.exec initialTracked openerFirstEvents).isSome = true := by decide +kernel

/-- Its rules are where its frames arrive. -/
theorem rulesRight_openerFirst :
    ∃ tr s, trackedMachine.Run initialTracked openerFirstEvents tr s ∧ tr.length = 2 ∧
      ∀ o ∈ tr, o.Right := by
  have hrun := Machine.run_exec_get openerFirst_isSome
  refine ⟨_, _, hrun, by decide +kernel, ?_⟩
  exact (rulesRight_iff init_initialTracked hrun).mpr (hrun.runWhile (by decide +kernel))

/-- A flow opened on the first port whose replies, on the second port, are the first to
be five. -/
def replyFirstEvents : List OffloadEvent :=
  .packet 0 (udpFrame 100 ⟨client, server⟩) .allSucceed ::
    List.replicate 5 (.packet 1 (udpFrame 100 ⟨server, endpoint 5 1 1 1 1⟩) .allSucceed) ++
      [.dequeueBurst, .flowEngine true true]

theorem replyFirst_isSome :
    (trackedMachine.exec initialTracked replyFirstEvents).isSome = true := by decide +kernel

/-- **Replies that come first are offloaded on the wrong ports**: the rule of the
in-direction key is on port 0, that of the out-direction key on port 1. -/
theorem not_rulesRight_replyFirst :
    ∃ tr s, trackedMachine.Init initialTracked ∧
      trackedMachine.Run initialTracked replyFirstEvents tr s ∧
      tr = [⟨true, 1, 0, 0⟩, ⟨false, 1, 0, 1⟩] ∧ ¬ ∀ o ∈ tr, o.Right :=
  ⟨_, _, init_initialTracked, Machine.run_exec_get replyFirst_isSome, by decide +kernel,
    by decide +kernel⟩

end SmartOffload
