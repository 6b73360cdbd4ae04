import SmartOffload.HandleSoundness
import SmartOffload.Lib.Simulation

/-!
# The loop of the flow engine

`create_flow_loop` of `smto_flow_engine.c`, turn by turn: dequeue up to five keys, then
process each of them.  A turn is a run of the system in which only the engine moves
(`run_of_createFlowLoop`), so what holds in reachable states holds here as well.

* Nothing is lost or duplicated between the workers and the engine: over every run the keys
  enqueued are the keys processed, in this order, and those still waiting (`fifo_of_run`).
* A key that is `OFFLOADING` waits (`waits_of_reachable`).
* So the engine drains its queue: from every reachable state in which only TCP and UDP keys
  wait, whatever `rte_flow_create` answers, a turn for every five waiting keys leaves no key
  `OFFLOADING` and dereferences no NULL (`createFlowLoop_drains`); and if no call fails, every
  key that waited is offloaded with its partner.
-/

namespace SmartOffload

/-! ### First in, first out -/

/-- What happens at the queue. -/
inductive QueueObs where
  /-- A worker has enqueued the key. -/
  | enqueued (k : KeyPtr)
  /-- The engine has taken the key up. -/
  | processed (k : KeyPtr)

/-- What a call puts into the ring, and what the engine takes up. -/
def queueTraffic (w : World) : OffloadEvent → List QueueObs
  | .packet _ m env =>
      match packetProcessing w m env with
      | none => []
      | some r => (r.world.flowRulesRing.items.drop w.flowRulesRing.items.length).map .enqueued
  | .flowEngine _ _ => w.burst.head?.toList.map .processed
  | _ => []

/-- The system, seen at the queue of the engine. -/
def queueMachine : Machine World OffloadEvent QueueObs := offloadMachine.viewed queueTraffic

/-- The keys enqueued, in order. -/
def QueueObs.enqueuedKey : QueueObs → Option KeyPtr
  | .enqueued k => some k
  | .processed _ => none

/-- The keys processed, in order. -/
def QueueObs.processedKey : QueueObs → Option KeyPtr
  | .enqueued _ => none
  | .processed k => some k

@[simp] theorem filterMap_enqueuedKey (ks : List KeyPtr) :
    (ks.map QueueObs.enqueued).filterMap QueueObs.enqueuedKey = ks := by
  rw [List.filterMap_map]
  exact List.filterMap_some

@[simp] theorem filterMap_processedKey (ks : List KeyPtr) :
    (ks.map QueueObs.processed).filterMap QueueObs.processedKey = ks := by
  rw [List.filterMap_map]
  exact List.filterMap_some

@[simp] theorem enqueuedKey_processed (ks : List KeyPtr) :
    (ks.map QueueObs.processed).filterMap QueueObs.enqueuedKey = [] := by
  rw [List.filterMap_map, List.filterMap_eq_nil_iff]
  exact fun _ _ => rfl

@[simp] theorem processedKey_enqueued (ks : List KeyPtr) :
    (ks.map QueueObs.enqueued).filterMap QueueObs.processedKey = [] := by
  rw [List.filterMap_map, List.filterMap_eq_nil_iff]
  exact fun _ _ => rfl

/-- A call appends to the ring. -/
theorem ring_of_packetProcessing {w : World} {m : RteMbuf} {env : PacketEnv}
    {r : PacketResult} (h : packetProcessing w m env = some r) :
    r.world.burst = w.burst ∧ ∃ ks, r.world.flowRulesRing.items = w.flowRulesRing.items ++ ks := by
  rcases packetProcessing_cases w m env with ⟨heq, -⟩ | ⟨heq, -⟩ | ⟨k, heq, -, -⟩
  · rw [heq] at h
    obtain rfl := Option.some.inj h
    exact ⟨rfl, [], (List.append_nil _).symm⟩
  · rw [heq] at h
    rcases (createFlow_cases h).2 with ⟨-, rfl⟩ | ⟨-, -, rfl⟩ <;>
      exact ⟨rfl, [], (List.append_nil _).symm⟩
  · rw [heq] at h
    obtain rfl := Option.some.inj h
    show (requestOffload (countPacket w k m.pktLen) k).burst = w.burst ∧
      ∃ ks, (requestOffload (countPacket w k m.pktLen) k).flowRulesRing.items = _
    rcases requestOffload_cases (countPacket w k m.pktLen) k with heq' | ⟨ring, -, henq, heq'⟩
    · rw [heq']
      exact ⟨rfl, [], (List.append_nil _).symm⟩
    · rw [heq']
      exact ⟨rfl, [k], BoundedFifo.items_of_enqueue henq⟩

/-- **At each step**, what is enqueued goes to the end of the queue, and what is processed is
its head. -/
theorem queue_of_step {w w' : World} {e : OffloadEvent} {os : List QueueObs}
    (h : queueMachine.step w e = some (w', os)) :
    w.pending ++ os.filterMap QueueObs.enqueuedKey =
      os.filterMap QueueObs.processedKey ++ w'.pending := by
  obtain ⟨⟨os', hstep⟩, rfl⟩ := Machine.step_viewed_eq_some_iff.mp h
  have hs := stepped_of_step hstep
  cases e with
  | packet portId m env =>
      cases hr : packetProcessing w m env with
      | none => simp [offloadMachine, offloadStep, hr] at hstep
      | some r =>
          simp only [offloadMachine, offloadStep, hr, Option.some.injEq, Prod.mk.injEq] at hstep
          obtain ⟨rfl, -⟩ := hstep
          obtain ⟨hburst, ks, hring⟩ := ring_of_packetProcessing hr
          simp only [queueTraffic, hr, filterMap_enqueuedKey, processedKey_enqueued]
          rw [World.pending, World.pending, hburst, hring, List.drop_left, List.nil_append,
            List.append_assoc]
  | flowEngine ok okSymmetrical =>
      cases hs with
      | @engine k rest _ _ _ hburst hbody =>
          simp only [queueTraffic, enqueuedKey_processed, filterMap_processedKey]
          rw [createFlowLoopBody_pending hbody, World.pending, hburst, List.append_nil]
          rfl
  | dequeueBurst =>
      cases hs with
      | dequeued hburst =>
          simp [queueTraffic, hburst]
  | ageing portId aged =>
      cases hs with
      | aged _ => simp [queueTraffic]
  | traffic _ _ _ =>
      cases hs
      simp [queueTraffic, World.pending]
  | timeout _ =>
      cases hs
      simp [queueTraffic, World.pending]

/-- **First in, first out.**  Over every run, the keys that workers have enqueued are the keys
the engine has processed, in the same order, followed by those that wait: none is lost, none
is duplicated, none overtakes. -/
theorem fifo_of_run {w₀ w : World} {es : List OffloadEvent} {tr : List QueueObs}
    (hinit : offloadMachine.Init w₀) (hrun : queueMachine.Run w₀ es tr w) :
    tr.filterMap QueueObs.enqueuedKey = tr.filterMap QueueObs.processedKey ++ w.pending := by
  refine hrun.invariant (P := fun w tr => tr.filterMap QueueObs.enqueuedKey =
    tr.filterMap QueueObs.processedKey ++ w.pending) ?_ ?_
  · obtain ⟨mode, port0, port1, portPool, readSpec, -, -, rfl⟩ := hinit
    rfl
  · intro w tr e w' os hfifo _ hstep
    rw [List.filterMap_append, List.filterMap_append, hfifo, List.append_assoc,
      queue_of_step hstep, List.append_assoc]

/-- A flow is enqueued once and processed. -/
theorem fifo_offloadEvents :
    ∃ tr w, queueMachine.Run initialSingle offloadEvents tr w ∧
      tr.filterMap QueueObs.enqueuedKey = tr.filterMap QueueObs.processedKey ++ w.pending := by
  obtain ⟨tr, hrun⟩ := (Machine.run_exec_get offloadRun_isSome).exists_viewed queueTraffic
  exact ⟨tr, _, hrun, fifo_of_run init_initialSingle hrun⟩

/-! ### Whoever is `OFFLOADING` waits -/

/-- **No key is left behind**: a key that is `OFFLOADING` waits for the engine. -/
def OffloadingWaits (w : World) : Prop :=
  ∀ k, (w.keys k).isOffload = .offloading → k ∈ w.pending

theorem OffloadingWaits.congr {w w' : World} (hwaits : OffloadingWaits w)
    (hpending : w'.pending = w.pending)
    (hstatus : ∀ k, (w'.keys k).isOffload = .offloading → (w.keys k).isOffload = .offloading) :
    OffloadingWaits w' := by
  intro k hk
  rw [hpending]
  exact hwaits k (hstatus k hk)

/-- After its turn a key is not `OFFLOADING`, and no other key has become so. -/
theorem isOffload_offloadKey (w : World) (portId : UInt16) (k k' : KeyPtr) (ok : Bool) :
    ((offloadKey w portId k ok).2.keys k').isOffload = .offloading →
      k' ≠ k ∧ (w.keys k').isOffload = .offloading := by
  intro hk'
  by_cases hk : k' = k
  · subst hk
    rcases offloadKey_cases w portId k' ok with ⟨heq, -⟩ | ⟨-, pattern, heq⟩
    · rw [heq, markNotOffload_keys_self] at hk'
      cases hk'
    · rw [heq, markOffloadSuccess_keys_self] at hk'
      cases hk'
  · rw [keys_offloadKey_of_ne hk] at hk'
    exact ⟨hk, hk'⟩

theorem isOffload_createFlowLoopBody {w w' : World} {k k' : KeyPtr} {ok okSymmetrical : Bool}
    (hbody : createFlowLoopBody w k ok okSymmetrical = some w')
    (hk' : (w'.keys k').isOffload = .offloading) :
    k' ≠ k ∧ (w.keys k').isOffload = .offloading := by
  have hfirst := isOffload_offloadKey w w.port0 k k' ok
  unfold createFlowLoopBody at hbody
  split at hbody
  next w₁ heq =>
    rw [heq] at hfirst
    rw [← Option.some.inj hbody] at hk'
    exact hfirst hk'
  next w₁ heq =>
    rw [heq] at hfirst
    split at hbody
    · cases hbody
    next symmetrical _ =>
      rw [← Option.some.inj hbody] at hk'
      exact hfirst (isOffload_offloadKey _ _ symmetrical k' okSymmetrical hk').2

/-- The ageing handler makes no key `OFFLOADING`. -/
theorem isOffload_deleteTimeoutFlow_offloading {w : World} {portId : UInt16}
    {report : AgedReport} {context : Option KeyPtr} {k : KeyPtr}
    (hk : ((deleteTimeoutFlow w portId report context).1.keys k).isOffload = .offloading) :
    (w.keys k).isOffload = .offloading := by
  rcases deleteTimeoutFlow_cases w portId report context with ⟨heq, -⟩ | ⟨k', flow, -, -, heq⟩
  · rwa [heq] at hk
  · rw [heq] at hk
    cases hok : report.destroyOk with
    | false => rwa [hok, destroyTimeoutFlow_false, isOffload_mergeCounter] at hk
    | true =>
        rw [hok, destroyTimeoutFlow_true] at hk
        by_cases hkk : k = k'
        · rw [hkk, markNotOffload_keys_self] at hk
          cases hk
        · rw [markNotOffload_keys_of_ne _ hkk] at hk
          rwa [isOffload_mergeCounter] at hk

theorem isOffload_deleteTimeoutBatch_offloading {portId : UInt16} {k : KeyPtr}
    (batch : List (AgedReport × Option KeyPtr)) :
    ∀ {w : World}, ((deleteTimeoutBatch w portId batch).1.keys k).isOffload = .offloading →
      (w.keys k).isOffload = .offloading := by
  induction batch with
  | nil => exact id
  | cons x rest ih => exact fun hk => isOffload_deleteTimeoutFlow_offloading (ih hk)

/-- The step lemma. -/
theorem waits_step {w w' : World} {e : OffloadEvent} {os : List Obs}
    (hwaits : OffloadingWaits w) (h : Stepped w e w' os) : OffloadingWaits w' := by
  cases h with
  | ignored _ => exact hwaits
  | opened _ hr =>
      obtain ⟨-, -, hpending, -⟩ := frame_of_createFlow hr
      refine hwaits.congr hpending fun k hk => ?_
      rcases keys_createFlow_cases hr k with heq | ⟨-, heq, -⟩
      · rwa [heq] at hk
      · rw [heq] at hk
        cases hk
  | @known _ m _ k _ =>
      intro k' hk'
      rcases requestOffload_cases (countPacket w k m.pktLen) k with heq | ⟨ring, -, henq, heq⟩
      · rw [heq] at hk' ⊢
        rw [isOffload_countPacket] at hk'
        exact hwaits k' hk'
      · rw [heq] at hk' ⊢
        rw [pending_of_enqueue henq, List.mem_append, List.mem_singleton]
        by_cases hkk : k' = k
        · exact Or.inr hkk
        · rw [markOffloading_keys_of_ne _ hkk] at hk'
          refine Or.inl (hwaits k' ?_)
          rwa [← isOffload_countPacket w k k' m.pktLen]
  | dequeued hburst => exact hwaits.congr (dequeueFlowRules_pending hburst) fun _ hk => hk
  | @engine k rest _ _ _ hburst hbody =>
      intro k' hk'
      obtain ⟨hne, hstatus⟩ := isOffload_createFlowLoopBody hbody hk'
      have hmem := hwaits k' hstatus
      rw [createFlowLoopBody_pending hbody]
      rw [World.pending, hburst, List.cons_append, List.mem_cons] at hmem
      exact hmem.resolve_left hne
  | @aged portId aged _ =>
      refine hwaits.congr (deleteTimeoutFlows_pending w portId aged) fun k hk => ?_
      cases aged with
      | none => exact hk
      | some reports => exact isOffload_deleteTimeoutBatch_offloading _ hk
  | traffic _ _ _ => exact hwaits
  | timeout _ => exact hwaits

theorem waits_of_reachable {w : World} (hw : offloadMachine.Reachable w) :
    OffloadingWaits w := by
  refine hw.state_invariant (fun w₀ hinit => ?_)
    fun hwaits hstep => waits_step hwaits (stepped_of_step hstep)
  obtain ⟨mode, port0, port1, portPool, readSpec, -, -, rfl⟩ := hinit
  intro k hk
  cases hk

/-! ### Turn by turn -/

/-- The inner loop of `create_flow_loop`, from an index on, over the keys that are left;
`answers` says for each index whether the two calls of `rte_flow_create` succeed. -/
def processFlowRules (w : World) (answers : ℕ → Bool × Bool) (i : ℕ) :
    List KeyPtr → Option World
  | [] => some w
  | flowKey :: rest =>
      match createFlowLoopBody { w with burst := rest } flowKey (answers i).1 (answers i).2 with
      | none => none
      | some w' => processFlowRules w' answers (i + 1) rest

/-- One turn of `create_flow_loop`. -/
def createFlowLoopTurn (w : World) (answers : ℕ → Bool × Bool) : Option World :=
  processFlowRules (dequeueFlowRules w) answers 0 (dequeueFlowRules w).burst

/-- `create_flow_loop`, for as many turns as `is_running` stays set. -/
def createFlowLoop (w : World) : List (ℕ → Bool × Bool) → Option World
  | [] => some w
  | answers :: turns =>
      match createFlowLoopTurn w answers with
      | none => none
      | some w' => createFlowLoop w' turns

/-- The key has a rule. -/
def Offloaded (w : World) (k : KeyPtr) : Prop := (w.keys k).isOffload = .offloadSuccess

/-- **What the engine has done** on its own between two states, with the keys it has
processed: a run of the system.  `yes` says that no call of `rte_flow_create` has failed. -/
structure EngineRun (yes : Prop) (w w' : World) (done : List KeyPtr) : Prop where
  run : ∃ es tr, offloadMachine.Run w es tr w'
  keeps : KeepsFlows w w'
  kept : yes → ∀ k, Offloadable (w.keys k) → Offloaded w k → Offloaded w' k
  offloaded : yes → ∀ k ∈ done, Offloadable (w.keys k) →
    Offloaded w' k ∧ Offloaded w' k.partner

namespace EngineRun

variable {yes : Prop} {w w' w'' : World} {done done' : List KeyPtr}

theorem refl (yes : Prop) (w : World) : EngineRun yes w w [] where
  run := ⟨[], [], .nil w⟩
  keeps := .refl w
  kept _ _ _ hk := hk
  offloaded _ _ hk := absurd hk List.not_mem_nil

theorem trans (h : EngineRun yes w w' done) (h' : EngineRun yes w' w'' done')
    (hpaired : ∀ k ∈ done, Paired w k.serial) : EngineRun yes w w'' (done ++ done') where
  run := by
    obtain ⟨es, tr, hrun⟩ := h.run
    obtain ⟨es', tr', hrun'⟩ := h'.run
    exact ⟨_, _, hrun.append hrun'⟩
  keeps := h.keeps.trans h'.keeps
  kept hyes k hoff hk := by
    refine h'.kept hyes k ?_ (h.kept hyes k hoff hk)
    rwa [Offloadable, h.keeps.tuple]
  offloaded hyes k hk hoff := by
    have hoff' : Offloadable (w'.keys k) := by rwa [Offloadable, h.keeps.tuple]
    rcases List.mem_append.mp hk with hk | hk
    · obtain ⟨hself, hpartner⟩ := h.offloaded hyes k hk hoff
      have hoffPartner : Offloadable (w'.keys k.partner) := by
        rw [Offloadable, h.keeps.tuple]
        exact (hpaired k hk).offloadable_partner hoff
      exact ⟨h'.kept hyes k hoff' hself, h'.kept hyes k.partner hoffPartner hpartner⟩
    · exact h'.offloaded hyes k hk hoff'

theorem mono {yes' : Prop} (h : EngineRun yes w w' done) (hyes : yes' → yes) :
    EngineRun yes' w w' done :=
  ⟨h.run, h.keeps, fun h' => h.kept (hyes h'), fun h' => h.offloaded (hyes h')⟩

/-- A reachable state stays one. -/
theorem reachable (h : EngineRun yes w w' done) (hw : offloadMachine.Reachable w) :
    offloadMachine.Reachable w' := by
  obtain ⟨es, tr, hrun⟩ := h.run
  exact hw.run hrun

end EngineRun

/-- Offloading a key that is fit for it, with a call that succeeds. -/
theorem offloaded_offloadKey {w : World} (portId : UInt16) {k : KeyPtr}
    (hoff : Offloadable (w.keys k)) :
    Offloaded (offloadKey w portId k true).2 k ∧
      ∀ k', Offloaded w k' → Offloaded (offloadKey w portId k true).2 k' := by
  rcases offloadKey_cases w portId k true with ⟨-, hno⟩ | ⟨-, pattern, heq⟩
  · exact absurd ⟨rfl, hoff⟩ hno
  · rw [heq]
    have hself : Offloaded (markOffloadSuccess
        { w with nic := w.nic.install (offloadRule portId k pattern) } k w.nic.next) k := by
      rw [Offloaded, markOffloadSuccess_keys_self]
    refine ⟨hself, fun k' hk' => ?_⟩
    by_cases hk : k' = k
    · rw [hk]
      exact hself
    · rw [Offloaded, markOffloadSuccess_keys_of_ne _ _ hk]
      exact hk'

/-- The engine takes nothing out of the ring while it processes, and puts nothing back. -/
theorem queue_offloadKey (w : World) (portId : UInt16) (k : KeyPtr) (ok : Bool) :
    (offloadKey w portId k ok).2.burst = w.burst ∧
      (offloadKey w portId k ok).2.flowRulesRing = w.flowRulesRing := by
  rcases offloadKey_cases w portId k ok with ⟨heq, -⟩ | ⟨-, pattern, heq⟩ <;> rw [heq] <;>
    exact ⟨rfl, rfl⟩

/-- **One key.**  In a reachable state the engine never finds the partner missing. -/
theorem engineRun_body {w : World} (hw : offloadMachine.Reachable w) {k : KeyPtr}
    {rest : List KeyPtr} (hburst : w.burst = k :: rest) (ok okSymmetrical : Bool) :
    ∃ w', createFlowLoopBody { w with burst := rest } k ok okSymmetrical = some w' ∧
      EngineRun (ok = true ∧ okSymmetrical = true) w w' [k] ∧ w'.burst = rest ∧
        w'.flowRulesRing = w.flowRulesRing := by
  have hflow := flowInv_of_reachable hw
  have hlink : (w.keys k).symmetricalFlowKey = some k.partner := hflow.link_of_burst hburst
  have hpaired : Paired w k.serial :=
    (hflow.queued k (by simp [World.pending, hburst])).2
  have hbody : createFlowLoopBody { w with burst := rest } k ok okSymmetrical = some _ :=
    createFlowLoopBody_of_link hlink
  refine ⟨_, hbody, ⟨?_, ?_, ?_, ?_⟩, ?_⟩
  · refine ⟨[.flowEngine ok okSymmetrical], [], Machine.Run.snoc (.nil w) ?_⟩
    simp only [offloadMachine, offloadStep, hburst, hbody]
  · exact (KeepsFlows.setQueue w _ rest).trans (keepsFlows_createFlowLoopBody hbody)
  · rintro ⟨rfl, rfl⟩ k' hoff' hk'
    by_cases hoff : Offloadable (w.keys k)
    · rw [if_pos ⟨rfl, hoff⟩]
      have hpartner : Offloadable
          ((offloadKey { w with burst := rest } w.port0 k true).2.keys k.partner) := by
        rw [keys_offloadKey_of_ne k.partner_ne]
        exact hpaired.offloadable_partner hoff
      exact (offloaded_offloadKey _ hpartner).2 k'
        ((offloaded_offloadKey (w := { w with burst := rest }) w.port0 hoff).2 k' hk')
    · rw [if_neg fun h => hoff h.2]
      have hne : k' ≠ k := by
        rintro rfl
        exact hoff hoff'
      rw [Offloaded, keys_offloadKey_of_ne hne]
      exact hk'
  · rintro ⟨rfl, rfl⟩ k' hk' hoff
    obtain rfl := List.mem_singleton.mp hk'
    rw [if_pos ⟨rfl, hoff⟩]
    have hpartner : Offloadable
        ((offloadKey { w with burst := rest } w.port0 k' true).2.keys k'.partner) := by
      rw [keys_offloadKey_of_ne k'.partner_ne]
      exact hpaired.offloadable_partner hoff
    have hsecond := offloaded_offloadKey
      (symmetricalPort { w with burst := rest }) hpartner
    exact ⟨hsecond.2 k'
      (offloaded_offloadKey (w := { w with burst := rest }) w.port0 hoff).1, hsecond.1⟩
  · split
    · have hfirst := queue_offloadKey { w with burst := rest } w.port0 k ok
      have hsecond := queue_offloadKey (offloadKey { w with burst := rest } w.port0 k ok).2
        (symmetricalPort { w with burst := rest }) k.partner okSymmetrical
      exact ⟨hsecond.1.trans hfirst.1, hsecond.2.trans hfirst.2⟩
    · exact queue_offloadKey { w with burst := rest } w.port0 k ok

/-- **The inner loop** gets through, and empties the burst. -/
theorem engineRun_processFlowRules (answers : ℕ → Bool × Bool) {keys : List KeyPtr} :
    ∀ {w : World} (i : ℕ), offloadMachine.Reachable w → w.burst = keys →
      ∃ w', processFlowRules w answers i keys = some w' ∧
        EngineRun (∀ j, answers j = (true, true)) w w' keys ∧ w'.burst = [] ∧
          w'.flowRulesRing = w.flowRulesRing := by
  induction keys with
  | nil => exact fun {w} _ _ hburst => ⟨w, rfl, .refl _ w, hburst, rfl⟩
  | cons k rest ih =>
      intro w i hw hburst
      obtain ⟨w₁, hbody, hfirst, hburst₁, hring₁⟩ :=
        engineRun_body hw hburst (answers i).1 (answers i).2
      obtain ⟨w₂, hrest, hothers, hburst₂, hring₂⟩ :=
        ih (i + 1) (hfirst.reachable hw) hburst₁
      have hpaired : ∀ k' ∈ [k], Paired w k'.serial := by
        intro k' hk'
        rw [List.mem_singleton.mp hk']
        exact ((flowInv_of_reachable hw).queued k (by simp [World.pending, hburst])).2
      refine ⟨w₂, ?_, ?_, hburst₂, hring₂.trans hring₁⟩
      · simp only [processFlowRules, hbody]
        exact hrest
      · exact (hfirst.mono fun hall => by rw [hall i]; exact ⟨rfl, rfl⟩).trans hothers hpaired

/-- **One turn** processes the first five keys of the ring. -/
theorem engineRun_createFlowLoopTurn {w : World} (hw : offloadMachine.Reachable w)
    (hburst : w.burst = []) (answers : ℕ → Bool × Bool) :
    ∃ w', createFlowLoopTurn w answers = some w' ∧
      EngineRun (∀ j, answers j = (true, true)) w w' (w.flowRulesRing.items.take 5) ∧
        w'.burst = [] ∧ w'.flowRulesRing.items = w.flowRulesRing.items.drop 5 := by
  have hdequeue : EngineRun (∀ j, answers j = (true, true)) w (dequeueFlowRules w) [] := by
    refine ⟨⟨[.dequeueBurst], [], Machine.Run.snoc (.nil w) ?_⟩, .setQueue w _ _,
      fun _ _ _ hk => hk, fun _ _ hk => absurd hk List.not_mem_nil⟩
    simp only [offloadMachine, offloadStep, hburst, if_true]
  obtain ⟨w', hprocess, hrun, hburst', hring⟩ :=
    engineRun_processFlowRules answers 0 (hdequeue.reachable hw) rfl
  refine ⟨w', hprocess, hdequeue.trans hrun fun _ hk => absurd hk List.not_mem_nil, hburst', ?_⟩
  rw [hring]
  rfl

/-- **So many turns** process five times as many keys, as far as there are any. -/
theorem engineRun_createFlowLoop (turns : List (ℕ → Bool × Bool)) :
    ∀ {w : World}, offloadMachine.Reachable w → w.burst = [] →
      ∃ w', createFlowLoop w turns = some w' ∧
        EngineRun (∀ answers ∈ turns, ∀ j, answers j = (true, true)) w w'
          (w.flowRulesRing.items.take (5 * turns.length)) ∧
        w'.burst = [] ∧
          w'.flowRulesRing.items = w.flowRulesRing.items.drop (5 * turns.length) := by
  induction turns with
  | nil => exact fun {w} _ hburst => ⟨w, rfl, .refl _ w, hburst, rfl⟩
  | cons answers turns ih =>
      intro w hw hburst
      obtain ⟨w₁, hturn, hfirst, hburst₁, hring₁⟩ := engineRun_createFlowLoopTurn hw hburst answers
      obtain ⟨w₂, hloop, hothers, hburst₂, hring₂⟩ := ih (hfirst.reachable hw) hburst₁
      have hlength : 5 * (answers :: turns).length = 5 + 5 * turns.length := by
        rw [List.length_cons]
        omega
      have hpaired : ∀ k ∈ w.flowRulesRing.items.take 5, Paired w k.serial := by
        intro k hk
        refine ((flowInv_of_reachable hw).queued k ?_).2
        rw [World.pending, hburst, List.nil_append]
        exact List.mem_of_mem_take hk
      refine ⟨w₂, by simp only [createFlowLoop, hturn, hloop], ?_, hburst₂, ?_⟩
      · rw [hlength, List.take_add, ← hring₁]
        exact (hfirst.mono fun hall => hall answers List.mem_cons_self).trans
          (hothers.mono fun hall a ha => hall a (List.mem_cons_of_mem _ ha)) hpaired
      · rw [hring₂, hring₁, List.drop_drop, hlength]

/-- **The engine drains its queue.**  From every reachable state in which it is at the head of
its loop and only TCP and UDP keys wait, whatever `rte_flow_create` answers: with a turn for
every five keys that wait, it gets through without a NULL, nothing waits any more and no key is
`OFFLOADING`.  If no call fails, every key that waited is offloaded, and so is its partner. -/
theorem createFlowLoop_drains {w : World} (hw : offloadMachine.Reachable w)
    (hburst : w.burst = []) (hoff : ∀ k ∈ w.pending, Offloadable (w.keys k))
    (turns : List (ℕ → Bool × Bool)) (hturns : w.pending.length ≤ 5 * turns.length) :
    ∃ w', createFlowLoop w turns = some w' ∧ w'.pending = [] ∧
      (∀ k, (w'.keys k).isOffload ≠ .offloading) ∧
      ((∀ answers ∈ turns, ∀ j, answers j = (true, true)) →
        ∀ k ∈ w.pending, Offloaded w' k ∧ Offloaded w' k.partner) := by
  have hpending : w.pending = w.flowRulesRing.items := by
    rw [World.pending, hburst, List.nil_append]
  rw [hpending] at hturns hoff ⊢
  obtain ⟨w', hloop, hrun, hburst', hring⟩ := engineRun_createFlowLoop turns hw hburst
  have hempty : w'.pending = [] := by
    rw [World.pending, hburst', hring, List.drop_eq_nil_of_le hturns, List.nil_append]
  refine ⟨w', hloop, hempty, fun k hk => ?_, fun hyes k hk => ?_⟩
  · have hmem := waits_of_reachable (hrun.reachable hw) k hk
    rw [hempty] at hmem
    exact absurd hmem List.not_mem_nil
  · exact hrun.offloaded hyes k (by rwa [List.take_of_length_le hturns]) (hoff k hk)

theorem waitingRun_isSome :
    (offloadMachine.exec initialSingle (List.replicate 5 (.udp client server))).isSome = true := by
  decide +kernel

/-- A flow has asked for offload: one turn is enough. -/
theorem createFlowLoop_drains_waiting :
    ∃ w w', offloadMachine.Reachable w ∧ createFlowLoop w [fun _ => (true, true)] = some w' ∧
      Offloaded w' (.out 0) ∧ Offloaded w' (.back 0) := by
  have hreach := Machine.reachable_exec_get init_initialSingle waitingRun_isSome
  have hpending : ((offloadMachine.exec initialSingle (List.replicate 5
      (.udp client server))).get waitingRun_isSome).1.pending = [.out 0] := by decide +kernel
  have hoff : ∀ k ∈ [KeyPtr.out 0], Offloadable (((offloadMachine.exec initialSingle
      (List.replicate 5 (.udp client server))).get waitingRun_isSome).1.keys k) := by
    decide +kernel
  obtain ⟨w', hloop, -, -, hall⟩ := createFlowLoop_drains hreach (by decide +kernel)
    (by rwa [hpending]) [fun _ => (true, true)] (by rw [hpending]; decide)
  have hoffloaded := hall (by simp) (.out 0) (by rw [hpending]; exact List.mem_cons_self)
  exact ⟨_, w', hreach, hloop, hoffloaded⟩

end SmartOffload
