import SmartOffload.Pairing

/-!
# A worker and the engine, interleaved

The other modules let a packet and a dequeued key be handled in one piece.  Here
`packet_processing` and `create_flow_loop` are threads over the same `World`: each
enqueue, each dequeued burst, each rule creation and each write of `is_offload` is
a step, in the order of the program, and the two threads interleave freely.

A call handled in one piece is one of the interleavings (`threadExec_of_step`).

The worker enqueues a key first and marks it `OFFLOADING` afterwards.  A key that
is marked while it still waits will be resolved by the engine; a key that was
resolved in between stays marked with nobody about to resolve it.  This is the only
way to get stuck (`noStuck_iff`), and it happens (`not_noStuck_lostUpdate`).
-/

namespace SmartOffload

/-- Where the worker stands in `packet_processing`. -/
inductive WorkerPc where
  | idle
  /-- The guard is passed; `rte_ring_enqueue` comes next. -/
  | enqueueing (k : KeyPtr)
  /-- The key is in the ring; `is_offload = OFFLOADING` comes next. -/
  | marking (k : KeyPtr)
  deriving DecidableEq, Repr

/-- Where the engine stands in `create_flow_loop`. -/
inductive EnginePc where
  | polling
  /-- `rte_flow_create` for a dequeued key has answered; its status write comes next. -/
  | resolving (k : KeyPtr) (flow : Option FlowHandle)
  /-- The rule of the key is in place; that of its partner comes next. -/
  | creatingSymmetrical (k : KeyPtr)
  /-- `rte_flow_create` for the partner has answered. -/
  | resolvingSymmetrical (partner : KeyPtr) (flow : Option FlowHandle)
  deriving DecidableEq, Repr

/-- The shared state and the two threads. -/
structure Threads where
  world : World
  worker : WorkerPc
  engine : EnginePc

/-- One atomic step of one of the threads. -/
inductive ThreadEvent where
  /-- The worker takes a frame up to the enqueue, or through if there is none. -/
  | call (m : RteMbuf) (env : PacketEnv)
  /-- The worker enqueues. -/
  | enqueue
  /-- The worker marks. -/
  | mark
  /-- The engine dequeues a burst. -/
  | dequeueBurst
  /-- The engine creates a rule. -/
  | create (ok : Bool)
  /-- The engine writes a status. -/
  | resolve

/-- `packet_processing` up to the enqueue. -/
def callStep (w : World) (pktMbuf : RteMbuf) (env : PacketEnv) : Option (World × WorkerPc) :=
  if supportedPacketType pktMbuf.packetType then
    let tuple := getIpv4_5tuple pktMbuf ipv4Mask
    match rteHashLookupData w.flowHashMap tuple with
    | .ok flowKey =>
        let w' := countPacket w flowKey pktMbuf.pktLen
        some (w', if wantsOffload (w'.keys flowKey) then .enqueueing flowKey else .idle)
    | .error ret =>
        if ret = enoent then
          match createFlow w pktMbuf tuple env with
          | none => none
          | some r => some (r.world, .idle)
        else some (w, .idle)
  else some (w, .idle)

/-- `rte_ring_enqueue(flow_rules_ring, flow_key)`. -/
def enqueueStep (w : World) (flowKey : KeyPtr) : World × WorkerPc :=
  match w.flowRulesRing.enqueue flowKey with
  | none => (w, .idle)
  | some ring => ({ w with flowRulesRing := ring }, .marking flowKey)

/-- A call of `create_general_offload_flow` in the loop. -/
def createStep (w : World) (portId : UInt16) (flowKey : KeyPtr) (ok : Bool) :
    World × Option FlowHandle :=
  let created := createGeneralOffloadFlow w.nic portId flowKey (w.keys flowKey) ok
  ({ w with nic := created.2 }, created.1)

/-- A status write in the loop. -/
def resolveStep (w : World) (flowKey : KeyPtr) : Option FlowHandle → World
  | none => markNotOffload w flowKey
  | some flow => markOffloadSuccess w flowKey flow

/-- One step of one thread. -/
def threadStep (s : Threads) : ThreadEvent → Option (Threads × List Empty)
  | .call m env =>
      match s.worker with
      | .idle =>
          match callStep s.world m env with
          | none => none
          | some r => some ({ s with world := r.1, worker := r.2 }, [])
      | _ => none
  | .enqueue =>
      match s.worker with
      | .enqueueing k =>
          let r := enqueueStep s.world k
          some ({ s with world := r.1, worker := r.2 }, [])
      | _ => none
  | .mark =>
      match s.worker with
      | .marking k => some ({ s with world := markOffloading s.world k, worker := .idle }, [])
      | _ => none
  | .dequeueBurst =>
      match s.engine, s.world.burst with
      | .polling, [] => some ({ s with world := dequeueFlowRules s.world }, [])
      | _, _ => none
  | .create ok =>
      match s.engine with
      | .polling =>
          match s.world.burst with
          | [] => none
          | k :: rest =>
              let r := createStep { s.world with burst := rest } s.world.port0 k ok
              some ({ s with world := r.1, engine := .resolving k r.2 }, [])
      | .creatingSymmetrical k =>
          match (s.world.keys k).symmetricalFlowKey with
          | none => none
          | some partner =>
              let r := createStep s.world (symmetricalPort s.world) partner ok
              some ({ s with world := r.1, engine := .resolvingSymmetrical partner r.2 }, [])
      | _ => none
  | .resolve =>
      match s.engine with
      | .resolving k flow =>
          let engine := if flow.isSome then .creatingSymmetrical k else .polling
          some ({ s with world := resolveStep s.world k flow, engine := engine }, [])
      | .resolvingSymmetrical partner flow =>
          some ({ s with world := resolveStep s.world partner flow, engine := .polling }, [])
      | _ => none

/-- **The two threads** over the state `init_smto` leaves behind. -/
def threadMachine : Machine Threads ThreadEvent Empty where
  Init s := offloadMachine.Init s.world ∧ s.worker = .idle ∧ s.engine = .polling
  step := threadStep

/-- The keys the engine is about to resolve: in the ring, in the burst, or just before
the status write. -/
def Threads.waiting (s : Threads) : List KeyPtr :=
  match s.engine with
  | .resolving k _ => k :: s.world.pending
  | _ => s.world.pending

/-- **No stuck offload**: unless the worker is between enqueue and status write, a key
marked `OFFLOADING` is about to be resolved. -/
def NoStuck (s : Threads) : Prop :=
  (∀ k, s.worker ≠ .marking k) →
    ∀ k, (s.world.keys k).isOffload = .offloading → k ∈ s.waiting

/-- The guard: a key is marked while it waits. -/
def MarksWaiting (s : Threads) : ThreadEvent → Prop
  | .mark => ∀ k, s.worker = .marking k → k ∈ s.waiting
  | _ => True

/-- The invariant behind `NoStuck`, whatever the worker does. -/
def MarkedWait (s : Threads) : Prop :=
  ∀ k, (s.world.keys k).isOffload = .offloading → k ∈ s.waiting

/-! ### What a step can do -/

/-- **What one atomic step can do**, by cases. -/
inductive ThreadStepped (s : Threads) : ThreadEvent → Threads → Prop where
  | called {m : RteMbuf} {env : PacketEnv} {w : World} {pc : WorkerPc}
      (hidle : s.worker = .idle) (hcall : callStep s.world m env = some (w, pc)) :
      ThreadStepped s (.call m env) { s with world := w, worker := pc }
  | enqueued {k : KeyPtr} (hk : s.worker = .enqueueing k) :
      ThreadStepped s .enqueue
        { s with world := (enqueueStep s.world k).1, worker := (enqueueStep s.world k).2 }
  | marked {k : KeyPtr} (hk : s.worker = .marking k) :
      ThreadStepped s .mark { s with world := markOffloading s.world k, worker := .idle }
  | dequeued (hpc : s.engine = .polling) (hburst : s.world.burst = []) :
      ThreadStepped s .dequeueBurst { s with world := dequeueFlowRules s.world }
  | created {k : KeyPtr} {rest : List KeyPtr} {ok : Bool} (hpc : s.engine = .polling)
      (hburst : s.world.burst = k :: rest) :
      ThreadStepped s (.create ok)
        { s with
          world := (createStep { s.world with burst := rest } s.world.port0 k ok).1
          engine := .resolving k
            (createStep { s.world with burst := rest } s.world.port0 k ok).2 }
  | createdSymmetrical {k partner : KeyPtr} {ok : Bool}
      (hpc : s.engine = .creatingSymmetrical k)
      (hlink : (s.world.keys k).symmetricalFlowKey = some partner) :
      ThreadStepped s (.create ok)
        { s with
          world := (createStep s.world (symmetricalPort s.world) partner ok).1
          engine := .resolvingSymmetrical partner
            (createStep s.world (symmetricalPort s.world) partner ok).2 }
  | resolved {k : KeyPtr} {flow : Option FlowHandle} (hpc : s.engine = .resolving k flow) :
      ThreadStepped s .resolve
        { s with
          world := resolveStep s.world k flow
          engine := if flow.isSome then .creatingSymmetrical k else .polling }
  | resolvedSymmetrical {partner : KeyPtr} {flow : Option FlowHandle}
      (hpc : s.engine = .resolvingSymmetrical partner flow) :
      ThreadStepped s .resolve
        { s with world := resolveStep s.world partner flow, engine := .polling }

/-- Every step is one of the cases. -/
theorem threadStepped_of_step {s s' : Threads} {e : ThreadEvent} {os : List Empty}
    (h : threadStep s e = some (s', os)) : ThreadStepped s e s' := by
  cases e with
  | call m env =>
      simp only [threadStep] at h
      split at h
      next hidle =>
        split at h
        · cases h
        next r hr =>
          obtain ⟨rfl, -⟩ := Prod.mk.inj (Option.some.inj h)
          exact .called hidle hr
      · cases h
  | enqueue =>
      simp only [threadStep] at h
      split at h
      next k hk =>
        obtain ⟨rfl, -⟩ := Prod.mk.inj (Option.some.inj h)
        exact .enqueued hk
      · cases h
  | mark =>
      simp only [threadStep] at h
      split at h
      next k hk =>
        obtain ⟨rfl, -⟩ := Prod.mk.inj (Option.some.inj h)
        exact .marked hk
      · cases h
  | dequeueBurst =>
      simp only [threadStep] at h
      split at h
      next hpc hburst =>
        obtain ⟨rfl, -⟩ := Prod.mk.inj (Option.some.inj h)
        exact .dequeued hpc hburst
      · cases h
  | create ok =>
      simp only [threadStep] at h
      split at h
      next hpc =>
        split at h
        · cases h
        next k rest hburst =>
          obtain ⟨rfl, -⟩ := Prod.mk.inj (Option.some.inj h)
          exact .created hpc hburst
      next k hpc =>
        split at h
        · cases h
        next partner hlink =>
          obtain ⟨rfl, -⟩ := Prod.mk.inj (Option.some.inj h)
          exact .createdSymmetrical hpc hlink
      · cases h
  | resolve =>
      simp only [threadStep] at h
      split at h
      next k flow hpc =>
        obtain ⟨rfl, -⟩ := Prod.mk.inj (Option.some.inj h)
        exact .resolved hpc
      next partner flow hpc =>
        obtain ⟨rfl, -⟩ := Prod.mk.inj (Option.some.inj h)
        exact .resolvedSymmetrical hpc
      · cases h

/-- Taking a frame up to the enqueue marks nothing and leaves the queue alone. -/
theorem callStep_spec {w w' : World} {m : RteMbuf} {env : PacketEnv} {pc : WorkerPc}
    (h : callStep w m env = some (w', pc)) :
    w'.pending = w.pending ∧ ∀ k, (w'.keys k).isOffload = .offloading →
      (w.keys k).isOffload = .offloading := by
  unfold callStep at h
  split at h
  · dsimp only at h
    split at h
    next k _ =>
      obtain ⟨rfl, -⟩ := Prod.mk.inj (Option.some.inj h)
      refine ⟨countPacket_pending w k m.pktLen, fun k' hk' => ?_⟩
      rwa [isOffload_countPacket] at hk'
    · split at h
      · split at h
        · cases h
        next r hr =>
          obtain ⟨rfl, -⟩ := Prod.mk.inj (Option.some.inj h)
          obtain ⟨-, -, hpending, -⟩ := frame_of_createFlow hr
          refine ⟨hpending, fun k hk => ?_⟩
          rcases keys_createFlow_cases hr k with heq | ⟨-, hstatus, -⟩
          · rwa [heq] at hk
          · rw [hstatus] at hk
            cases hk
      · obtain ⟨rfl, -⟩ := Prod.mk.inj (Option.some.inj h)
        exact ⟨rfl, fun _ hk => hk⟩
  · obtain ⟨rfl, -⟩ := Prod.mk.inj (Option.some.inj h)
    exact ⟨rfl, fun _ hk => hk⟩

/-- Enqueueing writes to no flow key, and only adds to the queue. -/
theorem keys_enqueueStep (w : World) (k : KeyPtr) : (enqueueStep w k).1.keys = w.keys := by
  unfold enqueueStep
  split <;> rfl

theorem mem_pending_enqueueStep {w : World} {k k' : KeyPtr} (hk : k ∈ w.pending) :
    k ∈ (enqueueStep w k').1.pending := by
  unfold enqueueStep
  split
  · exact hk
  next ring henq =>
    simp only [World.pending] at hk ⊢
    rw [BoundedFifo.items_of_enqueue henq, ← List.append_assoc]
    exact List.mem_append_left _ hk

/-- With the engine where it was, what waits goes by the queue. -/
theorem mem_waiting_of_pending {s : Threads} {w : World} {pc : WorkerPc} {k : KeyPtr}
    (hgrow : ∀ j ∈ s.world.pending, j ∈ w.pending) (hk : k ∈ s.waiting) :
    k ∈ ({ s with world := w, worker := pc } : Threads).waiting := by
  simp only [Threads.waiting] at hk ⊢
  split at hk
  · rcases List.mem_cons.mp hk with rfl | hk
    · exact List.mem_cons_self
    · exact List.mem_cons_of_mem _ (hgrow k hk)
  · exact hgrow k hk

/-- A status write resolves its key. -/
theorem isOffload_resolveStep_self (w : World) (k : KeyPtr) (flow : Option FlowHandle) :
    ((resolveStep w k flow).keys k).isOffload ≠ .offloading := by
  cases flow with
  | none =>
      rw [resolveStep, markNotOffload_keys_self]
      exact OffloadStatus.noConfusion
  | some flow =>
      rw [resolveStep, markOffloadSuccess_keys_self]
      exact OffloadStatus.noConfusion

theorem keys_resolveStep_of_ne (w : World) {k k' : KeyPtr} (hne : k' ≠ k)
    (flow : Option FlowHandle) : (resolveStep w k flow).keys k' = w.keys k' := by
  cases flow with
  | none => exact markNotOffload_keys_of_ne w hne
  | some flow => exact markOffloadSuccess_keys_of_ne w flow hne

/-- A key still marked after a status write is another key. -/
theorem offloading_of_resolveStep {w : World} {k k' : KeyPtr} {flow : Option FlowHandle}
    (hk : ((resolveStep w k' flow).keys k).isOffload = .offloading) :
    k ≠ k' ∧ (w.keys k).isOffload = .offloading := by
  have hne : k ≠ k' := by
    rintro rfl
    exact isOffload_resolveStep_self w k flow hk
  rw [keys_resolveStep_of_ne w hne] at hk
  exact ⟨hne, hk⟩

theorem pending_resolveStep (w : World) (k : KeyPtr) (flow : Option FlowHandle) :
    (resolveStep w k flow).pending = w.pending := by
  cases flow <;> rfl

/-- **A step keeps marked keys waiting**, if it does not mark a resolved key. -/
theorem markedWait_step {s s' : Threads} {e : ThreadEvent} (hinv : MarkedWait s)
    (hguard : MarksWaiting s e) (h : ThreadStepped s e s') : MarkedWait s' := by
  intro k hk
  cases h with
  | called hidle hcall =>
      obtain ⟨hpending, hstatus⟩ := callStep_spec hcall
      exact mem_waiting_of_pending (fun j hj => hpending ▸ hj) (hinv k (hstatus k hk))
  | @enqueued k' hk' =>
      rw [keys_enqueueStep] at hk
      exact mem_waiting_of_pending (fun j hj => mem_pending_enqueueStep hj) (hinv k hk)
  | @marked k' hk' =>
      -- the guard is about the key marked, the invariant about all others
      have hmem : k ∈ s.waiting := by
        by_cases heq : k = k'
        · rw [heq]
          exact hguard k' hk'
        · refine hinv k ?_
          rwa [markOffloading_keys_of_ne _ heq] at hk
      exact hmem
  | dequeued hpc hburst =>
      have hmem := hinv k hk
      simp only [Threads.waiting, hpc] at hmem ⊢
      rwa [dequeueFlowRules_pending hburst]
  | created hpc hburst =>
      -- the key moves from the head of the burst to the program counter
      have hmem := hinv k hk
      simp only [Threads.waiting, hpc, World.pending, hburst] at hmem
      exact hmem
  | createdSymmetrical hpc hlink =>
      have hmem := hinv k hk
      simp only [Threads.waiting, hpc] at hmem
      exact hmem
  | @resolved k' flow hpc =>
      obtain ⟨hne, hstatus⟩ := offloading_of_resolveStep hk
      have hmem := hinv k hstatus
      simp only [Threads.waiting, hpc] at hmem
      have hrest := (List.mem_cons.mp hmem).resolve_left hne
      cases flow <;> exact hrest
  | resolvedSymmetrical hpc =>
      obtain ⟨-, hstatus⟩ := offloading_of_resolveStep hk
      have hmem := hinv k hstatus
      simp only [Threads.waiting, hpc] at hmem
      simp only [Threads.waiting]
      rwa [pending_resolveStep]

theorem markedWait_of_init {s : Threads} (h : threadMachine.Init s) : MarkedWait s := by
  obtain ⟨⟨mode, port0, port1, portPool, readSpec, -, -, hw⟩, -, -⟩ := h
  intro k hk
  rw [hw] at hk
  cases hk

/-- **When no offload is stuck.**  Over any interleaving of a worker and the engine, in
every state visited: exactly when every key is marked while it is still in the ring
or in the burst, unresolved. -/
theorem noStuck_iff {s₀ s : Threads} {es : List ThreadEvent} {tr : List Empty}
    (hinit : threadMachine.Init s₀) (hrun : threadMachine.Run s₀ es tr s) :
    (∀ t, threadMachine.Visits s₀ es t → NoStuck t) ↔
      threadMachine.RunWhile MarksWaiting s₀ es tr s := by
  apply Machine.run_forall_visited_iff (K := MarkedWait) hrun
  · exact markedWait_of_init hinit
  · exact fun hmarked _ => hmarked
  · exact fun hmarked hguard hstep =>
      markedWait_step hmarked hguard (threadStepped_of_step hstep)
  · intro s e s' os hmarked hstep hstuck
    cases threadStepped_of_step hstep with
    | @marked k hk =>
        intro k' hk'
        rw [hk] at hk'
        obtain rfl := WorkerPc.marking.inj hk'
        exact hstuck (fun _ => WorkerPc.noConfusion) k (by rw [markOffloading_keys_self])
    | called _ _ => trivial
    | enqueued _ => trivial
    | dequeued _ _ => trivial
    | created _ _ => trivial
    | createdSymmetrical _ _ => trivial
    | resolved _ => trivial
    | resolvedSymmetrical _ => trivial

instance (s : Threads) : DecidablePred (MarksWaiting s)
  | .mark =>
      match hw : s.worker with
      | .marking k => decidable_of_iff (k ∈ s.waiting)
          ⟨fun h k' hk' => by rwa [← WorkerPc.marking.inj (hw.symm.trans hk')],
            fun h => h k hw⟩
      | .idle => isTrue fun k hk => WorkerPc.noConfusion (hw.symm.trans hk)
      | .enqueueing _ => isTrue fun k hk => WorkerPc.noConfusion (hw.symm.trans hk)
  | .call _ _ => inferInstanceAs (Decidable True)
  | .enqueue => inferInstanceAs (Decidable True)
  | .dequeueBurst => inferInstanceAs (Decidable True)
  | .create _ => inferInstanceAs (Decidable True)
  | .resolve => inferInstanceAs (Decidable True)

/-- Both threads before their first step. -/
def initialThreads : Threads := ⟨initialSingle, .idle, .polling⟩

theorem init_initialThreads : threadMachine.Init initialThreads :=
  ⟨init_initialSingle, rfl, rfl⟩

/-- Five frames of a flow, up to the enqueue of the fifth. -/
def fiveCalls : List ThreadEvent :=
  List.replicate 5 (.call (udpFrame 100 ⟨client, server⟩) .allSucceed)

/-- The key is marked before the engine dequeues it. -/
def promptEvents : List ThreadEvent :=
  fiveCalls ++ [.enqueue, .mark, .dequeueBurst, .create true, .resolve, .create true, .resolve]

theorem promptRun_isSome : (threadMachine.exec initialThreads promptEvents).isSome = true := by
  decide +kernel

/-- Marking promptly, nothing gets stuck. -/
theorem noStuck_promptEvents :
    ∃ tr s, threadMachine.Run initialThreads promptEvents tr s ∧
      ∀ t, threadMachine.Visits initialThreads promptEvents t → NoStuck t := by
  have hrun := Machine.run_exec_get promptRun_isSome
  refine ⟨_, _, hrun, ?_⟩
  exact (noStuck_iff init_initialThreads hrun).mpr (hrun.runWhile (by decide +kernel))

/-- The engine resolves the key and its partner between enqueue and mark. -/
def lostUpdateEvents : List ThreadEvent :=
  fiveCalls ++ [.enqueue, .dequeueBurst, .create true, .resolve, .create true, .resolve, .mark]

theorem lostUpdateRun_isSome :
    (threadMachine.exec initialThreads lostUpdateEvents).isSome = true := by decide +kernel

/-- **An update is lost**: `OFFLOAD_SUCCESS` is overwritten, and the key is marked with
the ring and the burst empty. -/
theorem not_noStuck_lostUpdate :
    ∃ tr s, threadMachine.Init initialThreads ∧
      threadMachine.Run initialThreads lostUpdateEvents tr s ∧ ¬ NoStuck s := by
  refine ⟨_, _, init_initialThreads, Machine.run_exec_get lostUpdateRun_isSome, fun h => ?_⟩
  have hidle : ((threadMachine.exec initialThreads lostUpdateEvents).get
      lostUpdateRun_isSome).1.worker = .idle := by decide +kernel
  have hmarked : ((((threadMachine.exec initialThreads lostUpdateEvents).get
      lostUpdateRun_isSome).1.world.keys (.out 0)).isOffload = .offloading) := by
    decide +kernel
  have hgone : KeyPtr.out 0 ∉ ((threadMachine.exec initialThreads lostUpdateEvents).get
      lostUpdateRun_isSome).1.waiting := by decide +kernel
  refine hgone (h ?_ _ hmarked)
  intro k hk
  rw [hidle] at hk
  cases hk

/-! ### Calls in one piece -/

/-- The events of the two threads, each handled in one piece. -/
def OffloadEvent.OfThreads : OffloadEvent → Prop
  | .packet _ _ _ => True
  | .dequeueBurst => True
  | .flowEngine _ _ => True
  | _ => False

/-- Offloading a key is a rule creation followed by a status write. -/
theorem offloadKey_eq_resolveStep (w : World) (portId : UInt16) (k : KeyPtr) (ok : Bool) :
    offloadKey w portId k ok =
      ((createStep w portId k ok).2.isSome,
        resolveStep (createStep w portId k ok).1 k (createStep w portId k ok).2) := by
  unfold offloadKey createStep
  rcases createGeneralOffloadFlow w.nic portId k (w.keys k) ok with ⟨_ | flow, nic⟩ <;> rfl

/-- **A frame of a known flow, uninterrupted**, is handled in one piece. -/
theorem exec_known {w : World} {m : RteMbuf} (env : PacketEnv) {k : KeyPtr}
    (hs : supportedPacketType m.packetType = true)
    (hk : w.flowHashMap.lookup (getIpv4_5tuple m ipv4Mask) = some k) :
    ∃ es, threadMachine.exec ⟨w, .idle, .polling⟩ es =
      some (⟨requestOffload (countPacket w k m.pktLen) k, .idle, .polling⟩, []) := by
  generalize hw : countPacket w k m.pktLen = w'
  have hcall : threadMachine.step ⟨w, .idle, .polling⟩ (.call m env) =
      some (⟨w', if wantsOffload (w'.keys k) then .enqueueing k else .idle, .polling⟩, []) := by
    simp [threadMachine, threadStep, callStep, hs, rteHashLookupData, hk, hw]
  by_cases hwants : wantsOffload (w'.keys k) = true
  · rw [if_pos hwants] at hcall
    have henq : threadMachine.step ⟨w', .enqueueing k, .polling⟩ .enqueue =
        some (⟨(enqueueStep w' k).1, (enqueueStep w' k).2, .polling⟩, []) := rfl
    cases hring : w'.flowRulesRing.enqueue k with
    | none =>
        have henqueue : enqueueStep w' k = (w', .idle) := by
          simp only [enqueueStep, hring]
        have hrequest : requestOffload w' k = w' := by
          simp only [requestOffload, hwants, if_true, hring]
        rw [henqueue] at henq
        rw [hrequest]
        exact ⟨[.call m env, .enqueue], Machine.exec_cons hcall (Machine.exec_cons henq rfl)⟩
    | some ring =>
        have henqueue : enqueueStep w' k = ({ w' with flowRulesRing := ring }, .marking k) := by
          simp only [enqueueStep, hring]
        have hrequest : requestOffload w' k =
            markOffloading { w' with flowRulesRing := ring } k := by
          simp only [requestOffload, hwants, if_true, hring]
        have hmark : threadMachine.step
            ⟨{ w' with flowRulesRing := ring }, .marking k, .polling⟩ .mark =
              some (⟨markOffloading { w' with flowRulesRing := ring } k, .idle, .polling⟩, []) :=
          rfl
        rw [henqueue] at henq
        rw [hrequest]
        exact ⟨[.call m env, .enqueue, .mark],
          Machine.exec_cons hcall (Machine.exec_cons henq (Machine.exec_cons hmark rfl))⟩
  · rw [if_neg hwants] at hcall
    have hsame : requestOffload w' k = w' := by
      unfold requestOffload
      rw [if_neg hwants]
    rw [hsame]
    exact ⟨[.call m env], Machine.exec_cons hcall rfl⟩

/-- **A dequeued key, uninterrupted**, is handled in one piece. -/
theorem exec_engine {w w' : World} {k : KeyPtr} {rest : List KeyPtr}
    {ok okSymmetrical : Bool} (hburst : w.burst = k :: rest)
    (hbody : createFlowLoopBody { w with burst := rest } k ok okSymmetrical = some w') :
    ∃ es, threadMachine.exec ⟨w, .idle, .polling⟩ es = some (⟨w', .idle, .polling⟩, []) := by
  generalize hw₁ : createStep { w with burst := rest } w.port0 k ok = r₁
  have hcreate : threadMachine.step ⟨w, .idle, .polling⟩ (.create ok) =
      some (⟨r₁.1, .idle, .resolving k r₁.2⟩, []) := by
    simp [threadMachine, threadStep, hburst, hw₁]
  have hresolve : threadMachine.step ⟨r₁.1, .idle, .resolving k r₁.2⟩ .resolve =
      some (⟨resolveStep r₁.1 k r₁.2, .idle,
        if r₁.2.isSome then .creatingSymmetrical k else .polling⟩, []) := rfl
  unfold createFlowLoopBody at hbody
  rw [offloadKey_eq_resolveStep, hw₁] at hbody
  cases hflow : r₁.2 with
  | none =>
      rw [hflow] at hbody hresolve hcreate
      obtain rfl := Option.some.inj hbody
      exact ⟨[.create ok, .resolve],
        Machine.exec_cons hcreate (Machine.exec_cons hresolve rfl)⟩
  | some flow =>
      rw [hflow] at hbody hresolve hcreate
      generalize hw₂ : resolveStep r₁.1 k (some flow) = w₂ at hbody hresolve
      dsimp only [Option.isSome] at hbody
      split at hbody
      · cases hbody
      next partner hlink =>
        rw [offloadKey_eq_resolveStep] at hbody
        obtain rfl := Option.some.inj hbody
        generalize hw₃ : createStep w₂ (symmetricalPort w₂) partner okSymmetrical = r₃
        have hcreate' : threadMachine.step ⟨w₂, .idle, .creatingSymmetrical k⟩
            (.create okSymmetrical) =
              some (⟨r₃.1, .idle, .resolvingSymmetrical partner r₃.2⟩, []) := by
          simp [threadMachine, threadStep, hlink, hw₃]
        have hresolve' : threadMachine.step
            ⟨r₃.1, .idle, .resolvingSymmetrical partner r₃.2⟩ .resolve =
              some (⟨resolveStep r₃.1 partner r₃.2, .idle, .polling⟩, []) := rfl
        exact ⟨[.create ok, .resolve, .create okSymmetrical, .resolve],
          Machine.exec_cons hcreate (Machine.exec_cons hresolve
            (Machine.exec_cons hcreate' (Machine.exec_cons hresolve' rfl)))⟩

/-- **Every event handled in one piece is an interleaving**: one without interruption. -/
theorem threadExec_of_step {w w' : World} {e : OffloadEvent} {os : List Obs}
    (hthreads : e.OfThreads) (h : offloadStep w e = some (w', os)) :
    ∃ es, threadMachine.exec ⟨w, .idle, .polling⟩ es = some (⟨w', .idle, .polling⟩, []) := by
  cases e with
  | packet portId m env =>
      simp only [offloadStep] at h
      rcases packetProcessing_cases w m env with
        ⟨heq, hno⟩ | ⟨heq, hopen⟩ | ⟨k, heq, hs, hk⟩
      · rw [heq] at h
        obtain ⟨rfl, -⟩ := Prod.mk.inj (Option.some.inj h)
        have hstep : threadMachine.step ⟨w, .idle, .polling⟩ (.call m env) =
            some (⟨w, .idle, .polling⟩, []) := by
          simp [threadMachine, threadStep, callStep, hno]
        exact ⟨[.call m env], Machine.exec_cons hstep rfl⟩
      · rw [heq] at h
        split at h
        · cases h
        next r hr =>
          obtain ⟨rfl, -⟩ := Prod.mk.inj (Option.some.inj h)
          have hstep : threadMachine.step ⟨w, .idle, .polling⟩ (.call m env) =
              some (⟨r.world, .idle, .polling⟩, []) := by
            simp [threadMachine, threadStep, callStep, hopen.1, rteHashLookupData, hopen.lookup,
              hr]
          exact ⟨[.call m env], Machine.exec_cons hstep rfl⟩
      · rw [heq] at h
        obtain ⟨rfl, -⟩ := Prod.mk.inj (Option.some.inj h)
        exact exec_known env hs hk
  | dequeueBurst =>
      simp only [offloadStep] at h
      split at h
      next hburst =>
        obtain ⟨rfl, -⟩ := Prod.mk.inj (Option.some.inj h)
        have hstep : threadMachine.step ⟨w, .idle, .polling⟩ .dequeueBurst =
            some (⟨dequeueFlowRules w, .idle, .polling⟩, []) := by
          simp [threadMachine, threadStep, hburst]
        exact ⟨[.dequeueBurst], Machine.exec_cons hstep rfl⟩
      · cases h
  | flowEngine ok okSymmetrical =>
      cases stepped_of_step h with
      | engine hburst hbody => exact exec_engine hburst hbody
  | ageing portId aged => exact hthreads.elim
  | traffic flow hits bytes => exact hthreads.elim
  | timeout flow => exact hthreads.elim

/-- Runs of packets and engine events are runs of the two threads. -/
theorem threadRun_of_run {w₀ w : World} {es : List OffloadEvent} {tr : List Obs}
    (h : offloadMachine.RunWhile (fun _ e => e.OfThreads) w₀ es tr w) :
    ∃ es' tr', threadMachine.Run ⟨w₀, .idle, .polling⟩ es' tr' ⟨w, .idle, .polling⟩ := by
  induction h with
  | nil => exact ⟨[], [], .nil _⟩
  | snoc _ hthreads hstep ih =>
      obtain ⟨es', tr', hrun⟩ := ih
      obtain ⟨es'', hexec⟩ := threadExec_of_step hthreads hstep
      exact ⟨_, _, hrun.exec_append hexec⟩

end SmartOffload
