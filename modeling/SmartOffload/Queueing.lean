import SmartOffload.Pairing

/-!
# The queue of the flow engine

A flow key is waiting while it is in the ring or in the unprocessed part of the
burst.  Its status guards the queue: only a key that is not offloaded is enqueued,
and it is marked `OFFLOADING` at once.  So no key waits twice as long as no waiting
key is set back to `NOT_OFFLOAD`, which the engine does to the partner of the key
it processes when the partner's rule fails, and the ageing handler to the key of a
rule it destroys (`pending_nodup_of_sparesWaiting`).

When the engine does set back a waiting partner, the next frame of that partner
queues it again (`not_pending_nodup_twiceEvents`).
-/

namespace SmartOffload

/-- **The queue invariant**: no key waits twice, and waiting keys do not ask to. -/
structure QueueInv (w : World) : Prop where
  nodup : w.pending.Nodup
  status : ∀ k ∈ w.pending, (w.keys k).isOffload ≠ .notOffload

/-- The guard: the engine does not fail on the rule of a waiting partner, and the ageing
handler does not destroy a rule of a waiting key. -/
def SparesWaiting (w : World) : OffloadEvent → Prop
  | .flowEngine ok okSymmetrical => ∀ k ∈ w.burst.head?, ok = true →
      Offloadable (w.keys k) → okSymmetrical = false →
        ∀ partner ∈ (w.keys k).symmetricalFlowKey, partner ∉ w.pending
  | .ageing _ aged => ∀ reports ∈ aged, ∀ report ∈ reports, report.destroyOk = true →
      ∀ k ∈ w.nic.owner report.flow, k ∉ w.pending
  | _ => True

/-- The invariant reads the queue and the status of the keys in it. -/
theorem QueueInv.congr {w w' : World} (hinv : QueueInv w) (hpending : w'.pending = w.pending)
    (hstatus : ∀ k ∈ w.pending, (w'.keys k).isOffload = (w.keys k).isOffload) :
    QueueInv w' where
  nodup := by
    rw [hpending]
    exact hinv.nodup
  status k hk := by
    rw [hpending] at hk
    rw [hstatus k hk]
    exact hinv.status k hk

theorem queueInv_of_init {w : World} (h : offloadMachine.Init w) : QueueInv w := by
  obtain ⟨mode, port0, port1, portPool, readSpec, -, -, rfl⟩ := h
  have hempty : (initialWorld mode port0 port1 portPool readSpec).pending = [] := by
    simp [World.pending, initialWorld, rteRingInit]
  constructor
  · rw [hempty]
    exact List.nodup_nil
  · intro k hk
    rw [hempty] at hk
    exact absurd hk List.not_mem_nil

/-- **A request keeps the invariant**: a key that asks for offload is not marked, so it
does not wait already. -/
theorem queueInv_requestOffload {w : World} (hinv : QueueInv w) (k : KeyPtr) :
    QueueInv (requestOffload w k) := by
  rcases requestOffload_cases w k with heq | ⟨ring, hwants, henq, heq⟩
  · rw [heq]
    exact hinv
  · have hstatus : (w.keys k).isOffload = .notOffload := by
      simp only [wantsOffload, Bool.and_eq_true, beq_iff_eq] at hwants
      exact hwants.2
    have hnew : k ∉ w.pending := fun hk => hinv.status k hk hstatus
    have hpending := pending_of_enqueue henq
    rw [heq]
    constructor
    · rw [hpending]
      refine List.Nodup.append hinv.nodup (List.nodup_singleton k) ?_
      intro k' hk' hk
      rw [List.mem_singleton.mp hk] at hk'
      exact hnew hk'
    · intro k' hk'
      by_cases hk : k' = k
      · rw [hk, markOffloading_keys_self]
        exact OffloadStatus.noConfusion
      · rw [hpending] at hk'
        rw [markOffloading_keys_of_ne _ hk]
        refine hinv.status k' ?_
        rcases List.mem_append.mp hk' with hk' | hk'
        · exact hk'
        · exact absurd (List.mem_singleton.mp hk') hk

/-- One iteration of the engine does not set back a key other than the processed one,
unless the rule of its partner fails. -/
theorem isOffload_createFlowLoopBody_ne {w w' : World} {k k' : KeyPtr}
    {ok okSymmetrical : Bool} (hp : Paired w k.serial) (hne : k' ≠ k)
    (hcreated : ok = true → Offloadable (w.keys k) → k' = k.partner → okSymmetrical = true)
    (hbody : createFlowLoopBody w k ok okSymmetrical = some w')
    (hstatus : (w.keys k').isOffload ≠ .notOffload) :
    (w'.keys k').isOffload ≠ .notOffload := by
  rw [createFlowLoopBody_of_link hp.link] at hbody
  obtain rfl := Option.some.inj hbody
  have hfirst : ((offloadKey w w.port0 k ok).2.keys k').isOffload ≠ .notOffload :=
    isOffload_offloadKey_ne hstatus fun heq => absurd heq hne
  split
  next hyes =>
    refine isOffload_offloadKey_ne hfirst fun heq => ?_
    rw [keys_offloadKey_of_ne k.partner_ne]
    exact ⟨hcreated hyes.1 hyes.2 heq, hp.offloadable_partner hyes.2⟩
  · exact hfirst

/-- **The engine's step keeps the invariant** if it does not fail on a waiting partner:
the processed key leaves the queue, and no other waiting key is set back. -/
theorem queueInv_engine {w w' : World} {k : KeyPtr} {rest : List KeyPtr}
    {ok okSymmetrical : Bool} (hflow : FlowInv w) (hinv : QueueInv w)
    (hburst : w.burst = k :: rest) (hspare : SparesWaiting w (.flowEngine ok okSymmetrical))
    (hbody : createFlowLoopBody { w with burst := rest } k ok okSymmetrical = some w') :
    QueueInv w' := by
  have hpending : w.pending = k :: ({ w with burst := rest } : World).pending := by
    simp [World.pending, hburst]
  have hpending' : w'.pending = ({ w with burst := rest } : World).pending :=
    createFlowLoopBody_pending hbody
  have hp : Paired { w with burst := rest } k.serial :=
    (KeepsFlows.setQueue w w.flowRulesRing rest).paired
      (hflow.queued k (by rw [hpending]; exact List.mem_cons_self)).2
  have hnodup := hinv.nodup
  rw [hpending, List.nodup_cons] at hnodup
  constructor
  · rw [hpending']
    exact hnodup.2
  · intro k' hk'
    rw [hpending'] at hk'
    have hmem : k' ∈ w.pending := by
      rw [hpending]
      exact List.mem_cons_of_mem k hk'
    -- the processed key waited once, so it does not wait any more
    have hne : k' ≠ k := by
      rintro rfl
      exact hnodup.1 hk'
    refine isOffload_createFlowLoopBody_ne hp hne (fun hok hoff heq => ?_) hbody
      (hinv.status k' hmem)
    by_contra hfail
    refine hspare k (by rw [hburst]; rfl) hok hoff (by simpa using hfail) k.partner ?_ ?_
    · exact hflow.link_of_burst hburst
    · rwa [← heq]

/-- The step lemma. -/
theorem queueInv_step {w w' : World} {e : OffloadEvent} {os : List Obs} (hflow : FlowInv w)
    (hinv : QueueInv w) (hspare : SparesWaiting w e) (h : Stepped w e w' os) :
    QueueInv w' := by
  cases h with
  | ignored _ => exact hinv
  | opened _ hr =>
      obtain ⟨-, -, hpending, -⟩ := frame_of_createFlow hr
      refine hinv.congr hpending fun k hk => ?_
      rw [keys_of_createFlow hr (hflow.queued k hk).1.ne]
  | @known _ m _ k _ =>
      apply queueInv_requestOffload
      exact hinv.congr (countPacket_pending w k m.pktLen) fun k' _ =>
        isOffload_countPacket w k k' m.pktLen
  | dequeued hburst => exact hinv.congr (dequeueFlowRules_pending hburst) fun _ _ => rfl
  | engine hburst hbody =>
      exact queueInv_engine hflow hinv hburst hspare hbody
  | @aged portId aged _ =>
      refine hinv.congr (deleteTimeoutFlows_pending w portId aged) fun k hk => ?_
      cases aged with
      | none => rfl
      | some reports =>
          apply isOffload_deleteTimeoutBatch
          intro x hx hok
          obtain ⟨report, hreport, rfl⟩ := List.mem_map.mp hx
          intro ho
          exact hspare reports rfl report hreport hok k ho hk
  | traffic _ _ _ => exact hinv.congr rfl fun _ _ => rfl
  | timeout _ => exact hinv.congr rfl fun _ _ => rfl

/-- **No flow is queued twice.**  In a run in which neither the engine's partner branch
nor the ageing handler sets back a waiting key, in every state visited. -/
theorem pending_nodup_of_sparesWaiting {w₀ w : World} {es : List OffloadEvent}
    {tr : List Obs} (hinit : offloadMachine.Init w₀)
    (hrun : offloadMachine.RunWhile SparesWaiting w₀ es tr w) {t : World}
    (hvis : offloadMachine.Visits w₀ es t) : t.pending.Nodup := by
  obtain ⟨es₁, tr₁, hrun₁⟩ := hrun.of_visits hvis
  have hinv : FlowInv t ∧ QueueInv t :=
    hrun₁.state_invariant (P := fun w => FlowInv w ∧ QueueInv w)
      ⟨flowInv_of_init hinit, queueInv_of_init hinit⟩
      fun hs hspare hstep => ⟨flowInv_step hs.1 (stepped_of_step hstep),
        queueInv_step hs.1 hs.2 hspare (stepped_of_step hstep)⟩
  exact hinv.2.nodup

instance (w : World) : DecidablePred (SparesWaiting w)
  | .flowEngine ok okSymmetrical => inferInstanceAs (Decidable (∀ k ∈ w.burst.head?,
      ok = true → Offloadable (w.keys k) → okSymmetrical = false →
        ∀ partner ∈ (w.keys k).symmetricalFlowKey, partner ∉ w.pending))
  | .ageing _ aged => inferInstanceAs (Decidable (∀ reports ∈ aged, ∀ report ∈ reports,
      report.destroyOk = true → ∀ k ∈ w.nic.owner report.flow, k ∉ w.pending))
  | .packet _ _ _ => inferInstanceAs (Decidable True)
  | .dequeueBurst => inferInstanceAs (Decidable True)
  | .traffic _ _ _ => inferInstanceAs (Decidable True)
  | .timeout _ => inferInstanceAs (Decidable True)

/-- A flow is offloaded and aged, then its directions wait again, one in the burst and one
in the ring. -/
def againEvents : List OffloadEvent :=
  ageEvents ++ [.udp client server, .dequeueBurst] ++
    List.replicate 5 (.udp server (endpoint 5 1 1 1 1))

theorem againRun_isSome : (offloadMachine.exec initialSingle againEvents).isSome = true := by
  decide +kernel

/-- They wait once each. -/
theorem pending_nodup_againEvents :
    ((offloadMachine.exec initialSingle againEvents).get againRun_isSome).1.pending =
        [.out 0, .back 0] ∧
      ((offloadMachine.exec initialSingle againEvents).get againRun_isSome).1.pending.Nodup := by
  have hrun := Machine.run_exec_get againRun_isSome
  refine ⟨by decide +kernel, ?_⟩
  exact pending_nodup_of_sparesWaiting init_initialSingle (hrun.runWhile (by decide +kernel))
    hrun.visits_end

/-- Both directions of a flow wait; the out-direction key is offloaded and the rule of
its partner fails; then the partner gets a frame. -/
def twiceEvents : List OffloadEvent :=
  List.replicate 5 (.udp client server) ++
    List.replicate 5 (.udp server (endpoint 5 1 1 1 1)) ++
      [.dequeueBurst, .flowEngine true false, .udp server (endpoint 5 1 1 1 1)]

theorem twiceRun_isSome : (offloadMachine.exec initialSingle twiceEvents).isSome = true := by
  decide +kernel

/-- **A flow waits twice**: once in the burst, once in the ring. -/
theorem not_pending_nodup_twiceEvents :
    ∃ tr w, offloadMachine.Init initialSingle ∧
      offloadMachine.Run initialSingle twiceEvents tr w ∧ ¬ w.pending.Nodup :=
  ⟨_, _, init_initialSingle, Machine.run_exec_get twiceRun_isSome, by decide +kernel⟩

end SmartOffload
