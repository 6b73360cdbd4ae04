import SmartOffload.Calls
import Mathlib.Data.Fintype.Basic

/-!
# When a flow key is published

The out-direction key of a new flow is in the table before it is linked to its
partner: the in-direction key is built and inserted in between.  Another worker
that finds the key there counts its frames, and enqueues it when there are enough.
The engine reads the link of every key it dequeues, and does not check it.

`PublicationInv` is what does hold, whatever the order of the steps: everything
that can be reached is linked, or some worker is about to link it.  So the engine
never meets an unlinked key exactly when, at each of its dequeues, no worker stands
between the first insertion of a key it takes and the write of that key's link
(`engineSafe_iff`).
-/

namespace SmartOffload

/-! ### What is in use, and what is linked -/

/-- The key whose link the engine is going to read. -/
def EnginePc.held : EnginePc → Option KeyPtr
  | .resolving k _ | .creatingSymmetrical k => some k
  | _ => none

/-- The keys that shared memory gives to a thread: stored, or queued for the engine. -/
def World.Exposed (w : World) (k : KeyPtr) : Prop :=
  (∃ t, w.flowHashMap.lookup t = some k) ∨ k ∈ w.pending

/-- What a call publishes is the out-direction key of the flow it opens. -/
theorem CallPc.opening_of_publishing {pc : CallPc} {k : KeyPtr} (h : pc.publishing = some k) :
    pc.opening = some k.serial ∧ k = .out k.serial := by
  cases pc <;> simp only [publishing, reduceCtorEq, Option.some.injEq] at h <;> subst h <;>
    exact ⟨rfl, rfl⟩

section

variable {ι : Type} (s : Workers ι)

/-- A key is linked, or a worker is about to link it. -/
def Published (k : KeyPtr) : Prop :=
  (s.world.keys k).symmetricalFlowKey ≠ none ∨ ∃ i, (s.calls i).publishing = some k

/-- The keys that threads have, or can get. -/
def InUse (k : KeyPtr) : Prop :=
  s.world.Exposed k ∨ (∃ i, (s.calls i).known = some k) ∨ s.engine.held = some k

/-- **Keys in use are published**; a flow being opened belongs to one worker, and its
out-direction key is not linked. -/
structure PublicationInv : Prop where
  inUse : ∀ k, InUse s k → k.serial < s.world.serial ∧ Published s k
  opening : ∀ i n, (s.calls i).opening = some n →
    n < s.world.serial ∧ (s.world.keys (.out n)).symmetricalFlowKey = none
  distinct : ∀ i j n, (s.calls i).opening = some n → (s.calls j).opening = some n → i = j
  back : ∀ i m env n, s.calls i = .insertingBack m env n →
    (s.world.keys (.back n)).symmetricalFlowKey ≠ none

/-- **What the engine dequeued is linked.** -/
def EngineSafe : Prop :=
  ∀ k, k ∈ s.world.burst ∨ s.engine.held = some k →
    (s.world.keys k).symmetricalFlowKey ≠ none

end

/-! ### What a step does to links and references -/

section

variable {w w' : World} {pc pc' : CallPc} (h : Advanced w pc w' pc')
include h

/-- A worker's step undoes no link. -/
theorem Advanced.link {k : KeyPtr} (hk : k.serial < w.serial)
    (hlink : (w.keys k).symmetricalFlowKey ≠ none) :
    (w'.keys k).symmetricalFlowKey ≠ none := by
  cases h with
  | created _ =>
      have hne : k ≠ .out w.serial := by
        rintro rfl
        exact Nat.lt_irrefl _ hk
      rwa [startFlow_keys_of_ne hne]
  | @builtBack _ _ n _ =>
      by_cases heq : k = .back n
      · rw [heq, buildBack_keys_self]
        exact Option.some_ne_none _
      · rwa [buildBack_keys_of_ne heq]
  | @linked _ _ n =>
      by_cases heq : k = .out n
      · rw [heq, linkOut_keys_self]
        exact Option.some_ne_none _
      · rwa [linkOut_keys_of_ne heq]
  | counted => rwa [(keepsFlows_countPacket w _ _).link]
  | marked => rwa [(keepsFlows_markOffloading w _).link]
  | rejected _ => exact hlink
  | missed _ => exact hlink
  | found _ _ => exact hlink
  | insertedOut => exact hlink
  | insertedBack => exact hlink
  | refused _ => exact hlink
  | enqueued _ => exact hlink

/-- A worker's step links no key of a flow that another worker opens. -/
theorem Advanced.not_link {n : ℕ} (hn : n < w.serial) (hpc : pc.opening ≠ some n)
    (hlink : (w.keys (.out n)).symmetricalFlowKey = none) :
    (w'.keys (.out n)).symmetricalFlowKey = none := by
  have hout : ∀ {n'}, n ≠ n' → KeyPtr.out n ≠ .out n' :=
    fun hne heq => hne (congrArg KeyPtr.serial heq)
  cases h with
  | created _ => rwa [startFlow_keys_of_ne (hout hn.ne)]
  | builtBack _ => rwa [buildBack_keys_of_ne (KeyPtr.out_ne_back _ _)]
  | linked =>
      rw [linkOut_keys_of_ne (hout fun heq => hpc (congrArg some heq.symm))]
      exact hlink
  | counted => rwa [(keepsFlows_countPacket w _ _).link]
  | marked => rwa [(keepsFlows_markOffloading w _).link]
  | rejected _ => exact hlink
  | missed _ => exact hlink
  | found _ _ => exact hlink
  | insertedOut => exact hlink
  | insertedBack => exact hlink
  | refused _ => exact hlink
  | enqueued _ => exact hlink

/-- A call that stops publishing has linked its key. -/
theorem Advanced.publishing {k : KeyPtr} (hpc : pc.publishing = some k) :
    pc'.publishing = some k ∨ (w'.keys k).symmetricalFlowKey ≠ none := by
  cases h with
  | builtBack _ => exact Or.inl hpc
  | insertedBack => exact Or.inl hpc
  | linked =>
      obtain rfl := Option.some.inj hpc
      rw [linkOut_keys_self]
      exact Or.inr (Option.some_ne_none _)
  | _ => cases hpc

/-- The flow a call opens is the one it opened before, or the next one. -/
theorem Advanced.opening {n : ℕ} (hpc : pc'.opening = some n) :
    pc.opening = some n ∧ ((w.keys (.out n)).symmetricalFlowKey = none →
        (w'.keys (.out n)).symmetricalFlowKey = none) ∨
      n = w.serial ∧ n < w'.serial ∧ (w'.keys (.out n)).symmetricalFlowKey = none := by
  cases h with
  | created _ =>
      obtain rfl := Option.some.inj hpc
      refine Or.inr ⟨rfl, Nat.lt_succ_self _, ?_⟩
      rw [startFlow_keys_self]
      rfl
  | insertedOut =>
      split at hpc
      · exact Or.inl ⟨hpc, id⟩
      · cases hpc
  | builtBack _ =>
      refine Or.inl ⟨hpc, fun hlink => ?_⟩
      rwa [buildBack_keys_of_ne (KeyPtr.out_ne_back _ _)]
  | insertedBack => exact Or.inl ⟨hpc, id⟩
  | linked => split at hpc <;> cases hpc
  | counted => split at hpc <;> cases hpc
  | _ => cases hpc

/-- An in-direction key about to be inserted has its link. -/
theorem Advanced.back {m : RteMbuf} {env : PacketEnv} {n : ℕ}
    (hpc : pc' = .insertingBack m env n) :
    (w'.keys (.back n)).symmetricalFlowKey ≠ none := by
  cases h with
  | builtBack _ =>
      cases hpc
      rw [buildBack_keys_self]
      exact Option.some_ne_none _
  | insertedOut => split at hpc <;> cases hpc
  | linked => split at hpc <;> cases hpc
  | counted => split at hpc <;> cases hpc
  | _ => cases hpc

/-- **What a call exposes.**  What shared memory or the call itself gives after a step,
they gave before, or it is a key the call has just inserted. -/
theorem Advanced.exposed {k : KeyPtr} (hk : w'.Exposed k ∨ pc'.known = some k) :
    (w.Exposed k ∨ pc.known = some k) ∨
      pc.opening = some k.serial ∧ (pc'.publishing = some k ∨
        ∃ m env, pc = .insertingBack m env k.serial ∧ k = .back k.serial) := by
  cases h with
  | found _ hlookup =>
      rcases hk with hk | hk
      · exact Or.inl (Or.inl hk)
      · obtain rfl := Option.some.inj hk
        exact Or.inl (Or.inl (Or.inl ⟨_, hlookup⟩))
  | @insertedOut _ env n =>
      rcases hk with (⟨t, hk⟩ | hk) | hk
      · rw [insertKey, lookup_rteHashAddKeyData] at hk
        split at hk
        next hadd =>
          obtain rfl := Option.some.inj hk
          rw [if_pos hadd.1]
          exact Or.inr ⟨rfl, Or.inl rfl⟩
        · exact Or.inl (Or.inl (Or.inl ⟨t, hk⟩))
      · exact Or.inl (Or.inl (Or.inr hk))
      · split at hk <;> cases hk
  | @insertedBack m env n =>
      rcases hk with (⟨t, hk⟩ | hk) | hk
      · rw [insertKey, lookup_rteHashAddKeyData] at hk
        split at hk
        · obtain rfl := Option.some.inj hk
          exact Or.inr ⟨rfl, Or.inr ⟨m, env, rfl, rfl⟩⟩
        · exact Or.inl (Or.inl (Or.inl ⟨t, hk⟩))
      · exact Or.inl (Or.inl (Or.inr hk))
      · cases hk
  | linked =>
      rcases hk with hk | hk
      · exact Or.inl (Or.inl hk)
      · split at hk <;> cases hk
  | counted =>
      rcases hk with hk | hk
      · exact Or.inl (Or.inl hk)
      · split at hk
        · exact Or.inl (Or.inr hk)
        · cases hk
  | enqueued henq =>
      rcases hk with (hk | hk) | hk
      · exact Or.inl (Or.inl (Or.inl hk))
      · rw [World.pending, BoundedFifo.items_of_enqueue henq, ← List.append_assoc,
          List.mem_append, List.mem_singleton] at hk
        rcases hk with hk | rfl
        · exact Or.inl (Or.inl (Or.inr hk))
        · exact Or.inl (Or.inr rfl)
      · exact Or.inl (Or.inr hk)
  | _ =>
      rcases hk with hk | hk
      · exact Or.inl (Or.inl hk)
      · cases hk

end

/-! ### What the engine does -/

theorem keepsFlows_resolveStep (w : World) (k : KeyPtr) (flow : Option FlowHandle) :
    KeepsFlows w (resolveStep w k flow) := by
  cases flow with
  | none => exact keepsFlows_markNotOffload w k
  | some flow => exact keepsFlows_markOffloadSuccess w k flow

/-- **The engine keeps flows**, and takes what it works on from the ring, five keys at
a time. -/
theorem engineStep_spec {w w' : World} {pc pc' : EnginePc} {e : EngineEvent}
    (h : engineStep w pc e = some (w', pc')) :
    KeepsFlows w w' ∧
      (∀ k, k ∈ w'.pending ∨ pc'.held = some k → k ∈ w.pending ∨ pc.held = some k) ∧
      (∀ k, k ∈ w'.burst ∨ pc'.held = some k → (k ∈ w.burst ∨ pc.held = some k) ∨
        e = .dequeueBurst ∧ k ∈ w.flowRulesRing.items.take 5) ∧
      (e = .dequeueBurst → w'.burst = w.flowRulesRing.items.take 5) := by
  unfold engineStep at h
  split at h
  · cases h
  next t os hstep =>
  obtain ⟨rfl, rfl⟩ := Prod.mk.inj (Option.some.inj h)
  generalize hev : e.toThreadEvent = ev at hstep
  cases threadStepped_of_step hstep with
  | called _ _ => cases e <;> cases hev
  | enqueued _ => cases e <;> cases hev
  | marked _ => cases e <;> cases hev
  | dequeued hpc hburst =>
      obtain rfl : pc = .polling := hpc
      obtain rfl : e = .dequeueBurst := by
        cases e with
        | dequeueBurst => rfl
        | create _ => cases hev
        | resolve => cases hev
      refine ⟨.setQueue w _ _, fun k hk => ?_, fun k hk => ?_, fun _ => rfl⟩
      · rwa [dequeueFlowRules_pending hburst] at hk
      · rcases hk with hk | hk
        · exact Or.inr ⟨rfl, hk⟩
        · cases hk
  | @created k rest ok hpc hburst =>
      obtain rfl : pc = .polling := hpc
      have hmem : ∀ j, j ∈ rest ∨ k = j → j ∈ w.burst := by
        intro j hj
        rw [show w.burst = k :: rest from hburst, List.mem_cons]
        exact hj.symm.imp_left Eq.symm
      refine ⟨(KeepsFlows.setQueue w _ rest).trans (.setNic _ _), fun j hj => ?_,
        fun j hj => ?_, fun he => by subst he; cases hev⟩
      · rcases hj with hj | hj
        · rcases List.mem_append.mp hj with hj | hj
          · exact Or.inl (List.mem_append_left _ (hmem j (Or.inl hj)))
          · exact Or.inl (List.mem_append_right _ hj)
        · exact Or.inl (List.mem_append_left _ (hmem j (Or.inr (Option.some.inj hj))))
      · exact Or.inl (Or.inl (hmem j (hj.imp_right Option.some.inj)))
  | createdSymmetrical hpc _ =>
      refine ⟨.setNic w _, fun j hj => ?_, fun j hj => ?_, fun he => by subst he; cases hev⟩
      · exact Or.inl (hj.resolve_right (by simp [EnginePc.held]))
      · exact Or.inl (Or.inl (hj.resolve_right (by simp [EnginePc.held])))
  | @resolved k flow hpc =>
      obtain rfl : pc = .resolving k flow := hpc
      have hheld : ∀ j, (if flow.isSome then EnginePc.creatingSymmetrical k
          else .polling).held = some j → (EnginePc.resolving k flow).held = some j := by
        intro j hj
        split at hj
        · exact hj
        · cases hj
      refine ⟨keepsFlows_resolveStep w k flow, fun j hj => ?_, fun j hj => ?_,
        fun he => by subst he; cases hev⟩
      · rw [pending_resolveStep] at hj
        exact hj.imp_right (hheld j)
      · refine Or.inl (hj.imp (fun hj => ?_) (hheld j))
        cases flow <;> exact hj
  | @resolvedSymmetrical partner flow hpc =>
      refine ⟨keepsFlows_resolveStep w partner flow, fun j hj => ?_, fun j hj => ?_,
        fun he => by subst he; cases hev⟩
      · rw [pending_resolveStep] at hj
        exact Or.inl (hj.resolve_right (by simp [EnginePc.held]))
      · refine Or.inl (Or.inl ?_)
        rcases hj with hj | hj
        · cases flow <;> exact hj
        · cases hj

/-! ### The invariant -/

section

variable {ι : Type} {s : Workers ι}

/-- What the engine dequeued or holds is in use. -/
theorem InUse.of_engine {k : KeyPtr} (hk : k ∈ s.world.burst ∨ s.engine.held = some k) :
    InUse s k :=
  hk.elim (fun hk => Or.inl (Or.inr (List.mem_append_left _ hk))) fun hk => Or.inr (Or.inr hk)

/-- A key that a worker is about to link is not linked. -/
theorem PublicationInv.unlinked (hinv : PublicationInv s) {i : ι} {k : KeyPtr}
    (hk : (s.calls i).publishing = some k) :
    (s.world.keys k).symmetricalFlowKey = none := by
  obtain ⟨hopening, hout⟩ := CallPc.opening_of_publishing hk
  rw [hout]
  exact (hinv.opening i _ hopening).2

/-- **An engine step keeps the invariant.** -/
theorem PublicationInv.engine (hinv : PublicationInv s) {e : EngineEvent} {w' : World}
    {pc' : EnginePc} (hstep : engineStep s.world s.engine e = some (w', pc')) :
    PublicationInv { s with world := w', engine := pc' } := by
  obtain ⟨hkeep, hheld, -, -⟩ := engineStep_spec hstep
  have hinUse : ∀ {k}, InUse { s with world := w', engine := pc' } k → InUse s k := by
    rintro k ((⟨t, hk⟩ | hk) | hk | hk)
    · rw [hkeep.flowHashMap] at hk
      exact Or.inl (Or.inl ⟨t, hk⟩)
    · exact (hheld k (Or.inl hk)).elim (fun hk => Or.inl (Or.inr hk))
        fun hk => Or.inr (Or.inr hk)
    · exact Or.inr (Or.inl hk)
    · exact (hheld k (Or.inr hk)).elim (fun hk => Or.inl (Or.inr hk))
        fun hk => Or.inr (Or.inr hk)
  constructor
  · intro k hk
    obtain ⟨hlt, hpub⟩ := hinv.inUse k (hinUse hk)
    refine ⟨hkeep.serial ▸ hlt, hpub.imp_left fun hlink => ?_⟩
    rwa [hkeep.link]
  · intro i n hn
    obtain ⟨hlt, hnone⟩ := hinv.opening i n hn
    exact ⟨hkeep.serial ▸ hlt, (hkeep.link _).trans hnone⟩
  · exact hinv.distinct
  · intro i m env n hback
    rw [hkeep.link]
    exact hinv.back i m env n hback

section

variable {i : ι} {w' : World} {calls : ι → CallPc} (hinv : PublicationInv s)
  (hstep : Advanced s.world (s.calls i) w' (calls i))
  (hother : ∀ {j}, j ≠ i → calls j = s.calls j)
include hstep hother

/-- A key that was published stays so. -/
theorem published_of_advanced {k : KeyPtr} (hlt : k.serial < s.world.serial)
    (hk : Published s k) : Published ⟨w', calls, s.engine⟩ k := by
  rcases hk with hlink | ⟨j, hk⟩
  · exact Or.inl (hstep.link hlt hlink)
  · by_cases heq : j = i
    · subst heq
      exact (hstep.publishing hk).elim (fun hk => Or.inr ⟨j, hk⟩) Or.inl
    · rw [← hother heq] at hk
      exact Or.inr ⟨j, hk⟩

include hinv

/-- What is in use was, or the step publishes it, or it was linked before. -/
theorem inUse_of_advanced {k : KeyPtr} (hk : InUse ⟨w', calls, s.engine⟩ k) :
    k.serial < w'.serial ∧ Published ⟨w', calls, s.engine⟩ k := by
  have hserial := hstep.serial_le
  have hcases : InUse s k ∨ (s.calls i).opening = some k.serial ∧
      ((calls i).publishing = some k ∨
        ∃ m env, s.calls i = .insertingBack m env k.serial ∧ k = .back k.serial) := by
    have hold : s.world.Exposed k ∨ (s.calls i).known = some k → InUse s k :=
      Or.imp_right fun hk => Or.inl ⟨i, hk⟩
    rcases hk with hk | ⟨j, (hk : (calls j).known = some k)⟩ | hk
    · exact (hstep.exposed (Or.inl hk)).imp_left hold
    · by_cases heq : j = i
      · rw [heq] at hk
        exact (hstep.exposed (Or.inr hk)).imp_left hold
      · rw [hother heq] at hk
        exact Or.inl (Or.inr (Or.inl ⟨j, hk⟩))
    · exact Or.inl (Or.inr (Or.inr hk))
  rcases hcases with hold | ⟨hopening, hnew⟩
  · obtain ⟨hlt, hpub⟩ := hinv.inUse k hold
    exact ⟨hlt.trans_le hserial, published_of_advanced hstep hother hlt hpub⟩
  · have hlt := (hinv.opening i _ hopening).1
    refine ⟨hlt.trans_le hserial, ?_⟩
    rcases hnew with hpublishing | ⟨m, env, hback, hk⟩
    · exact Or.inr ⟨i, hpublishing⟩
    · -- the in-direction key was linked before it is inserted
      refine Or.inl (hstep.link hlt ?_)
      rw [hk]
      exact hinv.back i m env _ hback

theorem opening_of_advanced {j : ι} {n : ℕ} (hn : (calls j).opening = some n) :
    n < w'.serial ∧ (w'.keys (.out n)).symmetricalFlowKey = none := by
  have hserial := hstep.serial_le
  by_cases heq : j = i
  · rw [heq] at hn
    rcases hstep.opening hn with ⟨hold, hlink⟩ | ⟨-, hlt, hlink⟩
    · obtain ⟨hlt, hnone⟩ := hinv.opening i n hold
      exact ⟨hlt.trans_le hserial, hlink hnone⟩
    · exact ⟨hlt, hlink⟩
  · rw [hother heq] at hn
    obtain ⟨hlt, hnone⟩ := hinv.opening j n hn
    refine ⟨hlt.trans_le hserial, hstep.not_link hlt (fun hi => ?_) hnone⟩
    exact heq (hinv.distinct j i n hn hi)

theorem distinct_of_advanced {j j' : ι} {n : ℕ} (hn : (calls j).opening = some n)
    (hn' : (calls j').opening = some n) : j = j' := by
  -- a flow that is new is opened by nobody else
  have hfresh : ∀ {j n}, j ≠ i → (calls j).opening = some n → (calls i).opening = some n →
      False := by
    intro j n hne hj hi
    rw [hother hne] at hj
    rcases hstep.opening hi with ⟨hold, -⟩ | ⟨hn, -, -⟩
    · exact hne (hinv.distinct j i n hj hold)
    · exact absurd hn (hinv.opening j n hj).1.ne
  by_cases heq : j = i
  · by_cases heq' : j' = i
    · rw [heq, heq']
    · rw [heq] at hn
      exact (hfresh heq' hn' hn).elim
  · by_cases heq' : j' = i
    · rw [heq'] at hn'
      exact (hfresh heq hn hn').elim
    · rw [hother heq] at hn
      rw [hother heq'] at hn'
      exact hinv.distinct j j' n hn hn'

theorem back_of_advanced {j : ι} {m : RteMbuf} {env : PacketEnv} {n : ℕ}
    (hback : calls j = .insertingBack m env n) :
    (w'.keys (.back n)).symmetricalFlowKey ≠ none := by
  by_cases heq : j = i
  · rw [heq] at hback
    rw [hback] at hstep
    exact hstep.back rfl
  · rw [hother heq] at hback
    have hlt := (hinv.opening j n (by rw [hback]; rfl)).1
    exact hstep.link (k := .back n) hlt (hinv.back j m env n hback)

end

variable [DecidableEq ι]

/-- At the start nothing is in use and no call is running. -/
theorem publicationInv_of_init (h : (workersMachine ι).Init s) :
    PublicationInv s ∧ EngineSafe s := by
  obtain ⟨w, calls, engine⟩ := s
  obtain ⟨hinit, hcalls, hengine⟩ := h
  obtain ⟨mode, port0, port1, readSpec, -, hw⟩ := init_iff.mp hinit
  dsimp only at hw hcalls hengine
  subst hw hengine
  have hidle : ∀ {i}, ((calls i).known = none ∧ (calls i).opening = none) ∧
      ∀ m env n, calls i ≠ .insertingBack m env n := by
    intro i
    obtain ⟨ret, m, hi⟩ := hcalls i
    rw [hi]
    exact ⟨⟨rfl, rfl⟩, by simp⟩
  have hnone : ∀ k, ¬ InUse ⟨initialWorld mode port0 port1 initialPortPool readSpec, calls, .polling⟩
      k := by
    rintro k ((⟨t, hk⟩ | hk) | ⟨i, hk⟩ | hk)
    · simp [initialWorld] at hk
    · simp [World.pending, initialWorld, rteRingInit] at hk
    · rw [hidle.1.1] at hk
      cases hk
    · cases hk
  have hopening : ∀ {i n}, (calls i).opening ≠ some n := by
    intro i n hi
    rw [hidle.1.2] at hi
    cases hi
  exact ⟨⟨fun k hk => absurd hk (hnone k), fun i n hi => absurd hi hopening,
    fun i j n hi _ => absurd hi hopening, fun i m env n hi => absurd hi (hidle.2 m env n)⟩,
    fun k hk => absurd (InUse.of_engine hk) (hnone k)⟩

/-- Starting a call changes nothing that matters here. -/
theorem PublicationInv.called (hinv : PublicationInv s) {i : ι} {m m' : RteMbuf}
    {env : PacketEnv} {ret : SmtoErrorCode} (hidle : s.calls i = .returned ret m') :
    PublicationInv { s with calls := Function.update s.calls i (.lookingUp m env) } := by
  generalize hcalls : Function.update s.calls i (.lookingUp m env) = calls
  have hj : ∀ j, calls j = s.calls j ∨ calls j = .lookingUp m env := by
    intro j
    rw [← hcalls]
    by_cases heq : j = i
    · exact Or.inr (by rw [heq, Function.update_self])
    · exact Or.inl (Function.update_of_ne heq ..)
  have hpublishing : ∀ j k, (s.calls j).publishing = some k →
      (calls j).publishing = some k := by
    intro j k hk
    by_cases heq : j = i
    · rw [heq, hidle] at hk
      cases hk
    · rwa [← hcalls, Function.update_of_ne heq]
  have hopening : ∀ {j n}, (calls j).opening = some n → (s.calls j).opening = some n := by
    intro j n hn
    rcases hj j with heq | heq
    · rwa [← heq]
    · rw [heq] at hn
      cases hn
  constructor
  · intro k hk
    have hold : InUse s k := by
      refine hk.imp_right (Or.imp_left fun ⟨j, (hk : (calls j).known = some k)⟩ => ⟨j, ?_⟩)
      rcases hj j with heq | heq
      · rwa [← heq]
      · rw [heq] at hk
        cases hk
    obtain ⟨hlt, hpub⟩ := hinv.inUse k hold
    exact ⟨hlt, hpub.imp_right fun ⟨j, hk⟩ => ⟨j, hpublishing j k hk⟩⟩
  · exact fun j n hn => hinv.opening j n (hopening hn)
  · exact fun j j' n hn hn' => hinv.distinct j j' n (hopening hn) (hopening hn')
  · intro j m₁ env₁ n hback
    rcases hj j with heq | heq
    · exact hinv.back j m₁ env₁ n (heq.symm.trans hback)
    · cases heq.symm.trans hback

/-- **A worker's step keeps the invariant.** -/
theorem PublicationInv.advanced (hinv : PublicationInv s) {i : ι} {w' : World} {pc' : CallPc}
    (hstep : Advanced s.world (s.calls i) w' pc') :
    PublicationInv { s with world := w', calls := Function.update s.calls i pc' } := by
  have hself : Function.update s.calls i pc' i = pc' := Function.update_self ..
  have hother : ∀ {j}, j ≠ i → Function.update s.calls i pc' j = s.calls j :=
    fun hne => Function.update_of_ne hne ..
  rw [← hself] at hstep
  exact ⟨fun k hk => inUse_of_advanced hinv hstep hother hk,
    fun j n hn => opening_of_advanced hinv hstep hother hn,
    fun j j' n hn hn' => distinct_of_advanced hinv hstep hother hn hn',
    fun j m env n hback => back_of_advanced hinv hstep hother hback⟩

end

/-! ### When the engine is safe -/

section

variable {ι : Type}

/-- The guard, on the schedule: when the engine dequeues a key, no worker stands between its
first insertion of that key and the write of the link. -/
def LinkedBeforeDequeue (s : Workers ι) : WorkersEvent ι → Prop
  | .engine .dequeueBurst =>
      ∀ k ∈ s.world.flowRulesRing.items.take 5, ∀ i, (s.calls i).publishing ≠ some k
  | _ => True

/-- A safe engine finds the partner whose rule it installs. -/
theorem EngineSafe.exists_partner {s : Workers ι} (hsafe : EngineSafe s) {k : KeyPtr}
    (hpc : s.engine = .creatingSymmetrical k) (ok : Bool) :
    ∃ w' pc', engineStep s.world s.engine (.create ok) = some (w', pc') := by
  have hlink := hsafe k (Or.inr (by rw [hpc]; rfl))
  obtain ⟨partner, hpartner⟩ := Option.ne_none_iff_exists'.mp hlink
  have hstep : engineStep s.world s.engine (.create ok) =
      some ((createStep s.world (symmetricalPort s.world) partner ok).1,
        .resolvingSymmetrical partner
          (createStep s.world (symmetricalPort s.world) partner ok).2) := by
    simp [engineStep, EngineEvent.toThreadEvent, threadStep, hpc, hpartner]
  exact ⟨_, _, hstep⟩

variable [DecidableEq ι] {s₀ s : Workers ι} {es : List (WorkersEvent ι)} {tr : List Empty}

/-- A guarded step keeps what the engine dequeued linked. -/
theorem engineSafe_step {s s' : Workers ι} {e : WorkersEvent ι} (hinv : PublicationInv s)
    (hsafe : EngineSafe s) (hguard : LinkedBeforeDequeue s e) (h : WorkersStepped s e s') :
    EngineSafe s' := by
  cases h with
  | called _ => exact hsafe
  | advanced hstep =>
      intro k hk
      rw [hstep.burst] at hk
      exact hstep.link (hinv.inUse k (InUse.of_engine hk)).1 (hsafe k hk)
  | engine hstep =>
      obtain ⟨hkeep, -, htaken, -⟩ := engineStep_spec hstep
      intro k hk
      rw [hkeep.link]
      rcases htaken k hk with hold | ⟨rfl, hmem⟩
      · exact hsafe k hold
      · have huse : InUse s k :=
          Or.inl (Or.inr (List.mem_append_right _ (List.mem_of_mem_take hmem)))
        rcases (hinv.inUse k huse).2 with hlink | ⟨i, hi⟩
        · exact hlink
        · exact absurd hi (hguard k hmem i)

/-- **When the engine finds every partner.**  Over any interleaving of workers and
engine, in every state visited: exactly when no key is dequeued while a worker stands
between its insertion and the write of its link. -/
theorem engineSafe_iff (hinit : (workersMachine ι).Init s₀)
    (hrun : (workersMachine ι).Run s₀ es tr s) :
    (∀ t, (workersMachine ι).Visits s₀ es t → EngineSafe t) ↔
      (workersMachine ι).RunWhile LinkedBeforeDequeue s₀ es tr s := by
  apply Machine.run_forall_visited_iff (K := fun s => PublicationInv s ∧ EngineSafe s) hrun
  · exact publicationInv_of_init hinit
  · exact fun hK => hK.2
  · rintro s e s' os ⟨hinv, hsafe⟩ hguard hstep
    have hstepped := workersStepped_of_step hstep
    refine ⟨?_, engineSafe_step hinv hsafe hguard hstepped⟩
    cases hstepped with
    | called hidle => exact hinv.called hidle
    | advanced hadvanced => exact hinv.advanced hadvanced
    | engine hengine => exact hinv.engine hengine
  · rintro s e s' os ⟨hinv, -⟩ hstep hsafe
    cases workersStepped_of_step hstep with
    | called _ => trivial
    | advanced _ => trivial
    | @engine e _ _ hengine =>
        cases e with
        | dequeueBurst =>
            obtain ⟨hkeep, -, -, hburst⟩ := engineStep_spec hengine
            intro k hk i hi
            refine hsafe k (Or.inl ?_) ?_
            · rwa [hburst rfl]
            · rw [hkeep.link]
              exact hinv.unlinked hi
        | create _ => trivial
        | resolve => trivial

instance [Fintype ι] (s : Workers ι) : DecidablePred (LinkedBeforeDequeue s)
  | .engine .dequeueBurst => inferInstanceAs (Decidable
      (∀ k ∈ s.world.flowRulesRing.items.take 5, ∀ i, (s.calls i).publishing ≠ some k))
  | .engine (.create _) => inferInstanceAs (Decidable True)
  | .engine .resolve => inferInstanceAs (Decidable True)
  | .call _ _ _ => inferInstanceAs (Decidable True)
  | .advance _ => inferInstanceAs (Decidable True)

end

/-! ### Two runs of two workers -/

/-- The first frame of a flow. -/
def openingFrame : RteMbuf := udpFrame 100 ⟨client, server⟩

/-- Two workers and the engine before their first step. -/
def initialWorkers : Workers Bool :=
  ⟨initialDouble, fun _ => .returned .success openingFrame, .polling⟩

theorem init_initialWorkers : (workersMachine Bool).Init initialWorkers :=
  ⟨init_initialDouble, fun _ => ⟨_, _, rfl⟩, rfl⟩

/-- A worker takes `n` steps of a call on the flow's frame. -/
def callEvents (i : Bool) (n : ℕ) : List (WorkersEvent Bool) :=
  .call i openingFrame .allSucceed :: List.replicate n (.advance i)

/-- The engine offloads one key and its partner. -/
def engineEvents : List (WorkersEvent Bool) :=
  [.engine .dequeueBurst, .engine (.create true), .engine .resolve, .engine (.create true),
    .engine .resolve]

/-- One worker opens the flow to the end before the other one counts four frames. -/
def openedEvents : List (WorkersEvent Bool) :=
  callEvents false 6 ++ (List.replicate 3 (callEvents true 2)).flatten ++ callEvents true 4 ++
    engineEvents

theorem openedRun_isSome :
    ((workersMachine Bool).exec initialWorkers openedEvents).isSome = true := by
  decide +kernel

/-- Both keys are linked when the engine gets there. -/
theorem engineSafe_openedEvents :
    ∃ tr s, (workersMachine Bool).Run initialWorkers openedEvents tr s ∧
      ∀ t, (workersMachine Bool).Visits initialWorkers openedEvents t → EngineSafe t := by
  have hrun := Machine.run_exec_get openedRun_isSome
  refine ⟨_, _, hrun, ?_⟩
  exact (engineSafe_iff init_initialWorkers hrun).mpr (hrun.runWhile (by decide +kernel))

/-- The worker that opens the flow stops after the first insertion; the other one counts
four frames, and the engine installs the rule of the key. -/
def stalledEvents : List (WorkersEvent Bool) :=
  callEvents false 3 ++ (List.replicate 3 (callEvents true 2)).flatten ++ callEvents true 4 ++
    engineEvents.take 3

theorem stalledRun_isSome :
    ((workersMachine Bool).exec initialWorkers stalledEvents).isSome = true := by
  decide +kernel

/-- **A key without a link reaches the engine**, which reads the partner's address from
it next. -/
theorem not_engineSafe_stalledEvents :
    ∃ tr s, (workersMachine Bool).Init initialWorkers ∧
      (workersMachine Bool).Run initialWorkers stalledEvents tr s ∧
      s.engine = .creatingSymmetrical (.out 0) ∧
      (s.world.keys (.out 0)).symmetricalFlowKey = none ∧ ¬ EngineSafe s := by
  have hpc : (((workersMachine Bool).exec initialWorkers stalledEvents).get
      stalledRun_isSome).1.engine = .creatingSymmetrical (.out 0) := by decide +kernel
  have hlink : ((((workersMachine Bool).exec initialWorkers stalledEvents).get
      stalledRun_isSome).1.world.keys (.out 0)).symmetricalFlowKey = none := by decide +kernel
  exact ⟨_, _, init_initialWorkers, Machine.run_exec_get stalledRun_isSome, hpc, hlink,
    fun hsafe => hsafe (.out 0) (Or.inr (by rw [hpc]; rfl)) hlink⟩

end SmartOffload
