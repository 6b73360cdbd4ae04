import Mathlib.Data.List.Basic
import Mathlib.Tactic.Common

/-!
# Event-driven machines and their guarded runs

A system whose steps are chosen by an environment is given here as a `Machine`:
an event either cannot happen in a state, or leads to one successor and emits a
list of observations.  All nondeterminism is in the choice of events, so a
`Machine` can be run (`Machine.exec`) as well as reasoned about.

* `Machine.RunWhile G` — runs whose every step meets the guard `G`, with the
  observations accumulated.  `Machine.Run` is the instance without a guard.
* `RunWhile.invariant` — the invariant rule, over states *and* traces.
* `run_forall_visited_iff` — when a guard is **exact** for an invariant: the
  guard keeps it, and a step outside the guard breaks it.  Then "the invariant
  holds in every state of this run" and "every step of this run meets the guard"
  are the same statement.
* `run_forall_obs_iff` — the same for a property of the emitted observations.
-/

universe u v w

/-- A machine: initial states, and a step function driven by events.  `none`
says that the event cannot happen in that state. -/
structure Machine (σ : Type u) (ε : Type v) (ω : Type w) where
  /-- The states a run may start from. -/
  Init : σ → Prop
  /-- One event: the successor state and the observations it emits. -/
  step : σ → ε → Option (σ × List ω)

namespace Machine

variable {σ : Type u} {ε : Type v} {ω : Type w} {M : Machine σ ε ω}

/-- **Guarded runs.**  `RunWhile M G s₀ es tr s`: from `s₀` the events `es` lead
to `s`, emit `tr`, and each of them met `G` in the state it happened in. -/
inductive RunWhile (M : Machine σ ε ω) (G : σ → ε → Prop) (s₀ : σ) :
    List ε → List ω → σ → Prop where
  | nil : RunWhile M G s₀ [] [] s₀
  | snoc {es : List ε} {tr : List ω} {s s' : σ} {e : ε} {os : List ω} :
      RunWhile M G s₀ es tr s → G s e → M.step s e = some (s', os) →
      RunWhile M G s₀ (es ++ [e]) (tr ++ os) s'

/-- A run: a guarded run with nothing to guard. -/
def Run (M : Machine σ ε ω) (s₀ : σ) (es : List ε) (tr : List ω) (s : σ) : Prop :=
  RunWhile M (fun _ _ => True) s₀ es tr s

/-- A state some run from an initial state ends in. -/
def Reachable (M : Machine σ ε ω) (s : σ) : Prop :=
  ∃ s₀ es tr, M.Init s₀ ∧ M.Run s₀ es tr s

variable {G G' : σ → ε → Prop} {s₀ s s' : σ} {es es' : List ε} {tr tr' : List ω}

theorem Run.nil (s₀ : σ) : M.Run s₀ [] [] s₀ := RunWhile.nil

theorem Run.snoc {e : ε} {os : List ω} (h : M.Run s₀ es tr s)
    (hstep : M.step s e = some (s', os)) : M.Run s₀ (es ++ [e]) (tr ++ os) s' :=
  RunWhile.snoc h trivial hstep

/-- A weaker guard admits every run of a stronger one. -/
theorem RunWhile.mono (hG : ∀ s e, G s e → G' s e) (h : M.RunWhile G s₀ es tr s) :
    M.RunWhile G' s₀ es tr s := by
  induction h with
  | nil => exact .nil
  | snoc _ hg hstep ih => exact ih.snoc (hG _ _ hg) hstep

/-- Forgetting the guard. -/
theorem RunWhile.run (h : M.RunWhile G s₀ es tr s) : M.Run s₀ es tr s :=
  h.mono fun _ _ _ => trivial

/-! ### Invariants -/

/-- **The invariant rule.**  What holds at the start with nothing emitted, and is
kept by every guarded step, holds at the end of every guarded run.  The trace is
part of the invariant, so facts about histories need no ghost state. -/
theorem RunWhile.invariant {P : σ → List ω → Prop} (h : M.RunWhile G s₀ es tr s)
    (start : P s₀ [])
    (keep : ∀ {s tr e s' os}, P s tr → G s e → M.step s e = some (s', os) →
      P s' (tr ++ os)) :
    P s tr := by
  induction h with
  | nil => exact start
  | snoc _ hg hstep ih => exact keep ih hg hstep

/-- The invariant rule for a property of states alone. -/
theorem RunWhile.state_invariant {P : σ → Prop} (h : M.RunWhile G s₀ es tr s)
    (start : P s₀)
    (keep : ∀ {s e s' os}, P s → G s e → M.step s e = some (s', os) → P s') : P s :=
  h.invariant (P := fun s _ => P s) start fun hs hg hstep => keep hs hg hstep

/-- What every initial state has and every step keeps, every reachable state has. -/
theorem Reachable.state_invariant {P : σ → Prop} (h : M.Reachable s)
    (start : ∀ s₀, M.Init s₀ → P s₀)
    (keep : ∀ {s e s' os}, P s → M.step s e = some (s', os) → P s') : P s := by
  obtain ⟨s₀, es, tr, hinit, hrun⟩ := h
  exact RunWhile.state_invariant hrun (start s₀ hinit) fun hs _ hstep => keep hs hstep

/-! ### Machines that stop -/

/-- One state follows another. -/
def Follows (M : Machine σ ε ω) (s' s : σ) : Prop := ∃ e os, M.step s e = some (s', os)

/-- **Where no run goes on forever, some run stops**: it reaches a state with `P`, if every
other state that can be reached takes a step. -/
theorem exists_run_of_wellFounded {P : σ → Prop} (hwf : WellFounded M.Follows)
    (progress : ∀ {es tr s}, M.Run s₀ es tr s → ¬ P s → ∃ s', M.Follows s' s) :
    ∃ es tr s, M.Run s₀ es tr s ∧ P s := by
  suffices h : ∀ s, ∀ es tr, M.Run s₀ es tr s → ∃ es tr s, M.Run s₀ es tr s ∧ P s from
    h s₀ [] [] (Run.nil s₀)
  intro s
  induction s using hwf.induction with
  | _ s ih =>
      intro es tr hrun
      by_cases hP : P s
      · exact ⟨es, tr, s, hrun, hP⟩
      · obtain ⟨s', e, os, hstep⟩ := progress hrun hP
        exact ih s' ⟨e, os, hstep⟩ _ _ (hrun.snoc hstep)

/-! ### Exact guards -/

/-- The states a run visits: the ends of its prefixes. -/
def Visits (M : Machine σ ε ω) (s₀ : σ) (es : List ε) (s : σ) : Prop :=
  ∃ es₁ tr₁, es₁ <+: es ∧ M.Run s₀ es₁ tr₁ s

theorem Run.visits_end (h : M.Run s₀ es tr s) : M.Visits s₀ es s :=
  ⟨es, tr, List.prefix_rfl, h⟩

theorem Visits.concat (e : ε) (h : M.Visits s₀ es s) : M.Visits s₀ (es ++ [e]) s := by
  obtain ⟨es₁, tr₁, hpre, hrun⟩ := h
  exact ⟨es₁, tr₁, hpre.trans (List.prefix_append es [e]), hrun⟩

/-- Steps are functions of the event, so the events of a run fix its end. -/
theorem Run.deterministic (h : M.Run s₀ es tr s) :
    ∀ {tr' : List ω} {s' : σ}, M.Run s₀ es tr' s' → tr' = tr ∧ s' = s := by
  induction h with
  | nil =>
      intro tr' s' h'
      generalize hnil : ([] : List ε) = es at h'
      cases h' with
      | nil => exact ⟨rfl, rfl⟩
      | snoc _ _ _ => simp at hnil
  | @snoc es tr s s₁ e os _ _ hstep ih =>
      intro tr' s' h'
      generalize hes : es ++ [e] = es' at h'
      cases h' with
      | nil => simp at hes
      | snoc hpre _ hstep' =>
          -- the prefixes agree by induction, and so do the last steps
          obtain ⟨rfl, he⟩ := List.append_inj' hes rfl
          obtain ⟨rfl, rfl⟩ := ih hpre
          rw [List.singleton_inj] at he
          subst he
          rw [hstep] at hstep'
          obtain ⟨rfl, rfl⟩ := Prod.mk.inj (Option.some.inj hstep')
          exact ⟨rfl, rfl⟩

/-- **What no guarded step undoes, no guarded run undoes**: a preorder that every
guarded step follows relates each visited state to the last one. -/
theorem RunWhile.rel_of_visits {R : σ → σ → Prop} (h : M.RunWhile G s₀ es tr s)
    (refl : ∀ s, R s s) (trans : ∀ {a b c}, R a b → R b c → R a c)
    (keep : ∀ {s e s' os}, G s e → M.step s e = some (s', os) → R s s') :
    ∀ {t}, M.Visits s₀ es t → R t s := by
  induction h with
  | nil =>
      rintro t ⟨es₁, tr₁, hpre, hrun⟩
      rw [List.prefix_nil] at hpre
      subst hpre
      obtain ⟨-, rfl⟩ := (Run.nil s₀).deterministic hrun
      exact refl _
  | @snoc es tr s s' e os hpre hg hstep ih =>
      rintro t ⟨es₁, tr₁, hsub, hrun⟩
      rcases List.prefix_concat_iff.mp hsub with rfl | hsub
      · obtain ⟨-, rfl⟩ := (Run.snoc hpre.run hstep).deterministic hrun
        exact refl _
      · exact trans (ih ⟨es₁, tr₁, hsub, hrun⟩) (keep hg hstep)

/-- Every state a guarded run visits ends a guarded run. -/
theorem RunWhile.of_visits {t : σ} (h : M.RunWhile G s₀ es tr s) (hvis : M.Visits s₀ es t) :
    ∃ es₁ tr₁, M.RunWhile G s₀ es₁ tr₁ t := by
  induction h with
  | nil =>
      obtain ⟨es₁, tr₁, hpre, hrun⟩ := hvis
      rw [List.prefix_nil] at hpre
      subst hpre
      obtain ⟨-, rfl⟩ := (Run.nil s₀).deterministic hrun
      exact ⟨[], [], .nil⟩
  | @snoc es tr s s' e os hpre hg hstep ih =>
      obtain ⟨es₁, tr₁, hsub, hrun⟩ := hvis
      rcases List.prefix_concat_iff.mp hsub with rfl | hsub
      · obtain ⟨-, rfl⟩ := (Run.snoc hpre.run hstep).deterministic hrun
        exact ⟨_, _, hpre.snoc hg hstep⟩
      · exact ih ⟨es₁, tr₁, hsub, hrun⟩

/-- Two guards met along a run are met together: the steps are the same. -/
theorem RunWhile.and (h : M.RunWhile G s₀ es tr s) :
    ∀ {tr' : List ω} {s' : σ}, M.RunWhile G' s₀ es tr' s' →
      M.RunWhile (fun s e => G s e ∧ G' s e) s₀ es tr s := by
  induction h with
  | nil => exact fun _ => .nil
  | @snoc es tr s s₁ e os hpre hg hstep ih =>
      intro tr' s' h'
      generalize hes : es ++ [e] = es' at h'
      cases h' with
      | nil => simp at hes
      | snoc hpre' hg' _ =>
          obtain ⟨rfl, he⟩ := List.append_inj' hes rfl
          rw [List.singleton_inj] at he
          subst he
          obtain ⟨-, rfl⟩ := hpre.run.deterministic hpre'.run
          exact (ih hpre').snoc ⟨hg, hg'⟩ hstep

/-- Guards that agree wherever a third one holds admit the same of its runs. -/
theorem RunWhile.guard_congr {H : σ → ε → Prop} (h : M.RunWhile H s₀ es tr s)
    (hG : ∀ {s e}, H s e → (G s e ↔ G' s e)) :
    M.RunWhile G s₀ es tr s ↔ M.RunWhile G' s₀ es tr s := by
  constructor
  · intro hrun
    exact (hrun.and h).mono fun _ _ hboth => (hG hboth.2).mp hboth.1
  · intro hrun
    exact (hrun.and h).mono fun _ _ hboth => (hG hboth.2).mpr hboth.1

/-- What guarded steps keep is one more guard that their runs meet. -/
theorem RunWhile.strengthen {J : σ → Prop} (h : M.RunWhile G s₀ es tr s) (start : J s₀)
    (keep : ∀ {s e s' os}, J s → G s e → M.step s e = some (s', os) → J s') :
    M.RunWhile (fun s e => J s ∧ G s e) s₀ es tr s := by
  induction h with
  | nil => exact .nil
  | snoc hpre hg hstep ih => exact ih.snoc ⟨hpre.state_invariant start keep, hg⟩ hstep

/-- The steps a run takes: an event in the state it finds, and the state it leads to. -/
def Takes (M : Machine σ ε ω) (s₀ : σ) (es : List ε) (s : σ) (e : ε) (s' : σ) : Prop :=
  ∃ es₁ tr₁ os, es₁ ++ [e] <+: es ∧ M.Run s₀ es₁ tr₁ s ∧ M.step s e = some (s', os)

/-- **Exact guards, for steps.**  If along an invariant `J` a step is good exactly when it
meets the guard, all steps of a run are good exactly when all of them meet the guard. -/
theorem run_forall_taken_iff {J : σ → Prop} {good : σ → ε → σ → Prop}
    (h : M.Run s₀ es tr s) (startJ : J s₀)
    (keepJ : ∀ {s e s' os}, J s → M.step s e = some (s', os) → J s')
    (step_iff : ∀ {s e s' os}, J s → M.step s e = some (s', os) → (good s e s' ↔ G s e)) :
    (∀ t e t', M.Takes s₀ es t e t' → good t e t') ↔ M.RunWhile G s₀ es tr s := by
  have hJ {es tr s} (h : M.Run s₀ es tr s) : J s :=
    RunWhile.state_invariant h startJ fun hs _ hst => keepJ hs hst
  constructor
  · induction h with
    | nil => exact fun _ => .nil
    | @snoc es tr s s' e os hpre _ hstep ih =>
        intro hall
        have hshort : M.RunWhile G s₀ es tr s := ih fun t e' t' ht => by
          obtain ⟨es₁, tr₁, os₁, hsub, hrun, hst⟩ := ht
          exact hall t e' t' ⟨es₁, tr₁, os₁, hsub.trans (List.prefix_append es [e]), hrun, hst⟩
        have hlast : good s e s' :=
          hall s e s' ⟨es, tr, os, List.prefix_rfl, hpre, hstep⟩
        exact hshort.snoc ((step_iff (hJ hpre) hstep).mp hlast) hstep
  · intro hguard
    clear h
    induction hguard with
    | nil =>
        rintro t e t' ⟨es₁, tr₁, os, hsub, -, -⟩
        simp [List.prefix_nil] at hsub
    | @snoc es tr s s' e os hpre hg hstep ih =>
        rintro t e' t' ⟨es₁, tr₁, os', hsub, hrun, hst⟩
        rcases List.prefix_concat_iff.mp hsub with heq | hsub
        · -- the last step
          obtain ⟨rfl, he⟩ := List.append_inj' heq rfl
          rw [List.singleton_inj] at he
          subst he
          obtain ⟨-, rfl⟩ := hpre.run.deterministic hrun
          exact (step_iff (hJ hrun) hst).mpr hg
        · exact ih t e' t' ⟨es₁, tr₁, os', hsub, hrun, hst⟩

/-- **Exact guards, for states.**  `K` is kept by every guarded step and contains
the property `I`; a step from `K` that does not lead out of `I` must have met the
guard.  Then a run stays inside `I` exactly when all its steps meet the guard. -/
theorem run_forall_visited_iff {I K : σ → Prop} (h : M.Run s₀ es tr s) (start : K s₀)
    (sound : ∀ {s}, K s → I s)
    (keep : ∀ {s e s' os}, K s → G s e → M.step s e = some (s', os) → K s')
    (exact' : ∀ {s e s' os}, K s → M.step s e = some (s', os) → I s' → G s e) :
    (∀ t, M.Visits s₀ es t → I t) ↔ M.RunWhile G s₀ es tr s := by
  constructor
  · induction h with
    | nil => exact fun _ => .nil
    | @snoc es tr s s' e os hpre _ hstep ih =>
        intro hall
        -- the states of the shorter run are states of the longer one
        have hguard : M.RunWhile G s₀ es tr s := ih fun t ht => hall t (ht.concat e)
        have hK : K s := hguard.state_invariant start keep
        have hend : M.Visits s₀ (es ++ [e]) s' := (Run.snoc hpre hstep).visits_end
        exact hguard.snoc (exact' hK hstep (hall s' hend)) hstep
  · intro hguard t hvis
    obtain ⟨es₁, tr₁, hrun⟩ := hguard.of_visits hvis
    exact sound (hrun.state_invariant start keep)

/-- **Exact guards, for observations.**  If along an invariant `J` a step that meets `H`
emits only good observations exactly when it meets the guard, a run of such steps emits
only good observations exactly when all of them meet the guard. -/
theorem RunWhile.forall_obs_iff {H : σ → ε → Prop} {J : σ → Prop} {good : ω → Prop}
    (h : M.RunWhile H s₀ es tr s) (startJ : J s₀)
    (keepJ : ∀ {s e s' os}, J s → H s e → M.step s e = some (s', os) → J s')
    (step_iff : ∀ {s e s' os}, J s → H s e → M.step s e = some (s', os) →
      ((∀ o ∈ os, good o) ↔ G s e)) :
    (∀ o ∈ tr, good o) ↔ M.RunWhile G s₀ es tr s := by
  constructor
  · induction h with
    | nil => exact fun _ => .nil
    | @snoc es tr s s' e os hpre hH hstep ih =>
        intro hall
        have hJ : J s := hpre.state_invariant startJ keepJ
        have hos : ∀ o ∈ os, good o := fun o ho => hall o (List.mem_append_right _ ho)
        exact (ih fun o ho => hall o (List.mem_append_left _ ho)).snoc
          ((step_iff hJ hH hstep).mp hos) hstep
  · intro hguard
    refine ((hguard.and h).invariant (P := fun s tr => J s ∧ ∀ o ∈ tr, good o)
      ⟨startJ, by simp⟩ ?_).2
    rintro s tr e s' os ⟨hJ, htr⟩ ⟨hg, hH⟩ hstep
    refine ⟨keepJ hJ hH hstep, fun o ho => ?_⟩
    rcases List.mem_append.mp ho with ho | ho
    · exact htr o ho
    · exact (step_iff hJ hH hstep).mpr hg o ho

/-! ### Running a machine -/

/-- Run a list of events, if each of them can happen. -/
def exec (M : Machine σ ε ω) (s : σ) : List ε → Option (σ × List ω)
  | [] => some (s, [])
  | e :: es =>
      match M.step s e with
      | none => none
      | some (s', os) =>
          match exec M s' es with
          | none => none
          | some (s'', tr) => some (s'', os ++ tr)

theorem exec_cons {e : ε} {os : List ω} {s'' : σ} (hstep : M.step s e = some (s', os))
    (hexec : M.exec s' es = some (s'', tr)) : M.exec s (e :: es) = some (s'', os ++ tr) := by
  simp only [exec, hstep, hexec]

/-- A run continued by an execution is a run. -/
theorem Run.exec_append (h : M.Run s₀ es tr s) :
    ∀ {es' : List ε} {tr' : List ω} {s' : σ}, M.exec s es' = some (s', tr') →
      M.Run s₀ (es ++ es') (tr ++ tr') s' := by
  intro es'
  induction es' generalizing es tr s with
  | nil =>
      intro tr' s' hexec
      obtain ⟨rfl, rfl⟩ := Prod.mk.inj (Option.some.inj hexec)
      simpa using h
  | cons e es' ih =>
      intro tr' s' hexec
      simp only [exec] at hexec
      split at hexec
      · cases hexec
      next s₁ os hstep =>
        split at hexec
        · cases hexec
        next s₂ tr₂ hrest =>
          obtain ⟨rfl, rfl⟩ := Prod.mk.inj (Option.some.inj hexec)
          simpa using ih (h.snoc hstep) hrest

/-- What `exec` computes is a run. -/
theorem run_of_exec (h : M.exec s es = some (s', tr)) : M.Run s es tr s' := by
  simpa using (Run.nil s).exec_append h

/-- An execution that gets through is a run to the state it ends in. -/
theorem run_exec_get (h : (M.exec s es).isSome = true) :
    M.Run s es ((M.exec s es).get h).2 ((M.exec s es).get h).1 := by
  apply run_of_exec
  exact (Option.some_get h).symm

/-- The end of an execution from an initial state is reachable. -/
theorem reachable_exec_get (hinit : M.Init s) (h : (M.exec s es).isSome = true) :
    M.Reachable ((M.exec s es).get h).1 :=
  ⟨s, es, _, hinit, run_exec_get h⟩

/-- The machine with a decidable guard built into its steps. -/
def guarded (M : Machine σ ε ω) (G : σ → ε → Prop) [∀ s e, Decidable (G s e)] :
    Machine σ ε ω where
  Init := M.Init
  step s e := if G s e then M.step s e else none

/-- Runs of the guarded machine are guarded runs, so those can be computed too. -/
theorem runWhile_of_guarded [∀ s e, Decidable (G s e)]
    (h : (M.guarded G).Run s₀ es tr s) : M.RunWhile G s₀ es tr s := by
  induction h with
  | nil => exact .nil
  | snoc _ _ hstep ih =>
      simp only [guarded] at hstep
      split at hstep
      next hg => exact ih.snoc hg hstep
      · cases hstep

/-- A run is guarded if the guarded machine gets through its events. -/
theorem Run.runWhile [∀ s e, Decidable (G s e)] (h : M.Run s₀ es tr s)
    (hsome : ((M.guarded G).exec s₀ es).isSome = true) : M.RunWhile G s₀ es tr s := by
  have hguard := runWhile_of_guarded (run_exec_get hsome)
  obtain ⟨htr, hs⟩ := h.deterministic hguard.run
  rwa [htr, hs] at hguard

end Machine
