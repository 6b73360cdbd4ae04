import SmartOffload.Lib.Machine

/-!
# Forward simulations

One machine refines another when every step of the first is a step of the second that
shows the same, or shows nothing and leaves the second where it is (`Simulation`).  It may
be that only steps that meet a guard are.  Their runs then refine runs with the same trace
(`Simulation.run`), and guarded runs refine guarded runs (`Simulation.runWhile`).

What a machine shows is a matter of view: `Machine.viewed` is the same machine, shown
through a function of the state a step finds and its event.
-/

universe u v w

namespace Machine

variable {σ : Type u} {ε : Type v} {ω : Type w} {ω' : Type*} {M : Machine σ ε ω}
  {G : σ → ε → Prop} {s₀ s s' : σ} {es es' : List ε} {tr tr' : List ω}

/-- A guarded run continued by a guarded run. -/
theorem RunWhile.append (h : M.RunWhile G s₀ es tr s) (h' : M.RunWhile G s es' tr' s') :
    M.RunWhile G s₀ (es ++ es') (tr ++ tr') s' := by
  induction h' with
  | nil => simpa using h
  | snoc _ hg hstep ih =>
      rw [← List.append_assoc, ← List.append_assoc]
      exact ih.snoc hg hstep

theorem Run.append (h : M.Run s₀ es tr s) (h' : M.Run s es' tr' s') :
    M.Run s₀ (es ++ es') (tr ++ tr') s' := RunWhile.append h h'

/-- A run from a reachable state ends in one. -/
theorem Reachable.run (h : M.Reachable s) (hrun : M.Run s es tr s') : M.Reachable s' := by
  obtain ⟨s₀, es₀, tr₀, hinit, h⟩ := h
  exact ⟨s₀, _, _, hinit, Run.append h hrun⟩

/-- **The same machine, shown differently.** -/
def viewed (M : Machine σ ε ω) (view : σ → ε → List ω') : Machine σ ε ω' where
  Init := M.Init
  step s e := (M.step s e).map fun (s', _) => (s', view s e)

theorem step_viewed_eq_some_iff {view : σ → ε → List ω'} {e : ε} {os : List ω'} :
    (M.viewed view).step s e = some (s', os) ↔
      (∃ os', M.step s e = some (s', os')) ∧ os = view s e := by
  simp only [viewed, Option.map_eq_some_iff, Prod.exists, Prod.mk.injEq]
  constructor
  · rintro ⟨s₁, os₁, hstep, rfl, rfl⟩
    exact ⟨⟨os₁, hstep⟩, rfl⟩
  · rintro ⟨⟨os₁, hstep⟩, rfl⟩
    exact ⟨s', os₁, hstep, rfl, rfl⟩

/-- A run is a run whatever it shows. -/
theorem RunWhile.exists_viewed (h : M.RunWhile G s₀ es tr s) (view : σ → ε → List ω') :
    ∃ tr', (M.viewed view).RunWhile G s₀ es tr' s := by
  induction h with
  | nil => exact ⟨[], .nil⟩
  | snoc _ hg hstep ih =>
      obtain ⟨tr', hrun⟩ := ih
      exact ⟨_, hrun.snoc hg (step_viewed_eq_some_iff.mpr ⟨⟨_, hstep⟩, rfl⟩)⟩

theorem RunWhile.of_viewed {view : σ → ε → List ω'} {tr' : List ω'}
    (h : (M.viewed view).RunWhile G s₀ es tr' s) : ∃ tr, M.RunWhile G s₀ es tr s := by
  induction h with
  | nil => exact ⟨[], .nil⟩
  | snoc _ hg hstep ih =>
      obtain ⟨tr, hrun⟩ := ih
      obtain ⟨⟨os, hstep'⟩, -⟩ := step_viewed_eq_some_iff.mp hstep
      exact ⟨_, hrun.snoc hg hstep'⟩

theorem Run.exists_viewed (h : M.Run s₀ es tr s) (view : σ → ε → List ω') :
    ∃ tr', (M.viewed view).Run s₀ es tr' s := RunWhile.exists_viewed h view

theorem Run.of_viewed {view : σ → ε → List ω'} {tr' : List ω'}
    (h : (M.viewed view).Run s₀ es tr' s) : ∃ tr, M.Run s₀ es tr s := RunWhile.of_viewed h

end Machine

open Machine

variable {σ : Type u} {ε : Type v} {ω : Type w} {τ δ : Type*}

/-- **A forward simulation** of the runs of `M` that meet `G` by `A`: an event of `M` is an
event of `A`, or a stutter, as `event` says, and related states stay related. -/
structure Simulation (M : Machine σ ε ω) (G : σ → ε → Prop) (A : Machine τ δ ω) where
  /-- What a state of `M` is in `A`. -/
  Rel : σ → τ → Prop
  /-- What an event of `M` is in `A`. -/
  event : σ → ε → Option δ
  stutter : ∀ {s t e s' os}, Rel s t → G s e → M.step s e = some (s', os) →
    event s e = none → os = [] ∧ Rel s' t
  simulate : ∀ {s t e s' os d}, Rel s t → G s e → M.step s e = some (s', os) →
    event s e = some d → ∃ t', A.step t d = some (t', os) ∧ Rel s' t'

namespace Simulation

variable {M : Machine σ ε ω} {A : Machine τ δ ω} {G G' : σ → ε → Prop}
  (F : Simulation M G A) {H : τ → δ → Prop} {s₀ s : σ} {t₀ : τ} {es : List ε} {tr : List ω}

/-- **Guarded runs refine guarded runs**, where the guard of `M` is at least that of `A`. -/
theorem runWhile (h : M.RunWhile G' s₀ es tr s) (h₀ : F.Rel s₀ t₀)
    (hmeets : ∀ {s e}, G' s e → G s e)
    (hguard : ∀ {s t e d}, F.Rel s t → G' s e → F.event s e = some d → H t d) :
    ∃ ds t, A.RunWhile H t₀ ds tr t ∧ F.Rel s t := by
  induction h with
  | nil => exact ⟨[], t₀, .nil, h₀⟩
  | @snoc es tr s s' e os _ hg hstep ih =>
      obtain ⟨ds, t, hrun, hrel⟩ := ih
      cases hd : F.event s e with
      | none =>
          obtain ⟨rfl, hrel'⟩ := F.stutter hrel (hmeets hg) hstep hd
          exact ⟨ds, t, by rwa [List.append_nil], hrel'⟩
      | some d =>
          obtain ⟨t', hstep', hrel'⟩ := F.simulate hrel (hmeets hg) hstep hd
          exact ⟨_, t', hrun.snoc (hguard hrel hg hd) hstep', hrel'⟩

/-- **Runs refine runs**, with the same trace. -/
theorem run (h : M.RunWhile G s₀ es tr s) (h₀ : F.Rel s₀ t₀) :
    ∃ ds t, A.Run t₀ ds tr t ∧ F.Rel s t :=
  F.runWhile h h₀ id fun _ _ _ => trivial

end Simulation
