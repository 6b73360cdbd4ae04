import Mathlib
import SmartOffload.Lib.Machine

/-!
# Programs over a shared memory

A program reads and writes the cells of a memory, one at a time, and shows observations of
its own on the way.  Each read, write or observation is one atomic step (`MemProg.step`), so
that programs can be interleaved.  A program may get `stuck`: a loop has a number of rounds to
go and may use them up, and a program may come to where nothing is defined any more.

* `MemProg.Meets A ok p Q m` — run from `m`, the program ends with `Q`, is never stuck, and
  on the way accesses cells of its footprint `A` only and shows only what is `ok`.  There is
  one rule for each way to put programs together; `meets_loop` is the rule of loops, by
  invariant and measure.
* `meets_step` — every step keeps it, so it is an invariant of runs.
* `Meets.exists_run` — a program run alone ends with it.
* `Ends p m` — a program meets something: it is never stuck.  `Meets.exists_common` tells what
  holds after a part of a program that ends.
* `Meets.congr` — it depends on the footprint only.
* `threadsMeet_step` — **the parallel rule**: threads with disjoint footprints keep their
  own conditions under every interleaving.
* `wellFounded_next` — a program ends, however it is scheduled.
-/

/-- A program over cells `ι` with values `ν`, which shows `ω` and returns `α`. -/
inductive MemProg (ι ν ω α : Type) : Type where
  | pure (a : α)
  | read (i : ι) (k : ν → MemProg ι ν ω α)
  | write (i : ι) (v : ν) (rest : MemProg ι ν ω α)
  | emit (o : ω) (rest : MemProg ι ν ω α)
  /-- A loop has used up its rounds, or nothing is defined from here on. -/
  | stuck

/-- What one step shows: the cell it accessed, or an observation of the program. -/
inductive MemObs (ι ω : Type) : Type where
  | access (i : ι)
  | emitted (o : ω)
  deriving DecidableEq, Repr

namespace MemProg

variable {ι ν ω α β σ τ : Type}

/-- One program after the other. -/
protected def bind : MemProg ι ν ω α → (α → MemProg ι ν ω β) → MemProg ι ν ω β
  | .pure a, f => f a
  | .read i k, f => .read i fun v => (k v).bind f
  | .write i v rest, f => .write i v (rest.bind f)
  | .emit o rest, f => .emit o (rest.bind f)
  | .stuck, _ => .stuck

instance : Monad (MemProg ι ν ω) where
  pure := .pure
  bind := MemProg.bind

/-- Read a cell. -/
def load (i : ι) : MemProg ι ν ω ν := .read i .pure

/-- Write a cell. -/
def store (i : ι) (v : ν) : MemProg ι ν ω Unit := .write i v (.pure ())

/-- Show an observation. -/
def tell (o : ω) : MemProg ι ν ω Unit := .emit o (.pure ())

/-- Repeat the body until it returns a result, for so many rounds at most. -/
def loop (body : σ → MemProg ι ν ω (σ ⊕ α)) : ℕ → σ → MemProg ι ν ω α
  | 0, _ => .stuck
  | rounds + 1, s => body s >>= Sum.elim (loop body rounds) .pure

variable [DecidableEq ι]

/-- **One step**: the rest of the program, the memory, and what the step shows. -/
def step : MemProg ι ν ω α → (ι → ν) → Option (MemProg ι ν ω α × (ι → ν) × MemObs ι ω)
  | .pure _, _ => none
  | .read i k, m => some (k (m i), m, .access i)
  | .write i v rest, m => some (rest, Function.update m i v, .access i)
  | .emit o rest, m => some (rest, m, .emitted o)
  | .stuck, _ => none

/-- **A program run alone**: its result, the memory it leaves, and what its steps show; `none`
where it gets stuck. -/
def run : MemProg ι ν ω α → (ι → ν) → Option (α × (ι → ν) × List (MemObs ι ω))
  | .pure a, m => some (a, m, [])
  | .read i k, m => (run (k (m i)) m).map fun (a, m', tr) => (a, m', .access i :: tr)
  | .write i v rest, m =>
      (run rest (Function.update m i v)).map fun (a, m', tr) => (a, m', .access i :: tr)
  | .emit o rest, m => (run rest m).map fun (a, m', tr) => (a, m', .emitted o :: tr)
  | .stuck, _ => none

/-- **A program meets a condition**: it ends with it, and keeps to its footprint and to what
is ok on the way. -/
def Meets (A : Set ι) (ok : ω → Prop) :
    MemProg ι ν ω α → (α → (ι → ν) → Prop) → (ι → ν) → Prop
  | .pure a, Q, m => Q a m
  | .read i k, Q, m => i ∈ A ∧ Meets A ok (k (m i)) Q m
  | .write i v rest, Q, m => i ∈ A ∧ Meets A ok rest Q (Function.update m i v)
  | .emit o rest, Q, m => ok o ∧ Meets A ok rest Q m
  | .stuck, _, _ => False

/-! ### Rules -/

section Rules

variable {A B : Set ι} {ok ok' : ω → Prop} {p : MemProg ι ν ω α} {m m' : ι → ν}
  {Q Q' : α → (ι → ν) → Prop} {R : β → (ι → ν) → Prop} {f : α → MemProg ι ν ω β}

@[simp] theorem meets_pure {a : α} : Meets A ok (pure a : MemProg ι ν ω α) Q m ↔ Q a m :=
  Iff.rfl

theorem meets_bind :
    Meets A ok (p >>= f) R m ↔ Meets A ok p (fun a m' => Meets A ok (f a) R m') m := by
  show Meets A ok (p.bind f) R m ↔ _
  induction p generalizing m with
  | pure a => exact Iff.rfl
  | read i k ih => exact and_congr_right fun _ => ih (m i)
  | write i v rest ih => exact and_congr_right fun _ => ih
  | emit o rest ih => exact and_congr_right fun _ => ih
  | stuck => exact Iff.rfl

theorem meets_load_bind {i : ι} {f : ν → MemProg ι ν ω β} (hi : i ∈ A)
    (h : Meets A ok (f (m i)) R m) : Meets A ok (load i >>= f) R m :=
  ⟨hi, h⟩

theorem meets_store_bind {i : ι} {v : ν} {f : Unit → MemProg ι ν ω β} (hi : i ∈ A)
    (h : Meets A ok (f ()) R (Function.update m i v)) : Meets A ok (store i v >>= f) R m :=
  ⟨hi, h⟩

theorem meets_store {i : ι} {v : ν} {Q : Unit → (ι → ν) → Prop} (hi : i ∈ A)
    (h : Q () (Function.update m i v)) : Meets A ok (store i v) Q m :=
  ⟨hi, h⟩

theorem meets_tell_bind {o : ω} {f : Unit → MemProg ι ν ω β} (ho : ok o)
    (h : Meets A ok (f ()) R m) : Meets A ok (tell o >>= f) R m :=
  ⟨ho, h⟩

/-- A weaker condition, a larger footprint, more that is ok. -/
theorem Meets.mono (hA : A ⊆ B) (hok : ∀ o, ok o → ok' o) (hQ : ∀ a m', Q a m' → Q' a m')
    (h : Meets A ok p Q m) : Meets B ok' p Q' m := by
  induction p generalizing m with
  | pure a => exact hQ a m h
  | read i k ih => exact ⟨hA h.1, ih (m i) h.2⟩
  | write i v rest ih => exact ⟨hA h.1, ih h.2⟩
  | emit o rest ih => exact ⟨hok o h.1, ih h.2⟩
  | stuck => exact h

theorem Meets.imp (hQ : ∀ a m', Q a m' → Q' a m') (h : Meets A ok p Q m) :
    Meets A ok p Q' m :=
  h.mono (Set.Subset.refl A) (fun _ => id) hQ

/-- Sequencing, when the first part meets something that is enough for the second. -/
theorem Meets.bind (hp : Meets A ok p Q m)
    (hf : ∀ a m', Q a m' → Meets A ok (f a) R m') : Meets A ok (p >>= f) R m :=
  meets_bind.mpr (hp.imp hf)

/-- **Frame**: cells outside the footprint keep their values. -/
theorem Meets.frame (h : Meets A ok p Q m) :
    Meets A ok p (fun a m' => Q a m' ∧ ∀ i ∉ A, m' i = m i) m := by
  induction p generalizing m with
  | pure a => exact ⟨h, fun _ _ => rfl⟩
  | read i k ih => exact ⟨h.1, ih (m i) h.2⟩
  | write i v rest ih =>
      refine ⟨h.1, (ih h.2).imp fun a m' ⟨hQ, hout⟩ => ⟨hQ, fun j hj => ?_⟩⟩
      have hne : j ≠ i := fun heq => hj (heq ▸ h.1)
      rw [hout j hj, Function.update_of_ne hne]
  | emit o rest ih => exact ⟨h.1, ih h.2⟩
  | stuck => exact h

/-- **Locality**: memories that agree on the footprint are as good as each other. -/
theorem Meets.congr (hQ : ∀ a m m', (∀ i ∈ A, m' i = m i) → Q a m → Q a m')
    (hagree : ∀ i ∈ A, m' i = m i) (h : Meets A ok p Q m) : Meets A ok p Q m' := by
  induction p generalizing m m' with
  | pure a => exact hQ a m m' hagree h
  | read i k ih =>
      refine ⟨h.1, ?_⟩
      rw [hagree i h.1]
      exact ih (m i) hagree h.2
  | write i v rest ih =>
      refine ⟨h.1, ih (fun j hj => ?_) h.2⟩
      by_cases hji : j = i
      · rw [hji, Function.update_self, Function.update_self]
      · rw [Function.update_of_ne hji, Function.update_of_ne hji, hagree j hj]
  | emit o rest ih => exact ⟨h.1, ih hagree h.2⟩
  | stuck => exact h

/-- **The rule of loops**: a round from the invariant ends in the condition, or in the
invariant with a smaller measure. -/
theorem meets_loop {body : σ → MemProg ι ν ω (σ ⊕ α)} {I : σ → (ι → ν) → Prop} {μ : σ → ℕ}
    (hbody : ∀ s m, I s m →
      Meets A ok (body s) (fun r m' => r.elim (fun s' => I s' m' ∧ μ s' < μ s) (Q · m')) m) :
    ∀ {rounds : ℕ} {s : σ} {m : ι → ν}, I s m → μ s < rounds →
      Meets A ok (loop body rounds s) Q m := by
  intro rounds
  induction rounds with
  | zero => exact fun _ hlt => absurd hlt (Nat.not_lt_zero _)
  | succ rounds ih =>
      intro s m hI hlt
      refine (hbody s m hI).bind fun r m' hr => ?_
      cases r with
      | inl s' => exact ih hr.1 (lt_of_lt_of_le hr.2 (Nat.le_of_lt_succ hlt))
      | inr a => exact hr

end Rules

/-! ### Steps -/

section Steps

variable {A : Set ι} {ok : ω → Prop} {p p' : MemProg ι ν ω α} {m m' : ι → ν}
  {Q : α → (ι → ν) → Prop} {o : MemObs ι ω}

/-- A step shows an access to the footprint, or something that is ok. -/
def StepOk (A : Set ι) (ok : ω → Prop) : MemObs ι ω → Prop
  | .access i => i ∈ A
  | .emitted o => ok o

/-- **What a step is**: a read, a write, or an observation. -/
theorem step_cases (hstep : p.step m = some (p', m', o)) :
    (∃ i k, p = .read i k ∧ p' = k (m i) ∧ m' = m ∧ o = .access i) ∨
    (∃ i v, p = .write i v p' ∧ m' = Function.update m i v ∧ o = .access i) ∨
    ∃ o', p = .emit o' p' ∧ m' = m ∧ o = .emitted o' := by
  cases p with
  | pure a => cases hstep
  | read i k =>
      cases hstep
      exact Or.inl ⟨i, k, rfl, rfl, rfl, rfl⟩
  | write i v rest =>
      cases hstep
      exact Or.inr (Or.inl ⟨i, v, rfl, rfl, rfl⟩)
  | emit o' rest =>
      cases hstep
      exact Or.inr (Or.inr ⟨o', rfl, rfl, rfl⟩)
  | stuck => cases hstep

/-- **Every step keeps what the program meets**, and changes its footprint only. -/
theorem meets_step (h : Meets A ok p Q m) (hstep : p.step m = some (p', m', o)) :
    Meets A ok p' Q m' ∧ StepOk A ok o ∧ ∀ i ∉ A, m' i = m i := by
  obtain ⟨i, k, rfl, rfl, rfl, rfl⟩ | ⟨i, v, rfl, rfl, rfl⟩ | ⟨o', rfl, rfl, rfl⟩ :=
    step_cases hstep
  · exact ⟨h.2, h.1, fun _ _ => rfl⟩
  · refine ⟨h.2, h.1, fun j hj => ?_⟩
    have hne : j ≠ i := fun heq => hj (heq ▸ h.1)
    exact Function.update_of_ne hne v m
  · exact ⟨h.2, h.1, fun _ _ => rfl⟩

/-- What a program meets is what its step shows and what the rest meets. -/
theorem meets_step_iff (hstep : p.step m = some (p', m', o)) :
    Meets A ok p Q m ↔ StepOk A ok o ∧ Meets A ok p' Q m' := by
  obtain ⟨i, k, rfl, rfl, rfl, rfl⟩ | ⟨i, v, rfl, rfl, rfl⟩ | ⟨o', rfl, rfl, rfl⟩ :=
    step_cases hstep <;> exact Iff.rfl

/-- A program that meets something has ended, or takes a step. -/
theorem Meets.ended_or_steps (h : Meets A ok p Q m) :
    (∃ a, p = .pure a ∧ Q a m) ∨ ∃ r, p.step m = some r := by
  cases p with
  | pure a => exact Or.inl ⟨a, rfl, h⟩
  | read i k => exact Or.inr ⟨_, rfl⟩
  | write i v rest => exact Or.inr ⟨_, rfl⟩
  | emit o rest => exact Or.inr ⟨_, rfl⟩
  | stuck => exact h.elim

/-- What may be left of a program after one step, from some memory. -/
inductive Next : MemProg ι ν ω α → MemProg ι ν ω α → Prop where
  | read (i : ι) (k : ν → MemProg ι ν ω α) (v : ν) : Next (k v) (.read i k)
  | write (i : ι) (v : ν) (rest : MemProg ι ν ω α) : Next rest (.write i v rest)
  | emit (o : ω) (rest : MemProg ι ν ω α) : Next rest (.emit o rest)

theorem next_of_step (hstep : p.step m = some (p', m', o)) : Next p' p := by
  obtain ⟨i, k, rfl, rfl, -⟩ | ⟨i, v, rfl, -⟩ | ⟨o', rfl, -⟩ := step_cases hstep
  · exact .read i k (m i)
  · exact .write i v p'
  · exact .emit o' p'

omit [DecidableEq ι] in
/-- **No program steps forever.** -/
theorem wellFounded_next : WellFounded (Next : MemProg ι ν ω α → MemProg ι ν ω α → Prop) := by
  refine ⟨fun p => ?_⟩
  induction p with
  | pure a => exact ⟨_, fun _ h => nomatch h⟩
  | read i k ih => exact ⟨_, fun _ h => by cases h with | read _ _ v => exact ih v⟩
  | write i v rest ih => exact ⟨_, fun _ h => by cases h; exact ih⟩
  | emit o rest ih => exact ⟨_, fun _ h => by cases h; exact ih⟩
  | stuck => exact ⟨_, fun _ h => nomatch h⟩

end Steps

/-! ### Running alone -/

section Run

variable {A : Set ι} {ok : ω → Prop} {p p' : MemProg ι ν ω α} {m m' : ι → ν}
  {Q : α → (ι → ν) → Prop} {o : MemObs ι ω}

/-- A run is a step and the run of what is left. -/
theorem run_of_step (hstep : p.step m = some (p', m', o)) :
    p.run m = (p'.run m').map fun (a, m'', tr) => (a, m'', o :: tr) := by
  obtain ⟨i, k, rfl, rfl, rfl, rfl⟩ | ⟨i, v, rfl, rfl, rfl⟩ | ⟨o', rfl, rfl, rfl⟩ :=
    step_cases hstep <;> rfl

/-- **What a program meets, its run ends with**, and every step of the run is ok. -/
theorem Meets.exists_run (h : Meets A ok p Q m) :
    ∃ a m' tr, p.run m = some (a, m', tr) ∧ Q a m' ∧ ∀ o ∈ tr, StepOk A ok o := by
  induction p using wellFounded_next.induction generalizing m with
  | _ p ih =>
      rcases h.ended_or_steps with ⟨a, rfl, hQ⟩ | ⟨⟨p', m₁, o⟩, hstep⟩
      · exact ⟨a, m, [], rfl, hQ, List.forall_mem_nil _⟩
      · obtain ⟨h', hok, -⟩ := meets_step h hstep
        obtain ⟨a, m', tr, hrun, hQ, htr⟩ := ih p' (next_of_step hstep) h'
        refine ⟨a, m', o :: tr, ?_, hQ, List.forall_mem_cons.mpr ⟨hok, htr⟩⟩
        rw [run_of_step hstep, hrun]
        rfl

end Run

/-! ### Getting stuck -/

section Ends

variable {A B : Set ι} {ok ok' : ω → Prop} {p p' : MemProg ι ν ω α} {m m' : ι → ν}
  {Q Q' : α → (ι → ν) → Prop} {o : MemObs ι ω} {f : α → MemProg ι ν ω β}

/-- The program, run alone, comes to its end: it never gets stuck. -/
def Ends (p : MemProg ι ν ω α) (m : ι → ν) : Prop :=
  Meets Set.univ (fun _ => True) p (fun _ _ => True) m

theorem Meets.ends (h : Meets A ok p Q m) : Ends p m :=
  h.mono (Set.subset_univ A) (fun _ _ => trivial) fun _ _ _ => trivial

/-- A step does not decide whether a program ends. -/
theorem ends_step_iff (hstep : p.step m = some (p', m', o)) : Ends p m ↔ Ends p' m' := by
  refine (meets_step_iff hstep).trans (and_iff_right ?_)
  cases o with
  | access i => exact Set.mem_univ i
  | emitted o => trivial

/-- **There is one end only**: two conditions that a program meets hold of it together. -/
theorem Meets.exists_common (h : Meets A ok p Q m) (h' : Meets B ok' p Q' m) :
    ∃ a m', Q a m' ∧ Q' a m' := by
  induction p generalizing m with
  | pure a => exact ⟨a, m, h, h'⟩
  | read i k ih => exact ih (m i) h.2 h'.2
  | write i v rest ih => exact ih h.2 h'.2
  | emit o rest ih => exact ih h.2 h'.2
  | stuck => exact h.elim

/-- If a program ends, so does its first part. -/
theorem Ends.of_bind (h : Ends (p >>= f) m) : Ends p m := (meets_bind.mp h).ends

/-- If a program ends, so does what follows its first part, where that part leaves it. -/
theorem Ends.exists_of_bind (h : Ends (p >>= f) m) (hp : Meets A ok p Q m) :
    ∃ a m', Q a m' ∧ Ends (f a) m' :=
  hp.exists_common (meets_bind.mp h)

end Ends

/-! ### Threads -/

section Threads

variable [DecidableEq τ] {A : τ → Set ι} {ok : ω → Prop} {Q : τ → (ι → ν) → Prop}
  {ts ts' : τ → MemProg ι ν ω Unit} {m m' : ι → ν} {t : τ} {o : MemObs ι ω}

/-- One of several threads takes a step. -/
def stepThread (ts : τ → MemProg ι ν ω Unit) (m : ι → ν) (t : τ) :
    Option ((τ → MemProg ι ν ω Unit) × (ι → ν) × MemObs ι ω) :=
  ((ts t).step m).map fun (p', m', o) => (Function.update ts t p', m', o)

/-- Every thread meets its own condition within its own footprint. -/
def ThreadsMeet (A : τ → Set ι) (ok : ω → Prop) (Q : τ → (ι → ν) → Prop)
    (ts : τ → MemProg ι ν ω Unit) (m : ι → ν) : Prop :=
  ∀ t, Meets (A t) ok (ts t) (fun _ => Q t) m

/-- What a step of a thread is made of. -/
theorem stepThread_cases (h : stepThread ts m t = some (ts', m', o)) :
    ∃ p', (ts t).step m = some (p', m', o) ∧ ts' = Function.update ts t p' := by
  unfold stepThread at h
  obtain ⟨⟨p', m₁, o₁⟩, hstep, heq⟩ := Option.map_eq_some_iff.mp h
  obtain ⟨rfl, rfl, rfl⟩ : Function.update ts t p' = ts' ∧ m₁ = m' ∧ o₁ = o := by
    simpa using heq
  exact ⟨p', hstep, rfl⟩

/-- **The parallel rule.**  Where footprints are disjoint and each condition is about its own
footprint, a step of any thread keeps the conditions of all. -/
theorem threadsMeet_step (hdisj : Pairwise fun t u => Disjoint (A t) (A u))
    (hQ : ∀ t m m', (∀ i ∈ A t, m' i = m i) → Q t m → Q t m') (h : ThreadsMeet A ok Q ts m)
    (hstep : stepThread ts m t = some (ts', m', o)) :
    ThreadsMeet A ok Q ts' m' ∧ StepOk (A t) ok o ∧ ∀ i ∉ A t, m' i = m i := by
  obtain ⟨p', hp, rfl⟩ := stepThread_cases hstep
  obtain ⟨hmeets, hok, hframe⟩ := meets_step (h t) hp
  refine ⟨fun u => ?_, hok, hframe⟩
  by_cases hu : u = t
  · subst hu
    rwa [Function.update_self]
  · rw [Function.update_of_ne hu]
    refine (h u).congr (fun _ => hQ u) fun i hi => hframe i ?_
    exact Set.disjoint_left.mp (hdisj hu) hi

/-- All threads have ended, or one takes a step. -/
theorem ThreadsMeet.ended_or_steps (h : ThreadsMeet A ok Q ts m) :
    ((∀ t, ts t = .pure ()) ∧ ∀ t, Q t m) ∨ ∃ t r, stepThread ts m t = some r := by
  by_cases hall : ∀ t, ∃ a, ts t = .pure a ∧ Q t m
  · exact Or.inl ⟨fun t => (hall t).choose_spec.1, fun t => (hall t).choose_spec.2⟩
  · obtain ⟨t, ht⟩ := not_forall.mp hall
    obtain ⟨r, hr⟩ := (h t).ended_or_steps.resolve_left ht
    exact Or.inr ⟨t, _, by rw [stepThread, hr]; rfl⟩

end Threads

end MemProg
