import SmartOffload.MergePasses

/-!
# The sort of `time_stat`, under every interleaving

The two sorting threads work on different blocks, so each leaves its block sorted however
their steps interleave; past the barrier the merge loop sorts the array.  `StageInv` is what
holds where `time_stat` is, and `stageInv_step` that every step of any thread keeps it.

`SortsSamples` is the result: all accesses are inside the array until the merge loop is over,
then the array is a sorted permutation of the samples, and some thread can always take a
step until then (no run goes on forever, `wellFounded_follows`).  It holds up to `2 ^ 30 - 1`
samples; with `2 ^ 30`, no run gets past the merge loop (`sortsSamples_iff`).
-/

namespace SmartOffload

open MemProg

/-! ### Steps -/

section Steps

variable {rounds : ℕ} {size : ℤ}

/-- **What a step of `time_stat` is.** -/
inductive TimeStepped (rounds : ℕ) (size : ℤ) : Stage × Samples → TimeEvent →
    Stage × Samples → List (MemObs ℤ TimeObs) → Prop where
  | prepare {p p' m m' o} (h : p.step m = some (p', m', o)) :
      TimeStepped rounds size (.preparing p, m) .caller (.preparing p', m') [o]
  | fork (sum : UInt64) (blockLength : ℤ) (m : Samples) :
      TimeStepped rounds size (.preparing (.pure (sum, blockLength)), m) .caller
        (.sorting sum fun turn => heapSort rounds blockLength turn.val, m) []
  | sort {sum threads threads' m m' turn o}
      (h : stepThread threads m turn = some (threads', m', o)) :
      TimeStepped rounds size (.sorting sum threads, m) (.sorter turn)
        (.sorting sum threads', m') [o]
  | join {sum : UInt64} {threads : Fin 2 → TimeProgram Unit} (m : Samples)
      (h : ∀ turn, threads turn = .pure ()) :
      TimeStepped rounds size (.sorting sum threads, m) .caller
        (.merging sum (mergePasses rounds size), m) []
  | merge {sum p p' m m' o} (h : p.step m = some (p', m', o)) :
      TimeStepped rounds size (.merging sum p, m) .caller (.merging sum p', m') [o]
  | merged (sum : UInt64) (m : Samples) :
      TimeStepped rounds size (.merging sum (.pure ()), m) .caller
        (.reporting (report size sum), m) []
  | report {p p' m m' o} (h : p.step m = some (p', m', o)) :
      TimeStepped rounds size (.reporting p, m) .caller (.reporting p', m') [o]

/-- What a step of the caller's own program is made of. -/
theorem callerStep_cases {α : Type} {p : TimeProgram α} {m : Samples}
    {stage : TimeProgram α → Stage} {s' : Stage × Samples} {os : List (MemObs ℤ TimeObs)}
    (h : callerStep p m stage = some (s', os)) :
    ∃ p' m' o, p.step m = some (p', m', o) ∧ s' = (stage p', m') ∧ os = [o] := by
  unfold callerStep at h
  obtain ⟨⟨p', m', o⟩, hstep, heq⟩ := Option.map_eq_some_iff.mp h
  obtain ⟨rfl, rfl⟩ := Prod.mk.inj heq
  exact ⟨p', m', o, hstep, rfl, rfl⟩

theorem timeStepped_of_step {s s' : Stage × Samples} {e : TimeEvent}
    {os : List (MemObs ℤ TimeObs)} (h : timeStatStep rounds size s e = some (s', os)) :
    TimeStepped rounds size s e s' os := by
  unfold timeStatStep at h
  split at h
  next sum blockLength m =>
    obtain ⟨rfl, rfl⟩ := Prod.mk.inj (Option.some.inj h)
    exact .fork sum blockLength m
  next p m _ =>
    obtain ⟨p', m', o, hstep, rfl, rfl⟩ := callerStep_cases h
    exact .prepare hstep
  next sum threads m turn =>
    obtain ⟨⟨threads', m', o⟩, hstep, heq⟩ := Option.map_eq_some_iff.mp h
    obtain ⟨rfl, rfl⟩ := Prod.mk.inj heq
    exact .sort hstep
  next sum threads m =>
    split at h
    next h₀ h₁ =>
      obtain ⟨rfl, rfl⟩ := Prod.mk.inj (Option.some.inj h)
      refine .join m fun turn => ?_
      match turn with
      | 0 => exact h₀
      | 1 => exact h₁
    · cases h
  next sum u m =>
    obtain ⟨rfl, rfl⟩ := Prod.mk.inj (Option.some.inj h)
    exact .merged sum m
  next sum p m _ =>
    obtain ⟨p', m', o, hstep, rfl, rfl⟩ := callerStep_cases h
    exact .merge hstep
  next p m =>
    obtain ⟨p', m', o, hstep, rfl, rfl⟩ := callerStep_cases h
    exact .report hstep
  · cases h

theorem step_of_timeStepped {s s' : Stage × Samples} {e : TimeEvent}
    {os : List (MemObs ℤ TimeObs)} (h : TimeStepped rounds size s e s' os) :
    timeStatStep rounds size s e = some (s', os) := by
  cases h with
  | @prepare p p' m m' o hstep =>
      cases p with
      | pure a => cases hstep
      | _ => simp only [timeStatStep, callerStep, hstep, Option.map_some]
  | fork sum blockLength m => rfl
  | sort hstep => simp only [timeStatStep, hstep, Option.map_some]
  | join m hall => simp only [timeStatStep, hall]
  | @merge sum p p' m m' o hstep =>
      cases p with
      | pure a => cases hstep
      | _ => simp only [timeStatStep, callerStep, hstep, Option.map_some]
  | merged sum m => rfl
  | report hstep => simp only [timeStatStep, callerStep, hstep, Option.map_some]

theorem timeStat_step_iff {s s' : Stage × Samples} {e : TimeEvent}
    {os : List (MemObs ℤ TimeObs)} :
    (timeStatMachine rounds size).step s e = some (s', os) ↔
      TimeStepped rounds size s e s' os :=
  ⟨timeStepped_of_step, step_of_timeStepped⟩

end Steps

/-! ### No run goes on forever -/

section Ends

variable {rounds : ℕ} {size : ℤ}

/-- A stage that runs one program comes to its end. -/
theorem acc_of_program {α : Type} {stage : TimeProgram α → Stage}
    (h : ∀ {p m s'}, (timeStatMachine rounds size).Follows s' (stage p, m) →
      (∃ p' m', Next p' p ∧ s' = (stage p', m')) ∨
        Acc (timeStatMachine rounds size).Follows s') (p : TimeProgram α) :
    ∀ m, Acc (timeStatMachine rounds size).Follows (stage p, m) := by
  induction p using wellFounded_next.induction with
  | _ p ih =>
      refine fun m => ⟨_, fun s' hs' => ?_⟩
      rcases h hs' with ⟨p', m', hnext, rfl⟩ | hacc
      · exact ih p' hnext m'
      · exact hacc

theorem acc_reporting (p : TimeProgram Figures) (m : Samples) :
    Acc (timeStatMachine rounds size).Follows (.reporting p, m) := by
  refine acc_of_program ?_ p m
  rintro p m s' ⟨e, os, hstep⟩
  cases timeStat_step_iff.mp hstep with
  | report h => exact Or.inl ⟨_, _, next_of_step h, rfl⟩

theorem acc_merging (sum : UInt64) (p : TimeProgram Unit) (m : Samples) :
    Acc (timeStatMachine rounds size).Follows (.merging sum p, m) := by
  refine acc_of_program ?_ p m
  rintro p m s' ⟨e, os, hstep⟩
  cases timeStat_step_iff.mp hstep with
  | merge h => exact Or.inl ⟨_, _, next_of_step h, rfl⟩
  | merged => exact Or.inr (acc_reporting _ _)

/-- Two threads come to their end, whoever takes the steps. -/
theorem acc_sorting (sum : UInt64) (threads : Fin 2 → TimeProgram Unit) (m : Samples) :
    Acc (timeStatMachine rounds size).Follows (.sorting sum threads, m) := by
  have hnext : WellFounded (Next : TimeProgram Unit → TimeProgram Unit → Prop) :=
    wellFounded_next
  have hwf := hnext.prod_gameAdd hnext
  have hall : ∀ x : TimeProgram Unit × TimeProgram Unit, ∀ threads m,
      (threads 0, threads 1) = x →
        Acc (timeStatMachine rounds size).Follows (.sorting sum threads, m) := by
    intro x
    induction x using hwf.induction with
    | _ x ih =>
        rintro threads m rfl
        refine ⟨_, fun s' ⟨e, os, hstep⟩ => ?_⟩
        cases timeStat_step_iff.mp hstep with
        | join => exact acc_merging _ _ _
        | @sort _ _ _ _ _ turn _ h =>
            obtain ⟨p', hp, rfl⟩ := stepThread_cases h
            refine ih _ ?_ _ _ rfl
            match turn with
            | 0 =>
                rw [Function.update_self, Function.update_of_ne (by decide)]
                exact Prod.GameAdd.fst (next_of_step hp)
            | 1 =>
                rw [Function.update_self, Function.update_of_ne (by decide)]
                exact Prod.GameAdd.snd (next_of_step hp)
  exact hall _ threads m rfl

/-- **No run of `time_stat` goes on forever.** -/
theorem wellFounded_follows (rounds : ℕ) (size : ℤ) :
    WellFounded (timeStatMachine rounds size).Follows := by
  refine ⟨fun ⟨stage, m⟩ => ?_⟩
  cases stage with
  | preparing p =>
      refine acc_of_program ?_ p m
      rintro p m s' ⟨e, os, hstep⟩
      cases timeStat_step_iff.mp hstep with
      | prepare h => exact Or.inl ⟨_, _, next_of_step h, rfl⟩
      | fork => exact Or.inr (acc_sorting _ _ _)
  | sorting sum threads => exact acc_sorting sum threads m
  | merging sum p => exact acc_merging sum p m
  | reporting p => exact acc_reporting p m

end Ends

/-! ### What holds where `time_stat` is -/

section Invariant

variable {rounds : ℕ} {size : ℤ} {nums m m' : Samples}

/-- The sum of the samples, in 64 bits. -/
def sampleSum (nums : Samples) (size : ℤ) : UInt64 := (slice nums 0 size).foldl (· + ·) 0

/-- The samples, in order. -/
structure SortedSamples (size : ℤ) (nums m : Samples) : Prop where
  sorted : SliceSorted m 0 size
  perm : (slice m 0 size).Perm (slice nums 0 size)

/-- The figures at their indices in the array. -/
def figuresOf (size : ℤ) (sum : UInt64) (m : Samples) : Figures :=
  ⟨printLong (m 0), printLong (m (size / 2)), printLong (m (size * 4 / 5)),
    printLong (m (size * 99 / 100)), printLong (m (size - 1)),
    printLong (sum / UInt64.ofNat size.toNat)⟩

/-- While the threads run: each is on its way to sort its block, and the rest of the array is
as it was. -/
structure ThreadsInv (size : ℤ) (nums m : Samples) (threads : Fin 2 → TimeProgram Unit) :
    Prop where
  meets : ThreadsMeet (fun turn => blockCells (size / 2) turn.val) (TimeObs.Fits size)
    (fun turn => BlockSorted (size / 2) turn.val nums) threads m
  rest : ∀ x ∉ Set.Ico 0 (2 * (size / 2)), m x = nums x

/-- **The invariant of `time_stat`.**  Reporting is included up to the size where `size * 99`
is an `int`. -/
def StageInv (size : ℤ) (nums : Samples) : Stage × Samples → Prop
  | (.preparing p, m) =>
      Meets (Set.Ico 0 size) (TimeObs.Fits size) p
        (fun r m' => m' = nums ∧ r = (sampleSum nums size, size / 2)) m
  | (.sorting sum threads, m) => sum = sampleSum nums size ∧ ThreadsInv size nums m threads
  | (.merging sum p, m) => sum = sampleSum nums size ∧
      Meets (Set.Ico 0 size) (TimeObs.Fits size) p (fun _ => SortedSamples size nums) m
  | (.reporting p, m) => size ≤ 21691754 →
      Meets (Set.Ico 0 size) (TimeObs.Fits size) p (fun f _ => ∃ m₁, SortedSamples size nums m₁ ∧
        f = figuresOf size (sampleSum nums size) m₁) m

/-- One round of the sum. -/
theorem meets_sumStep (nums : Samples) (hsize : size ≤ 1073741824) (js : ℤ × UInt64) (m : Samples)
    (h : m = nums ∧ (0 ≤ js.1 ∧ js.1 ≤ size) ∧ js.2 = sampleSum nums js.1) :
    Meets (Set.Ico 0 size) (TimeObs.Fits size) (sumStep size js)
      (fun r m' => r.elim
        (fun js' => (m' = nums ∧ (0 ≤ js'.1 ∧ js'.1 ≤ size) ∧ js'.2 = sampleSum nums js'.1) ∧
          (size - js'.1).toNat < (size - js.1).toNat)
        fun sum => m' = nums ∧ sum = sampleSum nums size) m := by
  obtain ⟨rfl, ⟨hlow, hhigh⟩, hsum⟩ := h
  unfold sumStep
  split
  next hlt =>
    refine meets_load_bind ⟨hlow, hlt⟩ (meets_arith_bind (by omega) (by omega) ?_)
    refine ⟨⟨rfl, ⟨show 0 ≤ js.1 + 1 by omega, show js.1 + 1 ≤ size by omega⟩, ?_⟩,
      show (size - (js.1 + 1)).toNat < (size - js.1).toNat by omega⟩
    show js.2 + m js.1 = sampleSum m (js.1 + 1)
    rw [hsum, sampleSum, sampleSum, slice_concat hlow, List.foldl_append]
    rfl
  next hge =>
    have hend : js.1 = size := by omega
    rw [hend] at hsum
    exact ⟨rfl, hsum⟩

theorem meets_prepare (hnonneg : 0 ≤ size) (hsize : size ≤ 1073741824) (hrounds : size < rounds) :
    Meets (Set.Ico 0 size) (TimeObs.Fits size) (prepare rounds size)
      (fun r m' => m' = nums ∧ r = (sampleSum nums size, size / 2)) nums := by
  unfold prepare
  have hstart : (0 : UInt64) = sampleSum nums 0 := by
    rw [sampleSum, slice_eq_nil le_rfl]
    rfl
  refine (meets_loop (fun js m' => meets_sumStep nums hsize js m')
    ⟨rfl, ⟨le_rfl, hnonneg⟩, hstart⟩ (show (size - 0).toNat < rounds by omega)).bind ?_
  rintro sum m ⟨rfl, rfl⟩
  refine meets_arith_bind ?_ ?_ ?_ <;> rw [turnQuantity, tdiv_two hnonneg]
  · omega
  · omega
  · exact ⟨rfl, rfl⟩

/-- The threads have different cells. -/
theorem pairwise_disjoint_blockCells {blockLength : ℤ} (hlength : 0 ≤ blockLength) :
    Pairwise fun turn turn' : Fin 2 =>
      Disjoint (blockCells blockLength turn.val) (blockCells blockLength turn'.val) := by
  intro turn turn' hne
  rcases lt_or_gt_of_ne (Fin.val_ne_of_ne hne) with hlt | hgt
  · exact disjoint_blockCells hlength (by omega)
  · exact (disjoint_blockCells hlength (by omega)).symm

/-- What is in a block can be told from its cells. -/
theorem BlockSorted.congr {blockLength turn : ℤ}
    (hagree : ∀ i ∈ blockCells blockLength turn, m' i = m i)
    (h : BlockSorted blockLength turn nums m) : BlockSorted blockLength turn nums m' := by
  have hslice : slice m' (turn * blockLength) (blockLength + turn * blockLength) =
      slice m (turn * blockLength) (blockLength + turn * blockLength) :=
    slice_congr fun i hlow hhigh => hagree i ⟨hlow, hhigh⟩
  constructor
  · rw [SliceSorted, hslice]
    exact h.sorted
  · rw [hslice]
    exact h.perm

/-- The threads that have been created are on their way. -/
theorem threadsInv_fork (hnonneg : 0 ≤ size) (hsize : size ≤ 1073741824)
    (hrounds : size < rounds) :
    ThreadsInv size nums nums fun turn => heapSort rounds (size / 2) turn.val :=
  ⟨fun _ => meets_heapSort (by omega) (by omega) (by omega), fun _ _ => rfl⟩

/-- A step of a thread. -/
theorem ThreadsInv.step {threads threads' : Fin 2 → TimeProgram Unit} {turn : Fin 2}
    {o : MemObs ℤ TimeObs} (hnonneg : 0 ≤ size) (h : ThreadsInv size nums m threads)
    (hstep : stepThread threads m turn = some (threads', m', o)) :
    ThreadsInv size nums m' threads' ∧ StepOk (Set.Ico 0 size) (TimeObs.Fits size) o := by
  obtain ⟨hmeets, hok, hframe⟩ := threadsMeet_step (pairwise_disjoint_blockCells (by omega))
    (fun _ _ _ => BlockSorted.congr) h.meets hstep
  have hinside : ∀ i ∈ blockCells (size / 2) turn.val, i ∈ Set.Ico 0 (2 * (size / 2)) := by
    intro i hi
    have hlow := hi.1
    have hhigh := hi.2
    have hturn := turn.isLt
    have hcases : (turn.val : ℤ) = 0 ∨ (turn.val : ℤ) = 1 := by omega
    rcases hcases with hturn | hturn <;> rw [hturn] at hlow hhigh <;>
      exact ⟨by omega, by omega⟩
  refine ⟨⟨hmeets, fun x hx => ?_⟩, ?_⟩
  · rw [hframe x fun hmem => hx (hinside x hmem), h.rest x hx]
  · cases o with
    | access i =>
        have hmem := hinside i hok
        exact ⟨hmem.1, by have := hmem.2; omega⟩
    | emitted o => exact hok

/-- **Past the barrier** both halves are sorted, and the array is permuted. -/
theorem ThreadsInv.join {threads : Fin 2 → TimeProgram Unit} (hnonneg : 0 ≤ size)
    (h : ThreadsInv size nums m threads) (hended : ∀ turn, threads turn = .pure ()) :
    SliceSorted m 0 (size / 2) ∧ SliceSorted m (size / 2) (2 * (size / 2)) ∧
      (slice m 0 size).Perm (slice nums 0 size) := by
  have hblock : ∀ turn : Fin 2, BlockSorted (size / 2) turn.val nums m := by
    intro turn
    have hmeets := h.meets turn
    rwa [hended turn] at hmeets
  obtain ⟨hsorted₀, hperm₀⟩ := hblock 0
  obtain ⟨hsorted₁, hperm₁⟩ := hblock 1
  have h₀ : ((0 : Fin 2).val : ℤ) * (size / 2) = 0 := Int.zero_mul _
  have h₁ : ((1 : Fin 2).val : ℤ) * (size / 2) = size / 2 := Int.one_mul _
  have h₂ : size / 2 + size / 2 = 2 * (size / 2) := by omega
  rw [h₀, Int.add_zero] at hsorted₀ hperm₀
  rw [h₁, h₂] at hsorted₁ hperm₁
  refine ⟨hsorted₀, hsorted₁, ?_⟩
  refine slice_perm_of_part le_rfl (show 0 ≤ 2 * (size / 2) by omega) (by omega) ?_ h.rest
  rw [slice_append (show 0 ≤ size / 2 by omega) (show size / 2 ≤ 2 * (size / 2) by omega),
    slice_append (m := nums) (show 0 ≤ size / 2 by omega)
      (show size / 2 ≤ 2 * (size / 2) by omega)]
  exact hperm₀.append hperm₁

/-- The report reads the figures at their indices. -/
theorem meets_report {sum : UInt64} (hpos : 1 ≤ size) (hsize : size ≤ 21691754) :
    Meets (Set.Ico 0 size) (TimeObs.Fits size) (report size sum)
      (fun f m' => m' = m ∧ f = figuresOf size sum m) m := by
  have h₁ : size.tdiv 2 = size / 2 := tdiv_two (by omega)
  have h₂ : (size * 4).tdiv 5 = size * 4 / 5 := Int.tdiv_eq_ediv_of_nonneg (by omega)
  have h₃ : (size * 99).tdiv 100 = size * 99 / 100 := Int.tdiv_eq_ediv_of_nonneg (by omega)
  unfold report
  refine meets_load_bind ⟨by omega, by omega⟩ ?_
  rw [h₁]
  refine meets_arith_bind (by omega) (by omega) (meets_load_bind ⟨by omega, by omega⟩ ?_)
  refine meets_arith_bind (by omega) (by omega) ?_
  rw [h₂]
  refine meets_arith_bind (by omega) (by omega) (meets_load_bind ⟨by omega, by omega⟩ ?_)
  refine meets_arith_bind (by omega) (by omega) ?_
  rw [h₃]
  refine meets_arith_bind (by omega) (by omega) (meets_load_bind ⟨by omega, by omega⟩ ?_)
  refine meets_arith_bind (by omega) (by omega) (meets_load_bind ⟨by omega, by omega⟩ ?_)
  exact ⟨rfl, rfl⟩

/-- **Every step keeps the invariant**, and stays inside the array; reporting does so where
`size * 99` is an `int`. -/
theorem stageInv_step {s s' : Stage × Samples} {e : TimeEvent} {os : List (MemObs ℤ TimeObs)}
    (hpos : 1 ≤ size) (hsize : size ≤ 1073741823) (hrounds : size + 1 < rounds)
    (h : StageInv size nums s) (hstep : TimeStepped rounds size s e s' os) :
    StageInv size nums s' ∧ ((∀ p, s.1 = .reporting p → size ≤ 21691754) →
      ∀ o ∈ os, StepOk (Set.Ico 0 size) (TimeObs.Fits size) o) := by
  cases hstep with
  | prepare hp =>
      obtain ⟨hmeets, hok, -⟩ := meets_step h hp
      exact ⟨hmeets, fun _ => List.forall_mem_singleton.mpr hok⟩
  | fork sum blockLength m =>
      obtain ⟨rfl, hr⟩ := h
      obtain ⟨rfl, rfl⟩ := Prod.mk.inj hr
      exact ⟨⟨rfl, threadsInv_fork (by omega) (by omega) (by omega)⟩,
        fun _ => List.forall_mem_nil _⟩
  | sort hp =>
      obtain ⟨hinv, hok⟩ := h.2.step (by omega) hp
      exact ⟨⟨h.1, hinv⟩, fun _ => List.forall_mem_singleton.mpr hok⟩
  | join m hended =>
      obtain ⟨hfirst, hsecond, hperm⟩ := h.2.join (by omega) hended
      refine ⟨⟨h.1, ?_⟩, fun _ => List.forall_mem_nil _⟩
      refine (meets_mergePasses (by omega) hsize hrounds hfirst hsecond).imp fun _ m' h' => ?_
      exact ⟨h'.1, h'.2.trans hperm⟩
  | merge hp =>
      obtain ⟨hmeets, hok, -⟩ := meets_step h.2 hp
      exact ⟨⟨h.1, hmeets⟩, fun _ => List.forall_mem_singleton.mpr hok⟩
  | merged sum m =>
      obtain ⟨rfl, hsorted⟩ := h
      refine ⟨fun hsmall => ?_, fun _ => List.forall_mem_nil _⟩
      refine (meets_report hpos hsmall).imp fun f m' hf => ⟨m, hsorted, hf.2⟩
  | @report p _ _ _ _ hp =>
      refine ⟨fun hsmall => (meets_step (h hsmall) hp).1, fun hreports => ?_⟩
      have hok := (meets_step (h (hreports p rfl)) hp).2.1
      exact List.forall_mem_singleton.mpr hok

/-- Where the invariant holds, `time_stat` is done, or some thread takes a step. -/
theorem StageInv.ended_or_steps {s : Stage × Samples} (h : StageInv size nums s)
    (hreports : ∀ p, s.1 = .reporting p → size ≤ 21691754) :
    (∃ f, s.1 = .reporting (.pure f)) ∨
      ∃ s', (timeStatMachine rounds size).Follows s' s := by
  have hsteps : ∀ {e s' os}, TimeStepped rounds size s e s' os →
      (∃ f, s.1 = .reporting (.pure f)) ∨ ∃ s', (timeStatMachine rounds size).Follows s' s :=
    fun hstep => Or.inr ⟨_, _, _, timeStat_step_iff.mpr hstep⟩
  obtain ⟨stage, m⟩ := s
  cases stage with
  | preparing p =>
      rcases Meets.ended_or_steps h with ⟨⟨sum, blockLength⟩, rfl, -⟩ | ⟨⟨p', m', o⟩, hp⟩
      · exact hsteps (.fork sum blockLength m)
      · exact hsteps (.prepare hp)
  | sorting sum threads =>
      rcases h.2.meets.ended_or_steps with ⟨hended, -⟩ | ⟨turn, ⟨threads', m', o⟩, hp⟩
      · exact hsteps (.join m hended)
      · exact hsteps (.sort hp)
  | merging sum p =>
      rcases h.2.ended_or_steps with ⟨u, rfl, -⟩ | ⟨⟨p', m', o⟩, hp⟩
      · exact hsteps (.merged sum m)
      · exact hsteps (.merge hp)
  | reporting p =>
      rcases (h (hreports p rfl)).ended_or_steps with ⟨f, rfl, -⟩ | ⟨⟨p', m', o⟩, hp⟩
      · exact Or.inl ⟨f, rfl⟩
      · exact hsteps (.report hp)

end Invariant

/-! ### The result -/

/-- `time_stat`, called on these samples. -/
def timeStatStart (rounds : ℕ) (size : ℤ) (nums : Samples) : Stage × Samples :=
  (.preparing (prepare rounds size), nums)

/-- The merge loop is not over. -/
def Stage.BeforeReport : Stage → Prop
  | .reporting _ => False
  | _ => True

/-- The access is inside the array, or inside the buffer of `merge`. -/
def InsideArray (size : ℤ) : MemObs ℤ TimeObs → Prop
  | .access i => 0 ≤ i ∧ i < size
  | .emitted (.int _) => True
  | .emitted (.buffer k length) => 0 ≤ k ∧ k < length ∧ length ≤ size

/-- **`time_stat` sorts the samples**, whoever takes the steps. -/
structure SortsSamples (rounds : ℕ) (size : ℤ) (nums : Samples) : Prop where
  /-- Until the merge loop is over, all accesses are inside the array. -/
  inside : ∀ es tr s e s' os,
    (timeStatMachine rounds size).Run (timeStatStart rounds size nums) es tr s →
      s.1.BeforeReport → (timeStatMachine rounds size).step s e = some (s', os) →
        ∀ o ∈ os, InsideArray size o
  /-- Until then, some thread takes a step. -/
  progress : ∀ es tr s,
    (timeStatMachine rounds size).Run (timeStatStart rounds size nums) es tr s →
      s.1.BeforeReport → ∃ s', (timeStatMachine rounds size).Follows s' s
  /-- No run goes on forever. -/
  ends : WellFounded (timeStatMachine rounds size).Follows
  /-- When it is over, the array is a sorted permutation of the samples. -/
  sorted : ∀ es tr sum m,
    (timeStatMachine rounds size).Run (timeStatStart rounds size nums) es tr
        (.merging sum (.pure ()), m) →
      (slice m 0 size).Pairwise (· ≤ ·) ∧ (slice m 0 size).Perm (slice nums 0 size)

section Runs

variable {rounds : ℕ} {size : ℤ} {nums : Samples}

/-- The invariant holds in every state of every run. -/
theorem stageInv_of_run {es : List TimeEvent} {tr : List (MemObs ℤ TimeObs)}
    {s : Stage × Samples} (hpos : 1 ≤ size) (hsize : size ≤ 1073741823)
    (hrounds : size + 1 < rounds)
    (hrun : (timeStatMachine rounds size).Run (timeStatStart rounds size nums) es tr s) :
    StageInv size nums s :=
  Machine.RunWhile.state_invariant hrun (meets_prepare (by omega) (by omega) (by omega))
    fun hs _ hstep => (stageInv_step hpos hsize hrounds hs (timeStat_step_iff.mp hstep)).1

theorem insideArray_of_stepOk {o : MemObs ℤ TimeObs}
    (h : StepOk (Set.Ico 0 size) (TimeObs.Fits size) o) : InsideArray size o := by
  cases o with
  | access i => exact h
  | emitted o =>
      cases o with
      | int x => trivial
      | buffer k length => exact h

/-- **The sort is right** below `2 ^ 30` samples, under every interleaving. -/
theorem sortsSamples_of_le (hpos : 1 ≤ size) (hsize : size ≤ 1073741823)
    (hrounds : size + 1 < rounds) : SortsSamples rounds size nums where
  inside es tr s e s' os hrun hbefore hstep := by
    have hinv := stageInv_of_run hpos hsize hrounds hrun
    have hnot : ∀ p, s.1 = .reporting p → size ≤ 21691754 := fun p hp => by
      rw [hp] at hbefore
      exact hbefore.elim
    intro o ho
    exact insideArray_of_stepOk
      ((stageInv_step hpos hsize hrounds hinv (timeStat_step_iff.mp hstep)).2 hnot o ho)
  progress es tr s hrun hbefore := by
    have hinv := stageInv_of_run hpos hsize hrounds hrun
    have hnot : ∀ p, s.1 ≠ .reporting p := fun p hp => by
      rw [hp] at hbefore
      exact hbefore.elim
    refine (hinv.ended_or_steps fun p hp => absurd hp (hnot p)).resolve_left ?_
    rintro ⟨f, hf⟩
    exact hnot _ hf
  ends := wellFounded_follows rounds size
  sorted es tr sum m hrun := by
    have hinv := stageInv_of_run hpos hsize hrounds hrun
    exact ⟨hinv.2.sorted, hinv.2.perm⟩

/-- The merge loop is not over, and if it is going on, it gets stuck. -/
def Doomed : Stage × Samples → Prop
  | (.merging _ p, m) => ¬ Ends p m
  | (.reporting _, _) => False
  | _ => True

theorem doomed_step {s s' : Stage × Samples} {e : TimeEvent} {os : List (MemObs ℤ TimeObs)}
    (hpasses : ∀ m, ¬ Ends (mergePasses rounds size) m) (h : Doomed s)
    (hstep : TimeStepped rounds size s e s' os) : Doomed s' := by
  cases hstep with
  | join m hended => exact hpasses m
  | merge hp => exact fun hends => h ((ends_step_iff hp).mpr hends)
  | merged sum m => exact h trivial
  | report hp => exact h
  | prepare hp => trivial
  | fork => trivial
  | sort hp => trivial

theorem Doomed.beforeReport {s : Stage × Samples} (h : Doomed s) : s.1.BeforeReport := by
  obtain ⟨stage, m⟩ := s
  cases stage with
  | reporting p => exact h
  | _ => trivial

/-- With `2 ^ 30` samples the merge loop is never over. -/
theorem beforeReport_of_run {es : List TimeEvent} {tr : List (MemObs ℤ TimeObs)}
    {s : Stage × Samples} (hrounds : 1073741825 < rounds)
    (hrun : (timeStatMachine rounds 1073741824).Run (timeStatStart rounds 1073741824 nums)
      es tr s) : s.1.BeforeReport :=
  have hdoomed : Doomed s := Machine.RunWhile.state_invariant hrun trivial fun hs _ hstep =>
    doomed_step (fun _ => not_ends_mergePasses hrounds) hs (timeStat_step_iff.mp hstep)
  hdoomed.beforeReport

/-- A sort that is right gets past the merge loop. -/
theorem SortsSamples.exists_run_report (h : SortsSamples rounds size nums) :
    ∃ es tr s, (timeStatMachine rounds size).Run (timeStatStart rounds size nums) es tr s ∧
      ¬ s.1.BeforeReport :=
  Machine.exists_run_of_wellFounded h.ends fun hrun hbefore =>
    h.progress _ _ _ hrun (not_not.mp hbefore)

/-- **When the sort is right**, on any array of up to `2 ^ 30` samples: exactly where there are
fewer than `2 ^ 30`. -/
theorem sortsSamples_iff (hpos : 1 ≤ size) (hsize : size ≤ 1073741824)
    (hrounds : size + 1 < rounds) :
    SortsSamples rounds size nums ↔ size ≤ 1073741823 := by
  constructor
  · intro h
    by_contra hmore
    obtain rfl : size = 1073741824 := by omega
    obtain ⟨es, tr, s, hrun, hreports⟩ := h.exists_run_report
    exact hreports (beforeReport_of_run (by omega) hrun)
  · exact fun hless => sortsSamples_of_le hpos hless hrounds

/-- Five samples: the last is in no thread's block. -/
theorem sortsSamples_five :
    SortsSamples 7 5 fun i => UInt64.ofNat (9 - i.toNat) :=
  (sortsSamples_iff (by decide) (by decide) (by decide)).mpr (by decide)

/-- **With `2 ^ 30` samples** no number of rounds gets `time_stat` past its merge loop. -/
theorem not_sortsSamples_limit :
    (∀ rounds > 1073741825, ∀ es tr s, (timeStatMachine rounds 1073741824).Run
      (timeStatStart rounds 1073741824 fun _ => 0) es tr s → s.1.BeforeReport) ∧
    ¬ ∃ rounds > 1073741825, SortsSamples rounds 1073741824 fun _ => 0 := by
  have hbefore : ∀ rounds > 1073741825, ∀ es tr s, (timeStatMachine rounds 1073741824).Run
      (timeStatStart rounds 1073741824 fun _ => 0) es tr s → s.1.BeforeReport :=
    fun _ hrounds _ _ _ hrun => beforeReport_of_run hrounds hrun
  refine ⟨hbefore, ?_⟩
  rintro ⟨rounds, hrounds, h⟩
  obtain ⟨es, tr, s, hrun, hreports⟩ := h.exists_run_report
  exact hreports (hbefore rounds hrounds es tr s hrun)

end Runs

end SmartOffload
