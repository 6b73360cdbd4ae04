import SmartOffload.SampleSort

/-!
# The `int` arithmetic of `time_stat`

`time_stat` takes its size as an `int`.  In the sort and in the merge passes no `int` operation
overflows below `2 ^ 30` samples, but the index of the `99%` figure is computed as
`size * 99 / 100`, and the product is an `int`.  So `time_stat` is safe up to 21691754 samples
and not beyond (`intSafe_iff`).
-/

namespace SmartOffload

open MemProg

/-- In range: the result of an `int` operation is an `int`, and accesses are inside. -/
def InRange (size : ℤ) : MemObs ℤ TimeObs → Prop
  | .access i => 0 ≤ i ∧ i < size
  | .emitted (.int x) => -2147483648 ≤ x ∧ x ≤ 2147483647
  | .emitted (.buffer k length) => 0 ≤ k ∧ k < length

/-- **`time_stat` is safe** on these samples: everything it does is in range, and it goes on to
its end. -/
structure IntSafe (rounds : ℕ) (size : ℤ) (nums : Samples) : Prop where
  inRange : ∀ es tr s,
    (timeStatMachine rounds size).Run (timeStatStart rounds size nums) es tr s →
      ∀ o ∈ tr, InRange size o
  progress : ∀ es tr s,
    (timeStatMachine rounds size).Run (timeStatStart rounds size nums) es tr s →
      (∃ f, s.1 = .reporting (.pure f)) ∨ ∃ s', (timeStatMachine rounds size).Follows s' s
  /-- No run goes on forever. -/
  ends : WellFounded (timeStatMachine rounds size).Follows

section

variable {rounds : ℕ} {size : ℤ} {nums : Samples}

theorem inRange_of_stepOk {o : MemObs ℤ TimeObs}
    (h : StepOk (Set.Ico 0 size) (TimeObs.Fits size) o) : InRange size o := by
  cases o with
  | access i => exact h
  | emitted o =>
      cases o with
      | int x => exact h
      | buffer k length => exact ⟨h.1, h.2.1⟩

/-- Up to the size whose product with 99 is an `int`, `time_stat` is safe. -/
theorem intSafe_of_le (hpos : 1 ≤ size) (hsize : size ≤ 21691754)
    (hrounds : size + 1 < rounds) : IntSafe rounds size nums where
  inRange es tr s hrun := by
    have hstart : StageInv size nums (timeStatStart rounds size nums) :=
      meets_prepare (by omega) (by omega) (by omega)
    refine (Machine.RunWhile.invariant hrun
      (P := fun s tr => StageInv size nums s ∧ ∀ o ∈ tr, InRange size o)
      ⟨hstart, List.forall_mem_nil _⟩ ?_).2
    rintro s tr e s' os ⟨hinv, htr⟩ - hstep
    obtain ⟨hinv', hos⟩ :=
      stageInv_step hpos (by omega) hrounds hinv (timeStat_step_iff.mp hstep)
    refine ⟨hinv', fun o ho => ?_⟩
    rcases List.mem_append.mp ho with ho | ho
    · exact htr o ho
    · exact inRange_of_stepOk (hos (fun _ _ => hsize) o ho)
  progress es tr s hrun :=
    (stageInv_of_run hpos (by omega) hrounds hrun).ended_or_steps fun _ _ => hsize
  ends := wellFounded_follows rounds size

/-- A report that ends computes `size * 99` as an `int`. -/
theorem isInt_of_ends_report {sum : UInt64} {m : Samples} (h : Ends (report size sum) m) :
    IsInt (size * 99) := by
  have hhalf := (meets_arith_bind_iff.mp h.2).2.2
  have hfirst := (meets_arith_bind_iff.mp hhalf.2).2.2
  have hindex := (meets_arith_bind_iff.mp hfirst).2.2
  exact (meets_arith_bind_iff.mp hindex.2).2.1

/-- If a report is going on, it gets stuck. -/
def ReportDoomed : Stage × Samples → Prop
  | (.reporting p, m) => ¬ Ends p m
  | _ => True

theorem reportDoomed_step {s s' : Stage × Samples} {e : TimeEvent}
    {os : List (MemObs ℤ TimeObs)} (hover : ¬ IsInt (size * 99)) (h : ReportDoomed s)
    (hstep : TimeStepped rounds size s e s' os) : ReportDoomed s' := by
  cases hstep with
  | merged sum m => exact fun hends => hover (isInt_of_ends_report hends)
  | report hp => exact fun hends => h ((ends_step_iff hp).mpr hends)
  | prepare hp => trivial
  | fork => trivial
  | sort hp => trivial
  | join => trivial
  | merge hp => trivial

/-- **Safety bounds the size**: the product of the size and 99 is an `int`. -/
theorem IntSafe.le (h : IntSafe rounds size nums) : size ≤ 21691754 := by
  by_contra hmore
  have hover : ¬ IsInt (size * 99) := fun hint => by
    have hmax := hint.2
    omega
  have hdoomed : ∀ {es tr s},
      (timeStatMachine rounds size).Run (timeStatStart rounds size nums) es tr s →
        ReportDoomed s := fun hrun =>
    Machine.RunWhile.state_invariant hrun trivial fun hs _ hstep =>
      reportDoomed_step hover hs (timeStat_step_iff.mp hstep)
  obtain ⟨es, tr, ⟨stage, m⟩, hrun, f, hf⟩ := Machine.exists_run_of_wellFounded h.ends
    fun hrun hnot => (h.progress _ _ _ hrun).resolve_left hnot
  obtain rfl : stage = .reporting (.pure f) := hf
  exact hdoomed hrun trivial

/-- **When `time_stat` is safe**, with enough rounds for its loops, on every array: exactly up
to 21691754 samples. -/
theorem intSafe_iff (hpos : 1 ≤ size) (hint : size ≤ 2147483647) :
    (∃ enough, ∀ rounds ≥ enough, ∀ nums, IntSafe rounds size nums) ↔ size ≤ 21691754 := by
  constructor
  · rintro ⟨enough, h⟩
    exact (h enough le_rfl fun _ => 0).le
  · intro hsize
    exact ⟨size.toNat + 2, fun rounds hrounds nums => intSafe_of_le hpos hsize (by omega)⟩

/-- A thousand samples. -/
theorem intSafe_thousand : ∃ enough, ∀ rounds ≥ enough, ∀ nums, IntSafe rounds 1000 nums :=
  (intSafe_iff (by decide) (by decide)).mpr (by decide)

/-- **One sample more than the bound** is not safe, with any number of rounds. -/
theorem not_intSafe_21691755 :
    ¬ ∃ enough, ∀ rounds ≥ enough, ∀ nums, IntSafe rounds 21691755 nums := by
  rintro ⟨enough, h⟩
  exact absurd (h enough le_rfl fun _ => 0).le (by decide)

end

end SmartOffload
