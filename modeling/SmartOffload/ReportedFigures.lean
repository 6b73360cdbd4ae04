import SmartOffload.SampleSort

/-!
# The figures `time_stat` reports

After the sort every figure is an element at an index, or the sum over the number of samples.
The minimum, the maximum and the `50%` and `99%` figures have the index of their rank.  The
`90%` figure is taken at `size * 4 / 5`, the rank of `80%`; and `%ld` prints a sample from
`2 ^ 63` on as a negative number.  `reportsRight_iff` says when the figures are the statistics
they are named after.
-/

namespace SmartOffload

open MemProg

/-! ### What the figures should be -/

/-- The sample of rank `⌊p * n / 100⌋` among `n` sorted samples. -/
def rank (p : ℕ) (xs : List UInt64) : Option UInt64 := xs.mergeSort[p * xs.length / 100]?

/-- **The statistics** that the figures are named after. -/
structure RightFigures (xs : List UInt64) (f : Figures) : Prop where
  min : ∃ x ∈ xs, (∀ y ∈ xs, x ≤ y) ∧ f.min = x.toNat
  p50 : ∃ x, rank 50 xs = some x ∧ f.p50 = x.toNat
  p90 : ∃ x, rank 90 xs = some x ∧ f.p90 = x.toNat
  p99 : ∃ x, rank 99 xs = some x ∧ f.p99 = x.toNat
  max : ∃ x ∈ xs, (∀ y ∈ xs, y ≤ x) ∧ f.max = x.toNat
  /-- The floor of the exact mean. -/
  avg : f.avg = ((xs.map UInt64.toNat).sum / xs.length : ℕ)

/-- **`time_stat` reports the statistics**: it gets to the report, and whatever it reports is
right. -/
structure ReportsRight (rounds : ℕ) (size : ℤ) (nums : Samples) : Prop where
  ends : ∃ es tr f m, (timeStatMachine rounds size).Run (timeStatStart rounds size nums) es tr
    (.reporting (.pure f), m)
  right : ∀ es tr f m, (timeStatMachine rounds size).Run (timeStatStart rounds size nums) es tr
    (.reporting (.pure f), m) → RightFigures (slice nums 0 size) f

/-! ### Printing -/

/-- `%ld` prints the two's complement value. -/
theorem printLong_eq (x : UInt64) :
    printLong x = if x.toNat < 2 ^ 63 then (x.toNat : ℤ) else x.toNat - 2 ^ 64 := by
  have hprint : printLong x = x.toBitVec.toInt := rfl
  have hvalue : x.toBitVec.toNat = x.toNat := rfl
  rw [hprint, BitVec.toInt_eq_toNat_cond, hvalue]
  split <;> split <;> omega

theorem printLong_of_lt {x : UInt64} (h : x.toNat < 2 ^ 63) : printLong x = x.toNat := by
  rw [printLong_eq, if_pos h]

/-- A sample is printed as a natural number only if it is that number. -/
theorem eq_of_printLong_eq {x y : UInt64} (h : printLong x = y.toNat) :
    x = y ∧ x.toNat < 2 ^ 63 := by
  have hbound := x.toNat_lt
  rw [printLong_eq] at h
  split at h
  next hlt => exact ⟨UInt64.toNat_inj.mp (Int.ofNat_inj.mp h), hlt⟩
  next hge => omega

/-! ### Sorted samples -/

section Sorted

variable {size : ℤ} {nums m : Samples}

/-- What the array holds in the end is the sorted list. -/
theorem SortedSamples.slice_eq (h : SortedSamples size nums m) :
    slice m 0 size = (slice nums 0 size).mergeSort := by
  have hsorted : (slice nums 0 size).mergeSort.Pairwise (· ≤ ·) :=
    List.pairwise_mergeSort' (· ≤ ·) _
  exact (h.perm.trans (List.mergeSort_perm _ _).symm).eq_of_pairwise' h.sorted hsorted

/-- The sample of a rank is at its index. -/
theorem SortedSamples.rank_eq (h : SortedSamples size nums m) {p : ℕ} (hp : p < 100)
    (hpos : 1 ≤ size) : rank p (slice nums 0 size) = some (m (p * size / 100)) := by
  have hlength : (slice nums 0 size).length = size.toNat := by
    rw [length_slice, Int.sub_zero]
  obtain ⟨n, rfl⟩ := Int.eq_ofNat_of_zero_le (show 0 ≤ size by omega)
  have hlt : p * n / 100 < n :=
    Nat.div_lt_of_lt_mul (Nat.mul_lt_mul_of_pos_right hp (by omega))
  rw [rank, hlength, ← h.slice_eq, Int.toNat_natCast]
  have hinside : p * n / 100 < (slice m 0 (n : ℤ)).length := by
    rw [length_slice]
    omega
  rw [List.getElem?_eq_getElem hinside, getElem_slice, Int.zero_add]
  rfl

theorem SortedSamples.mem (h : SortedSamples size nums m) {i : ℤ} (hlow : 0 ≤ i)
    (hhigh : i < size) : m i ∈ slice nums 0 size :=
  h.perm.mem_iff.mp (mem_slice.mpr ⟨i, ⟨hlow, hhigh⟩, rfl⟩)

/-- Every sample lies between the first and the last. -/
theorem SortedSamples.between (h : SortedSamples size nums m) {y : UInt64}
    (hy : y ∈ slice nums 0 size) : m 0 ≤ y ∧ y ≤ m (size - 1) := by
  obtain ⟨i, ⟨hlow, hhigh⟩, rfl⟩ := mem_slice.mp (h.perm.mem_iff.mpr hy)
  have hsorted := pairwise_slice.mp h.sorted
  constructor
  · rcases Int.lt_or_eq_of_le hlow with hlt | heq
    · exact hsorted 0 i le_rfl hlt hhigh
    · rw [← heq]
  · rcases Int.lt_or_eq_of_le (show i ≤ size - 1 by omega) with hlt | heq
    · exact hsorted i (size - 1) hlow hlt (by omega)
    · rw [heq]

/-- Adding up in 64 bits. -/
theorem toNat_foldl_add (xs : List UInt64) :
    ∀ a : UInt64, (xs.foldl (· + ·) a).toNat =
      (a.toNat + (xs.map UInt64.toNat).sum) % 2 ^ 64 := by
  induction xs with
  | nil => exact fun a => (Nat.mod_eq_of_lt a.toNat_lt).symm
  | cons x xs ih =>
      intro a
      rw [List.foldl_cons, ih, UInt64.toNat_add, List.map_cons, List.sum_cons, Nat.mod_add_mod,
        Nat.add_assoc]

/-- The average, where the sum fits in 64 bits. -/
theorem toNat_average (hpos : 1 ≤ size) (hsize : size ≤ 21691754)
    (hsum : ((slice nums 0 size).map UInt64.toNat).sum < 2 ^ 64) :
    (sampleSum nums size / UInt64.ofNat size.toNat).toNat =
      ((slice nums 0 size).map UInt64.toNat).sum / (slice nums 0 size).length := by
  have hcount : (UInt64.ofNat size.toNat).toNat = size.toNat := by
    rw [UInt64.toNat_ofNat']
    exact Nat.mod_eq_of_lt (by omega)
  have hzero : (0 : UInt64).toNat = 0 := rfl
  rw [UInt64.toNat_div, hcount, sampleSum, toNat_foldl_add, hzero, Nat.zero_add,
    Nat.mod_eq_of_lt hsum, length_slice, Int.sub_zero]

/-- A mean is no greater than every bound of the samples. -/
theorem mean_le {xs : List UInt64} {bound : ℕ} (h : ∀ x ∈ xs, x.toNat ≤ bound) :
    (xs.map UInt64.toNat).sum / xs.length ≤ bound := by
  have hsum : (xs.map UInt64.toNat).sum ≤ xs.length * bound := by
    have hle := List.sum_le_card_nsmul (xs.map UInt64.toNat) bound (by
      intro n hn
      obtain ⟨x, hx, rfl⟩ := List.mem_map.mp hn
      exact h x hx)
    rwa [List.length_map, smul_eq_mul] at hle
  exact Nat.div_le_of_le_mul hsum

/-! ### When the figures are right -/

/-- The figure at the index of a rank is the sample of that rank. -/
theorem SortedSamples.figure_eq (h : SortedSamples size nums m) (hpos : 1 ≤ size)
    (hlong : ∀ x ∈ slice nums 0 size, x.toNat < 2 ^ 63) {p : ℕ} (hp : p < 100) {i : ℤ}
    (hindex : p * size / 100 = i) (hlow : 0 ≤ i) (hhigh : i < size) :
    ∃ x, rank p (slice nums 0 size) = some x ∧ printLong (m i) = x.toNat := by
  refine ⟨m i, ?_, printLong_of_lt (hlong _ (h.mem hlow hhigh))⟩
  rw [h.rank_eq hp hpos, hindex]

/-- The figures of a sorted array are right if the `80%` and the `90%` rank have the same
sample, and samples are printed as they are. -/
theorem SortedSamples.rightFigures (h : SortedSamples size nums m) (hpos : 1 ≤ size)
    (hsize : size ≤ 21691754) (hsum : ((slice nums 0 size).map UInt64.toNat).sum < 2 ^ 64)
    (hrank : rank 80 (slice nums 0 size) = rank 90 (slice nums 0 size))
    (hlong : ∀ x ∈ slice nums 0 size, x.toNat < 2 ^ 63) :
    RightFigures (slice nums 0 size) (figuresOf size (sampleSum nums size) m) where
  min := ⟨m 0, h.mem le_rfl (by omega), fun y hy => (h.between hy).1,
    printLong_of_lt (hlong _ (h.mem le_rfl (by omega)))⟩
  p50 := h.figure_eq hpos hlong (by decide) (by omega) (by omega) (by omega)
  p90 := hrank ▸ h.figure_eq hpos hlong (by decide) (by omega) (by omega) (by omega)
  p99 := h.figure_eq hpos hlong (by decide) (by omega) (by omega) (by omega)
  max := ⟨m (size - 1), h.mem (by omega) (by omega), fun y hy => (h.between hy).2,
    printLong_of_lt (hlong _ (h.mem (by omega) (by omega)))⟩
  avg := by
    have haverage := toNat_average hpos hsize hsum
    have hmean := mean_le fun x hx => Nat.le_sub_one_of_lt (hlong x hx)
    rw [← haverage] at hmean ⊢
    exact printLong_of_lt (by omega)

/-- Right figures say that the two ranks have the same sample, and that samples are printed as
they are. -/
theorem SortedSamples.of_rightFigures (h : SortedSamples size nums m) (hpos : 1 ≤ size)
    (hright : RightFigures (slice nums 0 size) (figuresOf size (sampleSum nums size) m)) :
    rank 80 (slice nums 0 size) = rank 90 (slice nums 0 size) ∧
      ∀ x ∈ slice nums 0 size, x.toNat < 2 ^ 63 := by
  constructor
  · obtain ⟨x, hx, hprint⟩ := hright.p90
    have hindex : ((80 : ℕ) : ℤ) * size / 100 = size * 4 / 5 := by omega
    rw [hx, h.rank_eq (by decide) hpos, hindex]
    exact congrArg some (eq_of_printLong_eq hprint).1
  · intro y hy
    obtain ⟨x, -, -, hprint⟩ := hright.max
    have hmax := (eq_of_printLong_eq hprint).2
    have hle := UInt64.le_iff_toNat_le.mp (h.between hy).2
    omega

end Sorted

section Runs

variable {rounds : ℕ} {size : ℤ} {nums : Samples}

/-- What is reported are the figures of a sorted array. -/
theorem figures_of_run {es : List TimeEvent} {tr : List (MemObs ℤ TimeObs)} {f : Figures}
    {m : Samples} (hpos : 1 ≤ size) (hsize : size ≤ 21691754) (hrounds : size + 1 < rounds)
    (hrun : (timeStatMachine rounds size).Run (timeStatStart rounds size nums) es tr
      (.reporting (.pure f), m)) :
    ∃ m₁, SortedSamples size nums m₁ ∧ f = figuresOf size (sampleSum nums size) m₁ :=
  stageInv_of_run hpos (by omega) hrounds hrun hsize

/-- Some run gets to the report. -/
theorem exists_run_reported (hpos : 1 ≤ size) (hsize : size ≤ 21691754)
    (hrounds : size + 1 < rounds) :
    ∃ es tr f m, (timeStatMachine rounds size).Run (timeStatStart rounds size nums) es tr
      (.reporting (.pure f), m) := by
  have hprogress : ∀ {es tr s},
      (timeStatMachine rounds size).Run (timeStatStart rounds size nums) es tr s →
        (¬ ∃ f, s.1 = .reporting (.pure f)) → ∃ s', (timeStatMachine rounds size).Follows s' s :=
    fun hrun hnot => ((stageInv_of_run hpos (by omega) hrounds hrun).ended_or_steps
      fun _ _ => hsize).resolve_left hnot
  obtain ⟨es, tr, ⟨stage, m⟩, hrun, f, hf⟩ :=
    Machine.exists_run_of_wellFounded (wellFounded_follows rounds size) hprogress
  exact ⟨es, tr, f, m, (show stage = _ from hf) ▸ hrun⟩

/-- **When the report is right**: exactly when the samples of rank `80%` and `90%` are equal,
and every sample is printed as it is. -/
theorem reportsRight_iff (hpos : 1 ≤ size) (hsize : size * 99 ≤ 2147483647)
    (hsum : ((slice nums 0 size).map UInt64.toNat).sum < 2 ^ 64)
    (hrounds : size + 1 < rounds) :
    ReportsRight rounds size nums ↔
      rank 80 (slice nums 0 size) = rank 90 (slice nums 0 size) ∧
        ∀ x ∈ slice nums 0 size, x.toNat < 2 ^ 63 := by
  have hsize' : size ≤ 21691754 := by omega
  constructor
  · intro h
    obtain ⟨es, tr, f, m, hrun⟩ := h.ends
    obtain ⟨m₁, hsorted, rfl⟩ := figures_of_run hpos hsize' hrounds hrun
    exact hsorted.of_rightFigures hpos (h.right es tr _ m hrun)
  · rintro ⟨hrank, hlong⟩
    refine ⟨exists_run_reported hpos hsize' hrounds, fun es tr f m hrun => ?_⟩
    obtain ⟨m₁, hsorted, rfl⟩ := figures_of_run hpos hsize' hrounds hrun
    exact hsorted.rightFigures hpos hsize' hsum hrank hlong

/-- Five samples: the figures are right. -/
theorem reportsRight_five : ReportsRight 7 5 fun i => UInt64.ofNat (9 - i.toNat) := by
  refine (reportsRight_iff (by decide) (by decide) (by decide) (by decide)).mpr ⟨?_, ?_⟩
  · have hindex : 80 * (slice (fun i => UInt64.ofNat (9 - i.toNat)) 0 5).length / 100 =
        90 * (slice (fun i => UInt64.ofNat (9 - i.toNat)) 0 5).length / 100 := by decide
    rw [rank, hindex]
    rfl
  · intro x hx
    obtain ⟨i, -, rfl⟩ := mem_slice.mp hx
    rw [UInt64.toNat_ofNat']
    omega

end Runs

/-- The samples `0, 1, …, 5`. -/
def sixSamples : Samples := fun i => UInt64.ofNat i.toNat

theorem sortedSamples_sixSamples : SortedSamples 6 sixSamples sixSamples :=
  ⟨show (slice sixSamples 0 6).Pairwise (· ≤ ·) by decide, .refl _⟩

/-- **Of six samples the fifth is reported as the `90%` figure**, and its rank is that of the
sixth. -/
theorem not_reportsRight_sixSamples :
    ((slice sixSamples 0 6).map UInt64.toNat).sum < 2 ^ 64 ∧
      rank 90 (slice sixSamples 0 6) = some 5 ∧
      (∀ es tr f m, (timeStatMachine 8 6).Run (timeStatStart 8 6 sixSamples) es tr
        (.reporting (.pure f), m) → f.p90 = 4) ∧
      ¬ ReportsRight 8 6 sixSamples := by
  have hrank := sortedSamples_sixSamples.rank_eq (p := 90) (by decide) (by decide)
  have hreported : ∀ es tr f m, (timeStatMachine 8 6).Run (timeStatStart 8 6 sixSamples) es tr
      (.reporting (.pure f), m) → f.p90 = 4 := by
    intro es tr f m hrun
    obtain ⟨m₁, hsorted, rfl⟩ := figures_of_run (by decide) (by decide) (by decide) hrun
    have hvalue : m₁ 4 = sixSamples 4 := by
      have hfifth := hsorted.rank_eq (p := 80) (by decide) (by decide)
      rw [sortedSamples_sixSamples.rank_eq (p := 80) (by decide) (by decide)] at hfifth
      exact (Option.some.inj hfifth).symm
    show printLong (m₁ 4) = 4
    rw [hvalue]
    decide
  refine ⟨by decide, hrank, hreported, fun h => ?_⟩
  obtain ⟨es, tr, f, m, hrun⟩ := h.ends
  obtain ⟨x, hx, hp90⟩ := (h.right es tr f m hrun).p90
  rw [hrank] at hx
  rw [← Option.some.inj hx, hreported es tr f m hrun] at hp90
  exact absurd hp90 (by decide)

end SmartOffload
