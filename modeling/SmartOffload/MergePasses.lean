import SmartOffload.HeapSort

/-!
# The merge passes

`merge` merges two sorted runs that lie side by side (`meets_merge`): its buffer fills up with
`List.merge` of what the runs still hold.

The passes double the gap.  The gap starts at half of the array, rounded down, so a pass has
one pair of runs, or a run and part of its partner, or a last element that no pair covers;
`GapInv` is what holds between passes, and at the end the array is sorted
(`meets_mergePasses`), up to `2 ^ 30 - 1` elements.  With `2 ^ 30` elements the first pass looks
for a second pair, whose end is no `int` (`not_ends_mergePasses`).
-/

namespace SmartOffload

open MemProg

/-! ### `merge` -/

section Merge

variable {size start1 start2 stop length : ℤ} {rounds : ℕ} {m : Samples} {s : Merging}

/-- The runs merged so far: the buffer holds the beginning of the merged list, and what the
runs still hold is to be merged behind it. -/
structure MergeInv (start1 start2 stop : ℤ) (m : Samples) (s : Merging) : Prop where
  left : start1 ≤ s.i ∧ s.i ≤ start2
  right : start2 ≤ s.j ∧ s.j ≤ stop + 1
  count : s.k = (s.i - start1) + (s.j - start2)
  merged : slice s.a 0 s.k ++ (slice m s.i start2).merge (slice m s.j (stop + 1)) =
    (slice m start1 start2).merge (slice m start2 (stop + 1))

/-- A buffer that gets one more element. -/
theorem slice_update_concat (a : Samples) {k : ℤ} (hk : 0 ≤ k) (value : UInt64) :
    slice (Function.update a k value) 0 (k + 1) = slice a 0 k ++ [value] := by
  rw [slice_concat hk, Function.update_self]
  congr 1
  exact slice_congr fun x _ hx => Function.update_of_ne (by omega) value a

/-- The first run has the next element. -/
theorem MergeInv.takeLeft (h : MergeInv start1 start2 stop m s) (hi : s.i < start2)
    (hle : s.j ≤ stop → m s.i ≤ m s.j) :
    MergeInv start1 start2 stop m
      { s with a := Function.update s.a s.k (m s.i), k := s.k + 1, i := s.i + 1 } := by
  have hleft := h.left
  have hright := h.right
  have hcount := h.count
  refine ⟨⟨show start1 ≤ s.i + 1 by omega, show s.i + 1 ≤ start2 by omega⟩, hright,
    show s.k + 1 = s.i + 1 - start1 + (s.j - start2) by omega, ?_⟩
  have hmerge : (slice m s.i start2).merge (slice m s.j (stop + 1)) =
      m s.i :: (slice m (s.i + 1) start2).merge (slice m s.j (stop + 1)) := by
    rw [slice_cons hi]
    rcases Int.lt_or_le s.j (stop + 1) with hj | hj
    · rw [slice_cons hj]
      exact List.cons_merge_cons_pos _ _ _ (decide_eq_true (hle (by omega)))
    · rw [slice_eq_nil hj, List.merge_right, List.merge_right]
  rw [slice_update_concat _ (by omega), List.append_assoc, List.singleton_append, ← hmerge]
  exact h.merged

/-- The second run has the next element. -/
theorem MergeInv.takeRight (h : MergeInv start1 start2 stop m s) (hj : s.j ≤ stop)
    (hlt : s.i < start2 → ¬ m s.i ≤ m s.j) :
    MergeInv start1 start2 stop m
      { s with a := Function.update s.a s.k (m s.j), k := s.k + 1, j := s.j + 1 } := by
  have hleft := h.left
  have hright := h.right
  have hcount := h.count
  refine ⟨hleft, ⟨show start2 ≤ s.j + 1 by omega, show s.j + 1 ≤ stop + 1 by omega⟩,
    show s.k + 1 = s.i - start1 + (s.j + 1 - start2) by omega, ?_⟩
  have hmerge : (slice m s.i start2).merge (slice m s.j (stop + 1)) =
      m s.j :: (slice m s.i start2).merge (slice m (s.j + 1) (stop + 1)) := by
    rw [slice_cons (show s.j < stop + 1 by omega)]
    rcases Int.lt_or_le s.i start2 with hi | hi
    · rw [slice_cons hi]
      exact List.cons_merge_cons_neg _ _ _ (by simpa using hlt hi)
    · rw [slice_eq_nil hi, List.nil_merge, List.nil_merge]
  rw [slice_update_concat _ (by omega), List.append_assoc, List.singleton_append, ← hmerge]
  exact h.merged

/-- Where the runs lie, and how long the buffer is. -/
structure MergeBounds (size start1 start2 stop length : ℤ) : Prop where
  nonneg : 0 ≤ start1
  runs : start1 ≤ start2 ∧ start2 ≤ stop + 1
  stop_lt : stop < size
  size_le : size ≤ 1073741824
  length_eq : length = stop - start1 + 1

/-- Moving the element at `x` into the buffer, in whatever way the locals are kept. -/
theorem meets_take (hb : MergeBounds size start1 start2 stop length) {x k : ℤ}
    {f : UInt64 → ℤ → ℤ → Merging} {Q : Merging → Samples → Prop}
    (hx : start1 ≤ x ∧ x ≤ stop) (hk : 0 ≤ k ∧ k < length)
    (h : Q (f (m x) (k + 1) (x + 1)) m) :
    Meets (Set.Ico start1 (stop + 1)) (TimeObs.Fits size)
      (do
        let value ← load x
        tell (.buffer k length)
        let k' ← arith (k + 1)
        let x' ← arith (x + 1)
        Pure.pure (f value k' x')) Q m := by
  obtain ⟨hnonneg, hruns, hstop, hsize, rfl⟩ := hb
  refine meets_load_bind ⟨by omega, by omega⟩ ?_
  refine meets_tell_bind ⟨by omega, by omega, by omega⟩ ?_
  exact meets_arith_bind (by omega) (by omega) (meets_arith_bind (by omega) (by omega) h)

/-- `takeLeft` does what `MergeInv.takeLeft` says. -/
theorem meets_takeLeft (hb : MergeBounds size start1 start2 stop length)
    (h : MergeInv start1 start2 stop m s) (hi : s.i < start2)
    (hle : s.j ≤ stop → m s.i ≤ m s.j) :
    Meets (Set.Ico start1 (stop + 1)) (TimeObs.Fits size) (takeLeft length s)
      (fun s' m' => m' = m ∧ MergeInv start1 start2 stop m s' ∧ s'.i = s.i + 1 ∧ s'.j = s.j)
      m := by
  have hleft := h.left
  have hright := h.right
  have hcount := h.count
  have hruns := hb.runs
  have hlength := hb.length_eq
  unfold SmartOffload.takeLeft
  exact meets_take hb ⟨by omega, by omega⟩ ⟨by omega, by omega⟩
    ⟨rfl, h.takeLeft hi hle, rfl, rfl⟩

theorem meets_takeRight (hb : MergeBounds size start1 start2 stop length)
    (h : MergeInv start1 start2 stop m s) (hj : s.j ≤ stop)
    (hlt : s.i < start2 → ¬ m s.i ≤ m s.j) :
    Meets (Set.Ico start1 (stop + 1)) (TimeObs.Fits size) (takeRight length s)
      (fun s' m' => m' = m ∧ MergeInv start1 start2 stop m s' ∧ s'.i = s.i ∧ s'.j = s.j + 1)
      m := by
  have hleft := h.left
  have hright := h.right
  have hcount := h.count
  have hruns := hb.runs
  have hlength := hb.length_eq
  unfold SmartOffload.takeRight
  exact meets_take hb ⟨by omega, by omega⟩ ⟨by omega, by omega⟩
    ⟨rfl, h.takeRight hj hlt, rfl, rfl⟩

/-- One round while both runs have elements. -/
theorem meets_mergeStep (hb : MergeBounds size start1 start2 stop length) (s : Merging)
    (m' : Samples) (h : m' = m ∧ MergeInv start1 start2 stop m s) :
    Meets (Set.Ico start1 (stop + 1)) (TimeObs.Fits size) (mergeStep start2 stop length s)
      (fun r m' => r.elim
        (fun s' => (m' = m ∧ MergeInv start1 start2 stop m s') ∧
          (start2 - s'.i + (stop - s'.j)).toNat < (start2 - s.i + (stop - s.j)).toNat)
        fun s' => m' = m ∧ MergeInv start1 start2 stop m s' ∧
          (s'.i = start2 ∨ s'.j = stop + 1)) m' := by
  obtain ⟨rfl, h⟩ := h
  have hleft := h.left
  have hright := h.right
  obtain ⟨hnonneg, hruns, hstop, hsize, -⟩ := id hb
  unfold mergeStep
  refine meets_arith_bind (by omega) (by omega) ?_
  split
  next hboth =>
    refine meets_load_bind ⟨by omega, by omega⟩ (meets_load_bind ⟨by omega, by omega⟩ ?_)
    split
    next hle =>
      refine (meets_takeLeft hb h (by omega) fun _ => hle).bind ?_
      rintro s' m₁ ⟨rfl, h', hi', hj'⟩
      exact ⟨⟨rfl, h'⟩, by omega⟩
    next hgt =>
      refine (meets_takeRight hb h hboth.2 fun _ => hgt).bind ?_
      rintro s' m₁ ⟨rfl, h', hi', hj'⟩
      exact ⟨⟨rfl, h'⟩, by omega⟩
  next hone => exact ⟨rfl, h, by omega⟩

/-- One round of the rest of the first run. -/
theorem meets_leftStep (hb : MergeBounds size start1 start2 stop length) (s : Merging)
    (m' : Samples)
    (h : m' = m ∧ MergeInv start1 start2 stop m s ∧ (s.i = start2 ∨ s.j = stop + 1)) :
    Meets (Set.Ico start1 (stop + 1)) (TimeObs.Fits size) (leftStep start2 length s)
      (fun r m' => r.elim
        (fun s' => (m' = m ∧ MergeInv start1 start2 stop m s' ∧
          (s'.i = start2 ∨ s'.j = stop + 1)) ∧ (start2 - s'.i).toNat < (start2 - s.i).toNat)
        fun s' => m' = m ∧ MergeInv start1 start2 stop m s' ∧ s'.i = start2) m' := by
  obtain ⟨rfl, h, hone⟩ := h
  have hleft := h.left
  obtain ⟨hnonneg, hruns, hstop, hsize, -⟩ := id hb
  unfold leftStep
  refine meets_arith_bind (by omega) (by omega) ?_
  split
  next hi =>
    refine (meets_takeLeft hb h (by omega) fun hj => by omega).bind ?_
    rintro s' m₁ ⟨rfl, h', hi', hj'⟩
    exact ⟨⟨rfl, h', by omega⟩, by omega⟩
  next hi => exact ⟨rfl, h, by omega⟩

/-- One round of the rest of the second run. -/
theorem meets_rightStep (hb : MergeBounds size start1 start2 stop length) (s : Merging)
    (m' : Samples) (h : m' = m ∧ MergeInv start1 start2 stop m s ∧ s.i = start2) :
    Meets (Set.Ico start1 (stop + 1)) (TimeObs.Fits size) (rightStep stop length s)
      (fun r m' => r.elim
        (fun s' => (m' = m ∧ MergeInv start1 start2 stop m s' ∧ s'.i = start2) ∧
          (stop + 1 - s'.j).toNat < (stop + 1 - s.j).toNat)
        fun s' => m' = m ∧ MergeInv start1 start2 stop m s' ∧ s'.i = start2 ∧
          s'.j = stop + 1) m' := by
  obtain ⟨rfl, h, hi⟩ := h
  have hright := h.right
  unfold rightStep
  split
  next hj =>
    refine (meets_takeRight hb h hj fun hlt => by omega).bind ?_
    rintro s' m₁ ⟨rfl, h', hi', hj'⟩
    exact ⟨⟨rfl, h', by omega⟩, by omega⟩
  next hj => exact ⟨rfl, h, hi, by omega⟩

/-- One round of copying the buffer back. -/
theorem meets_copyStep (hb : MergeBounds size start1 start2 stop length) {a : Samples}
    (ik : ℤ × ℤ) (m : Samples)
    (h : (start1 ≤ ik.1 ∧ ik.1 ≤ stop + 1) ∧ ik.2 = ik.1 - start1 ∧
      slice m start1 ik.1 = slice a 0 ik.2) :
    Meets (Set.Ico start1 (stop + 1)) (TimeObs.Fits size) (copyStep stop length a ik)
      (fun r m' => r.elim
        (fun ik' => ((start1 ≤ ik'.1 ∧ ik'.1 ≤ stop + 1) ∧ ik'.2 = ik'.1 - start1 ∧
          slice m' start1 ik'.1 = slice a 0 ik'.2) ∧
          (stop + 1 - ik'.1).toNat < (stop + 1 - ik.1).toNat)
        fun _ => slice m' start1 (stop + 1) = slice a 0 length) m := by
  obtain ⟨⟨hlow, hhigh⟩, hk, hcopied⟩ := h
  obtain ⟨hnonneg, hruns, hstop, hsize, rfl⟩ := hb
  unfold copyStep
  split
  next hi =>
    refine meets_tell_bind ⟨by omega, by omega, by omega⟩ ?_
    refine meets_store_bind ⟨by omega, by omega⟩ ?_
    refine meets_arith_bind (by omega) (by omega) (meets_arith_bind (by omega) (by omega) ?_)
    refine ⟨⟨⟨show start1 ≤ ik.1 + 1 by omega, show ik.1 + 1 ≤ stop + 1 by omega⟩,
      show ik.2 + 1 = ik.1 + 1 - start1 by omega, ?_⟩,
      show (stop + 1 - (ik.1 + 1)).toNat < (stop + 1 - ik.1).toNat by omega⟩
    show slice (Function.update m ik.1 (a ik.2)) start1 (ik.1 + 1) = slice a 0 (ik.2 + 1)
    rw [slice_concat hlow, Function.update_self, slice_concat (show 0 ≤ ik.2 by omega)]
    congr 1
    rw [← hcopied]
    exact slice_congr fun x _ hx => Function.update_of_ne (by omega) _ _
  next hi =>
    have hend : ik.1 = stop + 1 := by omega
    have hlength : ik.2 = stop - start1 + 1 := by omega
    rw [hend, hlength] at hcopied
    exact hcopied

/-- **`merge`** leaves the merged runs in their place. -/
theorem meets_merge (h₀ : 0 ≤ start1) (h₁ : start1 ≤ start2) (h₂ : start2 ≤ stop + 1)
    (hstop : stop < size) (hsize : size ≤ 1073741824) (hrounds : size + 1 < rounds) :
    Meets (Set.Ico start1 (stop + 1)) (TimeObs.Fits size) (merge rounds start1 start2 stop)
      (fun _ m' => slice m' start1 (stop + 1) =
        (slice m start1 start2).merge (slice m start2 (stop + 1))) m := by
  have hb : MergeBounds size start1 start2 stop (stop - start1 + 1) :=
    ⟨h₀, ⟨h₁, h₂⟩, hstop, hsize, rfl⟩
  have hstart : MergeInv start1 start2 stop m ⟨fun _ => 0, 0, start1, start2⟩ := by
    refine ⟨⟨le_rfl, h₁⟩, ⟨le_rfl, h₂⟩,
      show 0 = start1 - start1 + (start2 - start2) by omega, ?_⟩
    rw [slice_eq_nil le_rfl, List.nil_append]
  unfold merge
  refine meets_arith_bind (by omega) (by omega) (meets_arith_bind (by omega) (by omega) ?_)
  refine (meets_loop (fun s m' => meets_mergeStep hb s m') ⟨rfl, hstart⟩
    (show (start2 - start1 + (stop - start2)).toNat < rounds by omega)).bind ?_
  intro s₁ m₁ h
  refine (meets_loop (fun s m' => meets_leftStep hb s m') h ?_).bind ?_
  · have := h.2.1.left
    omega
  intro s₂ m₂ h
  refine (meets_loop (fun s m' => meets_rightStep hb s m') h ?_).bind ?_
  · have := h.2.1.right
    omega
  rintro s₃ m₃ ⟨rfl, hmerge, hi, hj⟩
  have hmerged : slice s₃.a 0 (stop - start1 + 1) =
      (slice m₃ start1 start2).merge (slice m₃ start2 (stop + 1)) := by
    have hcount : s₃.k = stop - start1 + 1 := by
      have := hmerge.count
      omega
    have hall := hmerge.merged
    rwa [hi, hj, hcount, slice_eq_nil le_rfl, slice_eq_nil le_rfl, List.nil_merge,
      List.append_nil] at hall
  refine (meets_loop (fun ik m' => meets_copyStep hb ik m')
    ⟨⟨le_rfl, show start1 ≤ stop + 1 by omega⟩, show 0 = start1 - start1 by omega, ?_⟩
    (show (stop + 1 - start1).toNat < rounds by omega)).imp ?_
  · rw [slice_eq_nil le_rfl, slice_eq_nil le_rfl]
  · exact fun _ m' hcopied => hcopied.trans hmerged

end Merge

/-! ### The passes -/

section Passes

variable {size gap i : ℤ} {rounds : ℕ} {m m₀ : Samples}

/-- Two runs of an array have become one, which is sorted if they were. -/
structure Joined (size start1 start2 stop : ℤ) (m m' : Samples) : Prop where
  sorted : SliceSorted m start1 start2 → SliceSorted m start2 stop → SliceSorted m' start1 stop
  permuted : (slice m' 0 size).Perm (slice m 0 size)

/-- `merge` joins two runs. -/
theorem meets_merge_joined {start1 start2 stop : ℤ} (h₀ : 0 ≤ start1) (h₁ : start1 ≤ start2)
    (h₂ : start2 ≤ stop + 1) (hstop : stop < size) (hsize : size ≤ 1073741824)
    (hrounds : size + 1 < rounds) :
    Meets (Set.Ico 0 size) (TimeObs.Fits size) (merge rounds start1 start2 stop)
      (fun _ m' => Joined size start1 start2 (stop + 1) m m') m := by
  have hmerge := (meets_merge (m := m) h₀ h₁ h₂ hstop hsize hrounds).frame
  refine hmerge.mono (fun x hx => ⟨h₀.trans hx.1, by have := hx.2; omega⟩) (fun _ => id) ?_
  rintro - m' ⟨hmerged, hout⟩
  constructor
  · intro hleft hright
    rw [SliceSorted, hmerged]
    exact hleft.merge hright
  · refine slice_perm_of_part h₀ (by omega) (by omega) ?_ hout
    rw [hmerged, slice_append h₁ h₂]
    exact List.merge_perm_append _

/-- The end of a pair of runs. -/
theorem meets_pairEnd {A : Set ℤ} {Q : ℤ → Samples → Prop} (hgap : 0 ≤ gap) (hi : 0 ≤ i)
    (hsum : i + gap * 2 < 2147483648) (h : Q (i + gap * 2 - 1) m) :
    Meets A (TimeObs.Fits size) (pairEnd gap i) Q m := by
  unfold pairEnd
  refine meets_arith_bind (by omega) (by omega) ?_
  exact meets_arith_bind (by omega) (by omega) (meets_arith (by omega) (by omega) h)

theorem meets_pairEnd_bind {A : Set ℤ} {β : Type} {f : ℤ → TimeProgram β}
    {R : β → Samples → Prop} (hgap : 0 ≤ gap) (hi : 0 ≤ i) (hsum : i + gap * 2 < 2147483648)
    (h : Meets A (TimeObs.Fits size) (f (i + gap * 2 - 1)) R m) :
    Meets A (TimeObs.Fits size) (pairEnd gap i >>= f) R m :=
  meets_bind.mpr (meets_pairEnd hgap hi hsum h)

/-- A round that finds the only pair of runs joins it. -/
theorem meets_onlyPair (hsize : size ≤ 1073741824) (hrounds : size + 1 < rounds)
    (hpos : 0 < gap) (hpair : 2 * gap ≤ size) :
    Meets (Set.Ico 0 size) (TimeObs.Fits size) (pairStep rounds size gap 0)
      (fun r m' => r = .inl (2 * gap) ∧ Joined size 0 gap (2 * gap) m m') m := by
  have hstart2 : 0 + gap = gap := by omega
  have hstop : 0 + gap * 2 - 1 + 1 = 2 * gap := by omega
  have hnext : 0 + gap * 2 = 2 * gap := by omega
  unfold pairStep
  refine meets_pairEnd_bind hpos.le le_rfl (by omega) ?_
  rw [if_pos (by omega)]
  refine meets_arith_bind (by omega) (by omega) ?_
  refine meets_pairEnd_bind hpos.le le_rfl (by omega) ?_
  refine (meets_merge_joined le_rfl (by omega) (by omega) (by omega) hsize hrounds).bind ?_
  rintro - m' hjoined
  rw [hstop, hstart2] at hjoined
  refine meets_arith_bind (by omega) (by omega) (meets_arith_bind (by omega) (by omega) ?_)
  exact ⟨congrArg Sum.inl hnext, hjoined⟩

/-- **Between passes**: the runs before the gap and from it on are sorted, and at most one
element is left over. -/
structure GapInv (size : ℤ) (m₀ m : Samples) (gap : ℤ) : Prop where
  nonneg : 0 ≤ gap
  covers : size ≤ 2 * gap + 1
  le : gap ≤ 2 * size
  first : SliceSorted m 0 (min gap size)
  second : SliceSorted m gap (min (2 * gap) size)
  permuted : (slice m 0 size).Perm (slice m₀ 0 size)

/-- Inside a pass: nothing is merged yet, or the only pair is. -/
inductive PairInv (size gap : ℤ) (m₀ m : Samples) : ℤ → Prop where
  | start (h : GapInv size m₀ m gap) : PairInv size gap m₀ m 0
  | merged (hgap : 2 * gap ≤ size) (hsorted : SliceSorted m 0 (2 * gap))
      (hperm : (slice m 0 size).Perm (slice m₀ 0 size)) : PairInv size gap m₀ m (2 * gap)

/-- One round of the inner loop. -/
theorem meets_pairStep (hsize : size ≤ 1073741823) (hrounds : size + 1 < rounds)
    (hpos : 0 < gap) (hlt : gap < size) (hcovers : size ≤ 2 * gap + 1) (i : ℤ) (m : Samples)
    (h : PairInv size gap m₀ m i) :
    Meets (Set.Ico 0 size) (TimeObs.Fits size) (pairStep rounds size gap i)
      (fun r m' => r.elim
        (fun i' => PairInv size gap m₀ m' i' ∧ (size + 1 - i').toNat < (size + 1 - i).toNat)
        fun i' => PairInv size gap m₀ m' i' ∧ size ≤ i' + gap * 2 - 1) m := by
  cases h with
  | start h =>
      rcases Int.lt_or_le size (2 * gap) with hnone | hpair
      · unfold pairStep
        refine meets_pairEnd_bind hpos.le le_rfl (by omega) ?_
        rw [if_neg (by omega)]
        exact ⟨.start h, by omega⟩
      · have hmin : min gap size = gap ∧ min (2 * gap) size = 2 * gap := by omega
        have hfirst := h.first
        have hsecond := h.second
        rw [hmin.1] at hfirst
        rw [hmin.2] at hsecond
        refine (meets_onlyPair (by omega) hrounds hpos hpair).imp ?_
        rintro - m' ⟨rfl, hjoined⟩
        exact ⟨.merged hpair (hjoined.sorted hfirst hsecond)
          (hjoined.permuted.trans h.permuted), by omega⟩
  | merged hgap hsorted hperm =>
      -- there is no second pair
      unfold pairStep
      refine meets_pairEnd_bind hpos.le (by omega) (by omega) ?_
      rw [if_neg (by omega)]
      exact ⟨.merged hgap hsorted hperm, by omega⟩

/-- **One pass** doubles the sorted beginning. -/
theorem meets_mergePass (hsize : size ≤ 1073741823) (hrounds : size + 1 < rounds)
    (hpos : 0 < gap) (hlt : gap < size) (h : GapInv size m₀ m gap) :
    Meets (Set.Ico 0 size) (TimeObs.Fits size) (mergePass rounds size gap)
      (fun _ m' => SliceSorted m' 0 (min (2 * gap) size) ∧
        (slice m' 0 size).Perm (slice m₀ 0 size)) m := by
  have hcovers := h.covers
  unfold mergePass
  refine (meets_loop (fun i m' => meets_pairStep hsize hrounds hpos hlt hcovers i m')
    (.start h) (by omega)).bind ?_
  rintro i m₁ ⟨hi, hend⟩
  cases hi with
  | start h =>
      -- the second run is cut short
      have hstart2 : 0 + gap = gap := by omega
      have hmin : min gap size = gap ∧ min (2 * gap) size = size := by omega
      have hfirst := h.first
      have hsecond := h.second
      rw [hmin.1] at hfirst
      rw [hmin.2] at hsecond ⊢
      refine meets_arith_bind (by omega) (by omega) ?_
      rw [hstart2, if_pos hlt]
      refine meets_arith_bind (by omega) (by omega) (meets_arith_bind (by omega) (by omega) ?_)
      have hmerge := meets_merge_joined (m := m₁) le_rfl hpos.le (show gap ≤ size - 1 + 1 by omega)
        (by omega) (by omega) hrounds
      rw [Int.sub_add_cancel] at hmerge
      exact hmerge.imp fun _ m' h' => ⟨h'.sorted hfirst hsecond, h'.permuted.trans h.permuted⟩
  | merged hgap hsorted hperm =>
      have hmin : min (2 * gap) size = 2 * gap := by omega
      rw [hmin]
      refine meets_arith_bind (by omega) (by omega) ?_
      rw [if_neg (by omega)]
      exact ⟨hsorted, hperm⟩

/-- One round of the outer loop. -/
theorem meets_gapStep (hsize : size ≤ 1073741823) (hrounds : size + 1 < rounds) (gap : ℤ)
    (m : Samples) (h : GapInv size m₀ m gap) :
    Meets (Set.Ico 0 size) (TimeObs.Fits size) (gapStep rounds size gap)
      (fun r m' => r.elim
        (fun gap' => GapInv size m₀ m' gap' ∧ (size - gap').toNat < (size - gap).toNat)
        fun _ => SliceSorted m' 0 size ∧ (slice m' 0 size).Perm (slice m₀ 0 size)) m := by
  have hnonneg := h.nonneg
  have hcovers := h.covers
  unfold gapStep
  split
  next hgo =>
    have hpos : 0 < gap := by omega
    refine (meets_mergePass hsize hrounds hpos hgo.1 h).bind ?_
    rintro - m' ⟨hsorted, hperm⟩
    refine meets_arith_bind (by omega) (by omega) ⟨⟨by omega, by omega, by omega, ?_, ?_, hperm⟩,
      by omega⟩
    · rwa [Int.mul_comm gap 2]
    · exact .of_le (by omega) m'
  next hstop =>
    refine ⟨?_, h.permuted⟩
    rcases Int.lt_or_le gap size with hlt | hge
    · exact .of_le (by omega) m
    · have hfirst := h.first
      rwa [Int.min_eq_right hge] at hfirst

/-- **The merge loop** sorts an array whose two halves are sorted. -/
theorem meets_mergePasses (hnonneg : 0 ≤ size) (hsize : size ≤ 1073741823)
    (hrounds : size + 1 < rounds) (hfirst : SliceSorted m 0 (size / 2))
    (hsecond : SliceSorted m (size / 2) (2 * (size / 2))) :
    Meets (Set.Ico 0 size) (TimeObs.Fits size) (mergePasses rounds size)
      (fun _ m' => SliceSorted m' 0 size ∧ (slice m' 0 size).Perm (slice m 0 size)) m := by
  unfold mergePasses
  refine meets_arith_bind ?_ ?_ ?_ <;> rw [turnQuantity, tdiv_two hnonneg]
  · omega
  · omega
  · have hmin : min (size / 2) size = size / 2 ∧ min (2 * (size / 2)) size = 2 * (size / 2) := by
      omega
    refine meets_loop (fun gap m' => meets_gapStep hsize hrounds gap m')
      ⟨by omega, by omega, by omega, ?_, ?_, .refl _⟩ (by omega)
    · rwa [hmin.1]
    · rwa [hmin.2]

/-- No pair of runs begins where its end is no `int`. -/
theorem not_ends_pairStep (hover : ¬ IsInt (i + gap * 2)) : ¬ Ends (pairStep rounds size gap i) m :=
  fun h =>
    have hsum := (meets_arith_bind_iff.mp (Ends.of_bind h)).2.2
    hover (meets_arith_bind_iff.mp hsum).2.1

/-- **With `2 ^ 30` elements the merge loop gets stuck**: its first pass joins the halves, and
computes where a second pair would end. -/
theorem not_ends_mergePasses (hrounds : 1073741825 < rounds) :
    ¬ Ends (mergePasses rounds 1073741824) m := by
  intro h
  obtain ⟨rounds, rfl⟩ := Nat.exists_eq_add_of_le' (show 2 ≤ rounds by omega)
  have hloop := (meets_arith_bind_iff.mp h).2.2
  have hpass : Ends (mergePass _ 1073741824 536870912) m := Ends.of_bind (Ends.of_bind hloop)
  have hpairs : Ends (loop (pairStep _ 1073741824 536870912) _ 0) m := Ends.of_bind hpass
  obtain ⟨r, m', ⟨rfl, -⟩, hnext⟩ := Ends.exists_of_bind hpairs
    (meets_onlyPair le_rfl (by omega) (by decide) (by decide))
  have hsecond : Ends (pairStep _ 1073741824 536870912 (2 * 536870912)) m' := Ends.of_bind hnext
  exact not_ends_pairStep (by decide) hsecond

end Passes

end SmartOffload
