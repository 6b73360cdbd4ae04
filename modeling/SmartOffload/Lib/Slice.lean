import Mathlib

/-!
# Slices of an array, and what permutes them

An array is a function of its index; `slice m lo hi` is what it holds from `lo` up to, not
including, `hi`.  Slices come apart at their ends and anywhere between, and merging two
sorted ones is `List.merge`.

`PermutedOn S m m'` says that `m'` is `m` with its elements inside `S` permuted.  It composes,
a swap is an instance, and it permutes the slices that `S` covers.
-/

universe u v

variable {ι : Type u} {α : Type v}

/-! ### Slices -/

/-- The elements from `lo` up to `hi`. -/
def slice (m : ℤ → α) (lo hi : ℤ) : List α := (Int.range lo hi).map m

section Slice

variable {m m' : ℤ → α} {lo mid hi : ℤ}

theorem length_slice (m : ℤ → α) (lo hi : ℤ) :
    (slice m lo hi).length = (hi - lo).toNat := by
  simp [slice, Int.range]

theorem slice_eq_nil (h : hi ≤ lo) : slice m lo hi = [] := by
  rw [← List.length_eq_zero_iff, length_slice]
  omega

theorem range_append (h₁ : lo ≤ mid) (h₂ : mid ≤ hi) :
    Int.range lo hi = Int.range lo mid ++ Int.range mid hi := by
  obtain ⟨a, rfl⟩ := Int.le.dest h₁
  obtain ⟨b, rfl⟩ := Int.le.dest h₂
  have hsum : (lo + a + b - lo).toNat = a + b := by omega
  have hleft : (lo + a - lo).toNat = a := by omega
  have hright : (lo + a + b - (lo + a)).toNat = b := by omega
  simp only [Int.range, hsum, hleft, hright, List.range_add, List.map_append, List.map_map]
  congr 1
  refine List.map_congr_left fun x _ => ?_
  simp only [Function.comp_apply]
  omega

/-- A slice comes apart anywhere inside. -/
theorem slice_append (h₁ : lo ≤ mid) (h₂ : mid ≤ hi) :
    slice m lo hi = slice m lo mid ++ slice m mid hi := by
  rw [slice, range_append h₁ h₂, List.map_append]
  rfl

theorem slice_singleton (m : ℤ → α) (lo : ℤ) : slice m lo (lo + 1) = [m lo] := by
  simp [slice, Int.range]

/-- The first element. -/
theorem slice_cons (h : lo < hi) : slice m lo hi = m lo :: slice m (lo + 1) hi := by
  rw [slice_append (show lo ≤ lo + 1 by omega) (show lo + 1 ≤ hi by omega), slice_singleton]
  rfl

/-- The last element. -/
theorem slice_concat (h : lo ≤ hi) : slice m lo (hi + 1) = slice m lo hi ++ [m hi] := by
  rw [slice_append h (by omega), slice_singleton]

theorem slice_congr (h : ∀ i, lo ≤ i → i < hi → m' i = m i) :
    slice m' lo hi = slice m lo hi :=
  List.map_congr_left fun i hi' => (Int.mem_range_iff.mp hi').elim (h i)

theorem mem_slice {a : α} : a ∈ slice m lo hi ↔ ∃ i, (lo ≤ i ∧ i < hi) ∧ m i = a := by
  simp only [slice, List.mem_map, Int.mem_range_iff]

theorem getElem_slice {k : ℕ} (h : k < (slice m lo hi).length) :
    (slice m lo hi)[k] = m (lo + k) := by
  simp [slice, Int.range]

theorem pairwise_slice {r : α → α → Prop} :
    (slice m lo hi).Pairwise r ↔ ∀ i j, lo ≤ i → i < j → j < hi → r (m i) (m j) := by
  rw [List.pairwise_iff_getElem]
  constructor
  · intro h i j hi hij hj
    have hmem := h (i - lo).toNat (j - lo).toNat (by rw [length_slice]; omega)
      (by rw [length_slice]; omega) (by omega)
    rw [getElem_slice, getElem_slice] at hmem
    have hi' : lo + ((i - lo).toNat : ℤ) = i := by omega
    have hj' : lo + ((j - lo).toNat : ℤ) = j := by omega
    rwa [hi', hj'] at hmem
  · intro h i j hi hj hij
    rw [getElem_slice, getElem_slice]
    rw [length_slice] at hi hj
    exact h _ _ (by omega) (by omega) (by omega)

/-- The elements from `lo` up to `hi` are in order. -/
def SliceSorted [LE α] (m : ℤ → α) (lo hi : ℤ) : Prop := (slice m lo hi).Pairwise (· ≤ ·)

/-- One element is in order. -/
theorem SliceSorted.of_le [LE α] (h : hi ≤ lo + 1) (m : ℤ → α) :
    SliceSorted m lo hi :=
  pairwise_slice.mpr fun x y hx hxy hy => by omega

/-- Elements permuted in a part are permuted in the whole. -/
theorem slice_perm_of_part {mid' : ℤ} (h₁ : lo ≤ mid)
    (h₂ : mid ≤ mid') (h₃ : mid' ≤ hi) (hpart : (slice m' mid mid').Perm (slice m mid mid'))
    (hout : ∀ x ∉ Set.Ico mid mid', m' x = m x) :
    (slice m' lo hi).Perm (slice m lo hi) := by
  rw [slice_append h₁ (h₂.trans h₃), slice_append (m := m) h₁ (h₂.trans h₃),
    slice_append h₂ h₃, slice_append (m := m) h₂ h₃]
  have hfirst : slice m' lo mid = slice m lo mid :=
    slice_congr fun x _ hx => hout x fun hmem => absurd hmem.1 (by omega)
  have hlast : slice m' mid' hi = slice m mid' hi :=
    slice_congr fun x hx _ => hout x fun hmem => absurd hmem.2 (by omega)
  rw [hfirst, hlast]
  exact (hpart.append_right _).append_left _

end Slice

/-! ### Permuted arrays -/

/-- The array with its elements inside `S` permuted. -/
def PermutedOn (S : Set ι) (m m' : ι → α) : Prop :=
  ∃ σ : Equiv.Perm ι, (∀ i ∉ S, σ i = i) ∧ ∀ i, m' i = m (σ i)

namespace PermutedOn

variable {S T : Set ι} {m m' m'' : ι → α} {i : ι}

theorem refl (S : Set ι) (m : ι → α) : PermutedOn S m m :=
  ⟨Equiv.refl ι, fun _ _ => rfl, fun _ => rfl⟩

theorem trans (h : PermutedOn S m m') (h' : PermutedOn S m' m'') : PermutedOn S m m'' := by
  obtain ⟨σ, hσ, hm'⟩ := h
  obtain ⟨ρ, hρ, hm''⟩ := h'
  refine ⟨ρ.trans σ, fun i hi => ?_, fun i => ?_⟩
  · rw [Equiv.trans_apply, hρ i hi, hσ i hi]
  · rw [hm'', hm', Equiv.trans_apply]

theorem mono (hST : S ⊆ T) (h : PermutedOn S m m') : PermutedOn T m m' := by
  obtain ⟨σ, hσ, hm'⟩ := h
  exact ⟨σ, fun i hi => hσ i fun hS => hi (hST hS), hm'⟩

/-- A swap. -/
theorem swap [DecidableEq ι] {j : ι} (m : ι → α) (hi : i ∈ S) (hj : j ∈ S) :
    PermutedOn S m (m ∘ Equiv.swap i j) := by
  refine ⟨Equiv.swap i j, fun k hk => Equiv.swap_apply_of_ne_of_ne ?_ ?_, fun _ => rfl⟩
  · rintro rfl
    exact hk hi
  · rintro rfl
    exact hk hj

/-- Outside nothing changes. -/
theorem eq_of_notMem (h : PermutedOn S m m') (hi : i ∉ S) : m' i = m i := by
  obtain ⟨σ, hσ, hm'⟩ := h
  rw [hm', hσ i hi]

theorem apply_mem {σ : Equiv.Perm ι} (hσ : ∀ i ∉ S, σ i = i) (hi : i ∈ S) : σ i ∈ S := by
  by_contra hno
  have hfix : σ (σ i) = σ i := hσ (σ i) hno
  rw [σ.injective hfix] at hno
  exact hno hi

/-- Inside every element was inside before. -/
theorem exists_mem (h : PermutedOn S m m') (hi : i ∈ S) : ∃ j ∈ S, m' i = m j := by
  obtain ⟨σ, hσ, hm'⟩ := h
  exact ⟨σ i, apply_mem hσ hi, hm' i⟩

/-- What holds of every element inside still does. -/
theorem forall_mem {P : α → Prop} (h : PermutedOn S m m') (hall : ∀ i ∈ S, P (m i)) :
    ∀ i ∈ S, P (m' i) := by
  intro i hi
  obtain ⟨j, hj, heq⟩ := h.exists_mem hi
  exact heq ▸ hall j hj

/-- The array seen from another index. -/
theorem of_comp {e : Equiv.Perm ι} (h : PermutedOn S (m ∘ e) (m' ∘ e)) :
    PermutedOn (e '' S) m m' := by
  obtain ⟨σ, hσ, hm'⟩ := h
  refine ⟨(e.symm.trans σ).trans e, fun i hi => ?_, fun i => ?_⟩
  · have hfix : σ (e.symm i) = e.symm i := hσ _ fun hmem => hi ⟨_, hmem, e.apply_symm_apply i⟩
    rw [Equiv.trans_apply, Equiv.trans_apply, hfix, Equiv.apply_symm_apply]
  · have hi := hm' (e.symm i)
    rwa [Function.comp_apply, Function.comp_apply, Equiv.apply_symm_apply] at hi

/-- **A permuted slice is a permutation.** -/
theorem slice_perm {m m' : ℤ → α} {lo hi : ℤ} (h : PermutedOn (Set.Ico lo hi) m m') :
    (slice m' lo hi).Perm (slice m lo hi) := by
  obtain ⟨σ, hσ, hm'⟩ := h
  have hnodup : (Int.range lo hi).Nodup := List.nodup_range.map fun a b hab =>
    Int.ofNat_inj.mp (Int.add_left_cancel hab)
  have hrange : ((Int.range lo hi).map σ).Perm (Int.range lo hi) := by
    refine (List.perm_ext_iff_of_nodup (hnodup.map σ.injective) hnodup).mpr fun i => ?_
    rw [List.mem_map]
    constructor
    · rintro ⟨j, hj, rfl⟩
      exact Int.mem_range_iff.mpr (apply_mem hσ (Int.mem_range_iff.mp hj))
    · intro hmem
      refine ⟨σ.symm i, ?_, σ.apply_symm_apply i⟩
      have hsymm : ∀ i ∉ Set.Ico lo hi, σ.symm i = i := fun i hi =>
        (Equiv.symm_apply_eq σ).mpr (hσ i hi).symm
      exact Int.mem_range_iff.mpr (apply_mem hsymm (Int.mem_range_iff.mp hmem))
  have heq : slice m' lo hi = ((Int.range lo hi).map σ).map m := by
    rw [List.map_map]
    exact List.map_congr_left fun i _ => hm' i
  rw [heq]
  exact hrange.map m

end PermutedOn
