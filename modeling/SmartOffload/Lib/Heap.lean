import SmartOffload.Lib.Slice

/-!
# Binary heaps in an array

The children of node `p` are `2p + 1` and `2p + 2`.  `HeapFrom lo n h` is the order of a
max-heap with `n` nodes, at the nodes from `lo` on.

Sifting an element down moves a **hole** through the heap.  `Sifting lo n hole h` is the
invariant, about the array in which the hole holds the element: the order is right at every
other node, and the children of the hole are right with the parent of the hole.  It starts
where the heap lacks its first node (`HeapFrom.sifting`), moves to the greater child
(`Sifting.move`) and ends where the element is not less than the children
(`Sifting.finish`).

`Selecting n j h` is the invariant of heap sort: a heap up to `j`, and after it the greatest
elements in order.
-/

universe u

variable {α : Type u} [LinearOrder α] {h h' : ℤ → α} {lo lo' n n' p c hole i j : ℤ}

/-- The second node is a child of the first. -/
def IsChild (p c : ℤ) : Prop := c = 2 * p + 1 ∨ c = 2 * p + 2

/-- **The order of a max-heap** of `n` nodes, at the nodes from `lo` on. -/
def HeapFrom (lo n : ℤ) (h : ℤ → α) : Prop :=
  ∀ p c, lo ≤ p → IsChild p c → c < n → h c ≤ h p

namespace HeapFrom

theorem mono (hlo : lo ≤ lo') (hn : n' ≤ n) (hh : HeapFrom lo n h) : HeapFrom lo' n' h :=
  fun p c hp hc hcn => hh p c (by omega) hc (by omega)

/-- Nodes without children are in order. -/
theorem of_leaves (hn : n ≤ 2 * lo + 1) (h : ℤ → α) : HeapFrom lo n h := by
  intro p c hp hc hcn
  unfold IsChild at hc
  omega

theorem congr (hlo : 0 ≤ lo) (hagree : ∀ i, lo ≤ i → i < n → h' i = h i)
    (hh : HeapFrom lo n h) : HeapFrom lo n h' := by
  intro p c hp hc hcn
  have hpc : p < c := by unfold IsChild at hc; omega
  rw [hagree c (by omega) hcn, hagree p hp (by omega)]
  exact hh p c hp hc hcn

/-- **The root is the greatest.** -/
theorem le_root (hh : HeapFrom 0 n h) (k : ℕ) (hk : (k : ℤ) < n) : h k ≤ h 0 := by
  induction k using Nat.strong_induction_on with
  | _ k ih =>
      rcases Nat.eq_zero_or_pos k with rfl | hpos
      · exact le_rfl
      · have hchild : IsChild (((k - 1) / 2 : ℕ) : ℤ) (k : ℤ) := by unfold IsChild; omega
        exact (hh _ _ (by omega) hchild hk).trans (ih _ (by omega) (by omega))

end HeapFrom

/-! ### Sifting down -/

/-- An element is being sifted down and has reached the hole: the order is right off the hole
and across it. -/
structure Sifting (lo n hole : ℤ) (h : ℤ → α) : Prop where
  except : ∀ p c, lo ≤ p → p ≠ hole → IsChild p c → c < n → h c ≤ h p
  grand : ∀ p c, lo ≤ p → IsChild p hole → IsChild hole c → c < n → h c ≤ h p

/-- A heap that lacks its first node starts a sift there. -/
theorem HeapFrom.sifting (hi : 0 ≤ i) (hh : HeapFrom (i + 1) n h) : Sifting i n i h where
  except p c hp hne hc hcn := hh p c (by omega) hc hcn
  grand p c hp hpc := by unfold IsChild at hpc; omega

/-- The element is in place. -/
theorem Sifting.finish (hs : Sifting lo n hole h)
    (hstop : ∀ c, IsChild hole c → c < n → h c ≤ h hole) : HeapFrom lo n h := by
  intro p c hp hc hcn
  by_cases heq : p = hole
  · subst heq
    exact hstop c hc hcn
  · exact hs.except p c hp heq hc hcn

/-- **The hole moves to its greater child**, which takes its place. -/
theorem Sifting.move (hs : Sifting lo n hole h) (hlo : 0 ≤ lo) (hhole : lo ≤ hole)
    (hc : IsChild hole c) (hcn : c < n) (hless : h hole ≤ h c)
    (hmax : ∀ d, IsChild hole d → d < n → h d ≤ h c) :
    Sifting lo n c (h ∘ Equiv.swap hole c) := by
  have hlt : hole < c := by unfold IsChild at hc; omega
  have hother : ∀ {x}, x ≠ hole → x ≠ c → (h ∘ Equiv.swap hole c) x = h x := fun h₁ h₂ =>
    congrArg h (Equiv.swap_apply_of_ne_of_ne h₁ h₂)
  have hnew : (h ∘ Equiv.swap hole c) hole = h c := congrArg h (Equiv.swap_apply_left hole c)
  have hold : (h ∘ Equiv.swap hole c) c = h hole := congrArg h (Equiv.swap_apply_right hole c)
  constructor
  · intro p d hp hpc hd hdn
    have hpd : p < d := by unfold IsChild at hd; omega
    by_cases hph : p = hole
    · -- the hole's old place: its children are not greater than the one that moved up
      subst hph
      rw [hnew]
      by_cases hdc : d = c
      · rw [hdc, hold]
        exact hless
      · rw [hother (by omega) hdc]
        exact hmax d hd hdn
    · rw [hother hph hpc]
      by_cases hdh : d = hole
      · subst hdh
        rw [hnew]
        exact hs.grand p c hp hd hc hcn
      · have hdc : d ≠ c := by unfold IsChild at hc hd; omega
        rw [hother hdh hdc]
        exact hs.except p d hp hph hd hdn
  · intro p d hp hpc hcd hdn
    have hph : p = hole := by unfold IsChild at hpc hc; omega
    have hdc : c < d := by unfold IsChild at hcd; omega
    rw [hph, hnew, hother (by omega) (by omega)]
    exact hs.except c d (by omega) (by omega) hcd hdn

/-- Moving the hole in memory swaps in the array where it is filled. -/
theorem update_move_eq_swap {ι : Type*} [DecidableEq ι] {β : Type*} {a b : ι} (hne : a ≠ b)
    (m : ι → β) (x : β) :
    Function.update (Function.update m a (m b)) b x =
      Function.update m a x ∘ Equiv.swap a b := by
  funext i
  by_cases hib : i = b
  · subst hib
    rw [Function.update_self, Function.comp_apply, Equiv.swap_apply_right, Function.update_self]
  · rw [Function.update_of_ne hib, Function.comp_apply]
    by_cases hia : i = a
    · subst hia
      rw [Function.update_self, Equiv.swap_apply_left, Function.update_of_ne hne.symm]
    · rw [Function.update_of_ne hia, Equiv.swap_apply_of_ne_of_ne hia hib,
        Function.update_of_ne hia]

/-! ### Heap sort -/

/-- Heap sort has selected the elements after `j`. -/
structure Selecting (n j : ℤ) (h : ℤ → α) : Prop where
  heap : HeapFrom 0 (j + 1) h
  below : ∀ x y, 0 ≤ x → x ≤ j → j < y → y < n → h x ≤ h y
  sorted : ∀ x y, j < x → x ≤ y → y < n → h x ≤ h y

/-- A heap starts the selection. -/
theorem HeapFrom.selecting (hh : HeapFrom 0 n h) : Selecting n (n - 1) h where
  heap := by rwa [Int.sub_add_cancel]
  below _ _ _ _ _ _ := by omega
  sorted _ _ _ _ _ := by omega

/-- Once the root is swapped to the end, the heap lacks its first node. -/
theorem HeapFrom.swap_root (hh : HeapFrom 0 (j + 1) h) :
    HeapFrom 1 j (h ∘ Equiv.swap 0 j) := by
  intro p c hp hc hcn
  have hpc : p < c := by unfold IsChild at hc; omega
  rw [Function.comp_apply, Function.comp_apply, Equiv.swap_apply_of_ne_of_ne (by omega) (by omega),
    Equiv.swap_apply_of_ne_of_ne (by omega) (by omega)]
  exact hh p c (by omega) hc (by omega)

/-- **One selection**: the root goes behind the heap, the rest is made a heap again. -/
theorem Selecting.next (hs : Selecting n j h) (hj : 0 < j)
    (hheap : HeapFrom 0 j h') (hperm : PermutedOn (Set.Ico 0 j) (h ∘ Equiv.swap 0 j) h') :
    Selecting n (j - 1) h' := by
  have hj' : h' j = h 0 := by
    rw [hperm.eq_of_notMem (fun hmem => lt_irrefl j hmem.2), Function.comp_apply,
      Equiv.swap_apply_right]
  have hafter : ∀ y, j < y → h' y = h y := by
    intro y hy
    have hout : y ∉ Set.Ico 0 j := fun hmem => absurd hmem.2 (by omega)
    rw [hperm.eq_of_notMem hout, Function.comp_apply,
      Equiv.swap_apply_of_ne_of_ne (by omega) (by omega)]
  -- what is left in the heap was in it before
  have hfrom : ∀ {P : α → Prop}, (∀ x, 0 ≤ x → x ≤ j → P (h x)) →
      ∀ x, 0 ≤ x → x < j → P (h' x) := by
    intro P hP x hx₀ hx
    refine hperm.forall_mem (fun i hi => ?_) x ⟨hx₀, hx⟩
    rw [Function.comp_apply]
    by_cases hi₀ : i = 0
    · rw [hi₀, Equiv.swap_apply_left]
      exact hP j (by omega) le_rfl
    · rw [Equiv.swap_apply_of_ne_of_ne hi₀ (by have := hi.2; omega)]
      exact hP i hi.1 hi.2.le
  have hroot : ∀ x, 0 ≤ x → x ≤ j → h x ≤ h 0 := by
    intro x hx₀ hx
    obtain ⟨k, rfl⟩ := Int.eq_ofNat_of_zero_le hx₀
    exact hs.heap.le_root k (by omega)
  constructor
  · rwa [Int.sub_add_cancel]
  · intro x y hx₀ hx hy hyn
    rcases Int.lt_or_eq_of_le (show j ≤ y by omega) with hlt | rfl
    · rw [hafter y hlt]
      exact hfrom (P := (· ≤ h y)) (fun z hz₀ hz => hs.below z y hz₀ hz hlt hyn) x hx₀ (by omega)
    · rw [hj']
      exact hfrom (P := (· ≤ h 0)) hroot x hx₀ (by omega)
  · intro x y hx hxy hyn
    rcases Int.lt_or_eq_of_le (show j ≤ x by omega) with hlt | rfl
    · rw [hafter x hlt, hafter y (by omega)]
      exact hs.sorted x y hlt hxy hyn
    · rcases Int.lt_or_eq_of_le hxy with hlt | rfl
      · rw [hj', hafter y hlt]
        exact hs.below 0 y le_rfl (by omega) hlt hyn
      · exact le_rfl

/-- When at most one element is left, all are in order. -/
theorem Selecting.sorted_of_le (hs : Selecting n j h) (hj : j ≤ 0) :
    ∀ x y, 0 ≤ x → x ≤ y → y < n → h x ≤ h y := by
  intro x y hx₀ hxy hyn
  rcases Int.lt_or_eq_of_le hxy with hlt | rfl
  · rcases Int.lt_or_le j x with hjx | hxj
    · exact hs.sorted x y hjx hxy hyn
    · exact hs.below x y hx₀ hxj (by omega) hyn
  · exact le_rfl
