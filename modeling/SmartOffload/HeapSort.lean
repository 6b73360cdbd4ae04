import SmartOffload.Lib.Heap
import SmartOffload.TimeStat

/-!
# The heap sort of one block

`adjust` sifts an element down in the block of its thread (`meets_adjust`), and `heap_sort`
sorts the block (`meets_heapSort`): for any contents of the array, accessing that block only,
with every `int` in range.  `exists_run_adjust` is what one call of `adjust` does to the array.

The block of a thread is the array seen from the index where the block begins.
-/

namespace SmartOffload

open MemProg

/-- Samples in their order as numbers. -/
instance instLinearOrderUInt64 : LinearOrder UInt64 where
  le_refl := UInt64.le_refl
  le_trans _ _ _ := UInt64.le_trans
  le_antisymm _ _ := UInt64.le_antisymm
  le_total := UInt64.le_total
  lt_iff_le_not_ge _ _ :=
    ⟨fun h => ⟨UInt64.le_of_lt h, UInt64.not_le.mpr h⟩, fun h => UInt64.not_le.mp h.2⟩
  toDecidableLE := inferInstance
  toDecidableLT := inferInstance
  toDecidableEq := inferInstance

/-- An observation fits an array of so many elements: `int` results are in range, and the
buffer of `merge` is accessed inside. -/
def TimeObs.Fits (size : ℤ) : TimeObs → Prop
  | .int x => IsInt x
  | .buffer k length => 0 ≤ k ∧ k < length ∧ length ≤ size

section Arith

variable {β : Type} {A : Set ℤ} {ok : TimeObs → Prop} {size x : ℤ} {m : Samples}
  {f : ℤ → TimeProgram β} {Q : ℤ → Samples → Prop} {R : β → Samples → Prop}

/-- An `int` operation has a result only if that is an `int`. -/
theorem meets_arith_iff :
    Meets A ok (arith x) Q m ↔ ok (.int x) ∧ IsInt x ∧ Q x m := by
  show ok (.int x) ∧ Meets A ok (if IsInt x then Pure.pure x else .stuck) Q m ↔ _
  refine and_congr_right fun _ => ?_
  split
  next hint => exact (and_iff_right hint).symm
  next hover => exact iff_of_false id fun h => hover h.1

theorem meets_arith_bind_iff :
    Meets A ok (arith x >>= f) R m ↔ ok (.int x) ∧ IsInt x ∧ Meets A ok (f x) R m :=
  meets_bind.trans meets_arith_iff

theorem meets_arith (hmin : -2147483648 ≤ x) (hmax : x < 2147483648) (h : Q x m) :
    Meets A (TimeObs.Fits size) (arith x) Q m :=
  have hint : IsInt x := ⟨hmin, by omega⟩
  meets_arith_iff.mpr ⟨hint, hint, h⟩

theorem meets_arith_bind (hmin : -2147483648 ≤ x) (hmax : x < 2147483648)
    (h : Meets A (TimeObs.Fits size) (f x) R m) :
    Meets A (TimeObs.Fits size) (arith x >>= f) R m :=
  meets_bind.mpr (meets_arith hmin hmax h)

end Arith

/-! ### `adjust` -/

/-- The array from `base` on. -/
def block (base : ℤ) (m : Samples) : Samples := fun x => m (x + base)

theorem block_update (base x : ℤ) (m : Samples) (value : UInt64) :
    block base (Function.update m (x + base) value) =
      Function.update (block base m) x value :=
  Function.update_comp_eq_of_injective m (add_left_injective base) x value

section Adjust

variable {size blockLength n turn i : ℤ} {A : Set ℤ} {m : Samples}

theorem meets_leftChild {parent : ℤ} {Q : ℤ → Samples → Prop} (h₀ : 0 ≤ parent)
    (h₁ : parent < 1073741824) (h : Q (parent * 2 + 1) m) :
    Meets A (TimeObs.Fits size) (leftChild parent) Q m :=
  meets_arith_bind (by omega) (by omega) (meets_arith (by omega) (by omega) h)

theorem meets_leftChild_bind {β : Type} {parent : ℤ} {f : ℤ → TimeProgram β}
    {R : β → Samples → Prop} (h₀ : 0 ≤ parent) (h₁ : parent < 1073741824)
    (h : Meets A (TimeObs.Fits size) (f (parent * 2 + 1)) R m) :
    Meets A (TimeObs.Fits size) (leftChild parent >>= f) R m :=
  meets_bind.mpr (meets_leftChild h₀ h₁ h)

/-- A child below `n` that no child below `n` exceeds. -/
structure GreatestChild (n parent : ℤ) (h : ℤ → UInt64) (c : ℤ) : Prop where
  isChild : IsChild parent c
  lt : c < n
  le : ∀ d, IsChild parent d → d < n → h d ≤ h c

/-- The choice between the children. -/
theorem meets_chooseChild {parent : ℤ} (hparent : 0 ≤ parent) (hleft : parent * 2 + 1 < n)
    (hn : n ≤ 1073741824)
    (hA : ∀ x, parent < x → x < n → x + turn * blockLength ∈ A) :
    Meets A (TimeObs.Fits size) (chooseChild blockLength n turn (parent * 2 + 1))
      (fun c m' => m' = m ∧ GreatestChild n parent (block (turn * blockLength) m) c) m := by
  unfold chooseChild
  refine meets_arith_bind (by omega) (by omega) ?_
  split
  next hne =>
    have hright : parent * 2 + 1 + turn * blockLength + 1 =
        parent * 2 + 2 + turn * blockLength := by omega
    refine meets_load_bind (hA _ (by omega) (by omega)) (meets_load_bind ?_ ?_)
    · rw [hright]
      exact hA _ (by omega) (by omega)
    · rw [hright]
      split
      next hlt =>
        refine meets_arith (by omega) (by omega) ⟨rfl, Or.inr (by omega), by omega, ?_⟩
        intro d hd hdn
        have hsecond : parent * 2 + 1 + 1 = parent * 2 + 2 := by omega
        rw [hsecond]
        rcases hd with rfl | rfl
        · rw [Int.mul_comm 2 parent]
          exact hlt.le
        · rw [Int.mul_comm 2 parent]
      next hge =>
        refine ⟨rfl, Or.inl (by omega), by omega, ?_⟩
        intro d hd hdn
        rcases hd with rfl | rfl
        · rw [Int.mul_comm 2 parent]
        · rw [Int.mul_comm 2 parent]
          exact le_of_not_gt hge
  next heq =>
    -- the left child is the last node
    refine ⟨rfl, Or.inl (by omega), by omega, ?_⟩
    intro d hd hdn
    have hd' : d = parent * 2 + 1 := by
      rcases hd with rfl | rfl <;> omega
    rw [hd']

/-- The element is on its way down, and has reached `parent`: the block with the element
there is a permutation, and a heap but for the element. -/
structure Adjusting (i n : ℤ) (temp : UInt64) (h₀ h : ℤ → UInt64) (parent : ℤ) : Prop where
  le : i ≤ parent
  lt : parent < n
  permuted : PermutedOn (Set.Ico i n) h₀ (Function.update h parent temp)
  sifting : Sifting i n parent (Function.update h parent temp)

/-- One round of the loop of `adjust`. -/
theorem meets_adjustStep {temp : UInt64} {h₀ : ℤ → UInt64} {parent : ℤ} (hi : 0 ≤ i)
    (hn : n ≤ 1073741824)
    (h : Adjusting i n temp h₀ (block (turn * blockLength) m) parent) :
    Meets (Set.Ico (i + turn * blockLength) (n + turn * blockLength)) (TimeObs.Fits size)
      (adjustStep blockLength n turn temp parent)
      (fun r m' => r.elim
        (fun c => Adjusting i n temp h₀ (block (turn * blockLength) m') c ∧
          (n - c).toNat < (n - parent).toNat)
        fun p => Adjusting i n temp h₀ (block (turn * blockLength) m') p ∧
          HeapFrom i n (Function.update (block (turn * blockLength) m') p temp)) m := by
  have hle := h.le
  have hlt := h.lt
  have hmem : ∀ x, i ≤ x → x < n → x + turn * blockLength ∈
      Set.Ico (i + turn * blockLength) (n + turn * blockLength) :=
    fun x h₁ h₂ => ⟨by omega, by omega⟩
  unfold adjustStep
  refine meets_leftChild_bind (by omega) (by omega) (meets_arith_bind (by omega) (by omega) ?_)
  split
  next hchild =>
    refine meets_leftChild_bind (by omega) (by omega) ?_
    refine (meets_chooseChild (by omega) (by omega) hn
      fun x h₁ h₂ => hmem x (by omega) h₂).bind ?_
    rintro c m' ⟨rfl, hc⟩
    have hpc : parent < c := by
      have := hc.isChild
      unfold IsChild at this
      omega
    have hother : ∀ {x}, x ≠ parent →
        Function.update (block (turn * blockLength) m') parent temp x =
          block (turn * blockLength) m' x := fun hne => Function.update_of_ne hne _ _
    refine meets_load_bind (hmem c (by omega) hc.lt) ?_
    split
    next hstop =>
      -- the element is in place
      refine ⟨h, h.sifting.finish fun d hd hdn => ?_⟩
      have hpd : parent < d := by unfold IsChild at hd; omega
      rw [Function.update_self, hother (by omega)]
      exact (hc.le d hd hdn).trans hstop
    next hgo =>
      -- writing the child over its parent swaps the two once the element is put in
      have hswap := update_move_eq_swap (b := c) hpc.ne (block (turn * blockLength) m') temp
      refine meets_load_bind (hmem c (by omega) hc.lt)
        (meets_store_bind (hmem parent hle hlt) ⟨⟨by omega, hc.lt, ?_, ?_⟩, by omega⟩)
      · rw [block_update]
        exact hswap ▸ h.permuted.trans
          (PermutedOn.swap _ ⟨hle, hlt⟩ ⟨by omega, hc.lt⟩)
      · rw [block_update]
        refine hswap ▸ h.sifting.move hi hle hc.isChild hc.lt ?_ fun d hd hdn => ?_
        · rw [Function.update_self, hother (by omega)]
          exact (lt_of_not_ge hgo).le
        · have hpd : parent < d := by unfold IsChild at hd; omega
          rw [hother (by omega), hother (by omega)]
          exact hc.le d hd hdn
  next hleaf =>
    refine ⟨h, h.sifting.finish fun d hd hdn => ?_⟩
    unfold IsChild at hd
    omega

/-- **`adjust`** makes a heap of the nodes from `i` on, if those after `i` are one. -/
theorem meets_adjust (size : ℤ) {rounds : ℕ} (hi : 0 ≤ i) (hin : i < n) (hn : n ≤ 1073741824)
    (hrounds : n < rounds) (hheap : HeapFrom (i + 1) n (block (turn * blockLength) m)) :
    Meets (Set.Ico (i + turn * blockLength) (n + turn * blockLength)) (TimeObs.Fits size)
      (adjust rounds blockLength i n turn)
      (fun _ m' => HeapFrom i n (block (turn * blockLength) m') ∧
        PermutedOn (Set.Ico i n) (block (turn * blockLength) m)
          (block (turn * blockLength) m')) m := by
  have hstart : Adjusting i n (m (i + turn * blockLength)) (block (turn * blockLength) m)
      (block (turn * blockLength) m) i := by
    have hself : Function.update (block (turn * blockLength) m) i (m (i + turn * blockLength)) =
        block (turn * blockLength) m := Function.update_eq_self i _
    refine ⟨le_rfl, hin, ?_, ?_⟩ <;> rw [hself]
    · exact PermutedOn.refl _ _
    · exact hheap.sifting hi
  unfold adjust
  refine meets_load_bind ⟨by omega, by omega⟩ ?_
  refine (meets_loop (fun p m' hp => meets_adjustStep hi hn hp) hstart (by omega)).bind ?_
  rintro p m' ⟨hp, hheap'⟩
  have hle := hp.le
  have hlt := hp.lt
  refine meets_store ⟨by omega, by omega⟩ ?_
  rw [block_update]
  exact ⟨hheap', hp.permuted⟩

end Adjust

/-! ### Blocks -/

/-- Halving rounds towards zero. -/
theorem tdiv_two {x : ℤ} (h : 0 ≤ x) : x.tdiv 2 = x / 2 := Int.tdiv_eq_ediv_of_nonneg h

section Blocks

variable {blockLength turn : ℤ}

/-- The cells of a block. -/
def blockCells (blockLength turn : ℤ) : Set ℤ :=
  Set.Ico (turn * blockLength) (blockLength + turn * blockLength)

theorem adjustCells_subset {i n : ℤ} (hi : 0 ≤ i) (hn : n ≤ blockLength) :
    Set.Ico (i + turn * blockLength) (n + turn * blockLength) ⊆ blockCells blockLength turn := by
  intro x hx
  exact ⟨by have := hx.1; omega, by have := hx.2; omega⟩

/-- Different blocks have different cells. -/
theorem disjoint_blockCells {turn' : ℤ} (hlength : 0 ≤ blockLength) (hlt : turn < turn') :
    Disjoint (blockCells blockLength turn) (blockCells blockLength turn') := by
  refine Set.disjoint_left.mpr fun x hx hx' => ?_
  have hstep : (turn + 1) * blockLength ≤ turn' * blockLength :=
    Int.mul_le_mul_of_nonneg_right hlt hlength
  rw [Int.add_mul, Int.one_mul] at hstep
  have hhigh := hx.2
  have hlow := hx'.1
  omega

theorem disjoint_blockCells_of_ne {turn' : ℤ} (hlength : 0 ≤ blockLength) (hne : turn' ≠ turn) :
    Disjoint (blockCells blockLength turn') (blockCells blockLength turn) := by
  rcases lt_or_gt_of_ne hne with hlt | hgt
  · exact disjoint_blockCells hlength hlt
  · exact (disjoint_blockCells hlength hgt).symm

end Blocks

/-! ### One call of `adjust` -/

section Call

variable {size blockLength i n turn : ℤ} {rounds : ℕ} {m : Samples}

/-- **What a call of `adjust` leaves** of an array, for the nodes from `i` up to `n` of a
block. -/
structure Adjusted (blockLength i n turn : ℤ) (m m' : Samples) : Prop where
  /-- The nodes are in heap order. -/
  heap : HeapFrom i n (block (turn * blockLength) m')
  /-- Of the block, only elements at these nodes are permuted. -/
  permuted : PermutedOn (Set.Ico i n) (block (turn * blockLength) m)
    (block (turn * blockLength) m')
  outside : ∀ x ∉ blockCells blockLength turn, m' x = m x
  otherBlocks : ∀ turn' ≠ turn, ∀ x ∈ blockCells blockLength turn', m' x = m x

/-- **A call of `adjust`** at a node of a block whose nodes after it, below `n`, are in heap
order: it returns, has the nodes from `i` on in heap order, has permuted their elements and
nothing else, and has accessed no other cell.  `block_length` is `size / TURN` for an `int`. -/
theorem exists_run_adjust (hsize : 0 ≤ size ∧ size ≤ 2147483647)
    (hlength : blockLength = size.tdiv turnQuantity) (hi : 0 ≤ i) (hin : i < n)
    (hn : n ≤ blockLength) (hrounds : n < rounds)
    (hheap : HeapFrom (i + 1) n (block (turn * blockLength) m)) :
    ∃ m' tr, (adjust rounds blockLength i n turn).run m = some ((), m', tr) ∧
      Adjusted blockLength i n turn m m' ∧
      ∀ x, .access x ∈ tr → x ∈ Set.Ico (i + turn * blockLength) (n + turn * blockLength) := by
  rw [turnQuantity, tdiv_two hsize.1] at hlength
  have hadjust := (meets_adjust size hi hin (by omega) hrounds hheap).frame
  obtain ⟨_, m', tr, hrun, ⟨⟨hheap', hperm⟩, hframe⟩, htr⟩ := hadjust.exists_run
  have hout : ∀ x ∉ blockCells blockLength turn, m' x = m x := fun x hx =>
    hframe x fun hmem => hx (adjustCells_subset hi hn hmem)
  refine ⟨m', tr, hrun, ⟨hheap', hperm, hout, fun turn' hne x hx => ?_⟩, fun x hx => htr _ hx⟩
  exact hout x (Set.disjoint_left.mp (disjoint_blockCells_of_ne (by omega) hne) hx)

/-- In the second block of three ascending samples, the last goes to the root. -/
theorem exists_run_adjust_three : ∃ m' tr,
    (adjust 4 3 0 3 1).run (fun x => UInt64.ofNat x.toNat) = some ((), m', tr) ∧
      Adjusted 3 0 3 1 (fun x => UInt64.ofNat x.toNat) m' ∧
      ∀ x, .access x ∈ tr → x ∈ Set.Ico (0 + 1 * 3) (3 + 1 * 3) :=
  exists_run_adjust (by decide : 0 ≤ (6 : ℤ) ∧ (6 : ℤ) ≤ 2147483647) (by decide) (by decide)
    (by decide) (by decide) (by decide) (.of_leaves (by decide) _)

example : ((adjust 4 3 0 3 1).run fun x => UInt64.ofNat x.toNat).map
    (fun r => [3, 4, 5].map r.2.1) = some [5, 4, 3] := by decide

end Call

/-! ### `heap_sort` -/

section HeapSort

variable {size blockLength turn : ℤ} {rounds : ℕ} {m : Samples}

/-- One round of the first loop: one more node is in heap order. -/
theorem meets_buildStep (h₀ : ℤ → UInt64) (hlength : blockLength ≤ 1073741824)
    (hrounds : blockLength < rounds) (i : ℤ) (m : Samples)
    (h : (-1 ≤ i ∧ i < blockLength) ∧ HeapFrom (i + 1) blockLength (block (turn * blockLength) m) ∧
      PermutedOn (Set.Ico 0 blockLength) h₀ (block (turn * blockLength) m)) :
    Meets (blockCells blockLength turn) (TimeObs.Fits size) (buildStep rounds blockLength turn i)
      (fun r m' => r.elim
        (fun i' => ((-1 ≤ i' ∧ i' < blockLength) ∧
          HeapFrom (i' + 1) blockLength (block (turn * blockLength) m') ∧
          PermutedOn (Set.Ico 0 blockLength) h₀ (block (turn * blockLength) m')) ∧
          (i' + 1).toNat < (i + 1).toNat)
        fun _ => HeapFrom 0 blockLength (block (turn * blockLength) m') ∧
          PermutedOn (Set.Ico 0 blockLength) h₀ (block (turn * blockLength) m')) m := by
  obtain ⟨⟨hlow, hhigh⟩, hheap, hperm⟩ := h
  unfold buildStep
  split
  next hi =>
    have hadjust := meets_adjust size hi hhigh hlength hrounds hheap
    refine (hadjust.mono (adjustCells_subset hi le_rfl) (fun _ => id) fun _ _ => id).bind ?_
    rintro - m' ⟨hheap', hperm'⟩
    refine meets_arith_bind (by omega) (by omega) ⟨⟨⟨by omega, by omega⟩, ?_, ?_⟩, by omega⟩
    · rwa [Int.sub_add_cancel]
    · exact hperm.trans (hperm'.mono fun x hx => ⟨hi.trans hx.1, hx.2⟩)
  next hi =>
    have hzero : i + 1 = 0 := by omega
    rw [hzero] at hheap
    exact ⟨hheap, hperm⟩

/-- One round of the second loop: one more element is selected. -/
theorem meets_selectStep (h₀ : ℤ → UInt64) (hlength : blockLength ≤ 1073741824)
    (hrounds : blockLength < rounds) (j : ℤ) (m : Samples)
    (h : (-1 ≤ j ∧ j < blockLength) ∧ Selecting blockLength j (block (turn * blockLength) m) ∧
      PermutedOn (Set.Ico 0 blockLength) h₀ (block (turn * blockLength) m)) :
    Meets (blockCells blockLength turn) (TimeObs.Fits size)
      (selectStep rounds blockLength turn j)
      (fun r m' => r.elim
        (fun j' => ((-1 ≤ j' ∧ j' < blockLength) ∧
          Selecting blockLength j' (block (turn * blockLength) m') ∧
          PermutedOn (Set.Ico 0 blockLength) h₀ (block (turn * blockLength) m')) ∧
          j'.toNat < j.toNat)
        fun _ => (∀ x y, 0 ≤ x → x ≤ y → y < blockLength →
            block (turn * blockLength) m' x ≤ block (turn * blockLength) m' y) ∧
          PermutedOn (Set.Ico 0 blockLength) h₀ (block (turn * blockLength) m')) m := by
  obtain ⟨⟨hlow, hhigh⟩, hselect, hperm⟩ := h
  unfold selectStep
  split
  next hj =>
    have hroot : 0 + turn * blockLength ∈ blockCells blockLength turn :=
      ⟨by omega, by omega⟩
    have hlast : j + turn * blockLength ∈ blockCells blockLength turn := ⟨by omega, by omega⟩
    refine meets_load_bind hroot (meets_load_bind hlast (meets_store_bind hroot
      (meets_store_bind hlast ?_)))
    -- the root and the last node of the heap have changed places
    generalize hswapped : Function.update (Function.update m (0 + turn * blockLength)
      (m (j + turn * blockLength))) (j + turn * blockLength) (m (0 + turn * blockLength)) = m₁
    have hswap : block (turn * blockLength) m₁ =
        block (turn * blockLength) m ∘ Equiv.swap 0 j := by
      rw [← hswapped, block_update, block_update]
      have hmove := update_move_eq_swap (b := j) hj.ne (block (turn * blockLength) m)
        (block (turn * blockLength) m 0)
      rwa [Function.update_eq_self] at hmove
    have hheap : HeapFrom (0 + 1) j (block (turn * blockLength) m₁) := by
      rw [hswap]
      exact hselect.heap.swap_root
    have hadjust := meets_adjust size le_rfl hj (by omega) (show j < rounds by omega) hheap
    refine (hadjust.mono (adjustCells_subset le_rfl (by omega)) (fun _ => id)
      fun _ _ => id).bind ?_
    rintro - m' ⟨hheap', hperm'⟩
    rw [hswap] at hperm'
    refine meets_arith_bind (by omega) (by omega) ⟨⟨⟨by omega, by omega⟩, ?_, ?_⟩, by omega⟩
    · exact hselect.next hj hheap' hperm'
    · have hfirst : PermutedOn (Set.Ico 0 blockLength) (block (turn * blockLength) m)
          (block (turn * blockLength) m ∘ Equiv.swap 0 j) :=
        PermutedOn.swap _ ⟨le_rfl, by omega⟩ ⟨hj.le, hhigh⟩
      exact (hperm.trans hfirst).trans (hperm'.mono fun x hx => ⟨hx.1, hx.2.trans hhigh⟩)
  next hj => exact ⟨hselect.sorted_of_le (by omega), hperm⟩

/-- What a thread leaves in its block: the elements it found, in order. -/
structure BlockSorted (blockLength turn : ℤ) (m m' : Samples) : Prop where
  sorted : SliceSorted m' (turn * blockLength) (blockLength + turn * blockLength)
  perm : (slice m' (turn * blockLength) (blockLength + turn * blockLength)).Perm
    (slice m (turn * blockLength) (blockLength + turn * blockLength))

/-- **`heap_sort`** sorts the block of its thread. -/
theorem meets_heapSort (hnonneg : 0 ≤ blockLength) (hlength : blockLength ≤ 1073741824)
    (hrounds : blockLength < rounds) :
    Meets (blockCells blockLength turn) (TimeObs.Fits size) (heapSort rounds blockLength turn)
      (fun _ m' => BlockSorted blockLength turn m m') m := by
  have hhalf : -1 ≤ (blockLength - 2).tdiv 2 ∧ (blockLength - 2).tdiv 2 < blockLength ∧
      blockLength ≤ 2 * ((blockLength - 2).tdiv 2 + 1) + 1 := by
    rcases Int.lt_or_le blockLength 2 with hlt | hge
    · have hsmall : blockLength = 0 ∨ blockLength = 1 := by omega
      rcases hsmall with rfl | rfl <;> decide
    · rw [tdiv_two (by omega)]
      omega
  unfold heapSort
  refine meets_arith_bind (by omega) (by omega) (meets_arith_bind (by omega) (by omega) ?_)
  refine (meets_loop (fun i m' => meets_buildStep (block (turn * blockLength) m) hlength
    hrounds i m') ⟨⟨hhalf.1, hhalf.2.1⟩, .of_leaves hhalf.2.2 _, PermutedOn.refl _ _⟩
    (by omega)).bind ?_
  rintro - m₁ ⟨hheap, hperm⟩
  refine meets_arith_bind (by omega) (by omega) ?_
  refine (meets_loop (fun j m' => meets_selectStep (block (turn * blockLength) m) hlength
    hrounds j m') ⟨⟨by omega, by omega⟩, hheap.selecting, hperm⟩ (by omega)).imp ?_
  rintro - m' ⟨hsorted, hperm'⟩
  refine ⟨pairwise_slice.mpr fun x y hx hxy hy => ?_, PermutedOn.slice_perm ?_⟩
  · have hblock := hsorted (x - turn * blockLength) (y - turn * blockLength) (by omega)
      (by omega) (by omega)
    unfold block at hblock
    rwa [Int.sub_add_cancel, Int.sub_add_cancel] at hblock
  · refine (PermutedOn.of_comp (e := Equiv.addRight (turn * blockLength)) hperm').mono ?_
    rintro x ⟨y, ⟨hy₀, hy⟩, rfl⟩
    show y + turn * blockLength ∈ blockCells blockLength turn
    exact ⟨by omega, by omega⟩

end HeapSort

end SmartOffload
