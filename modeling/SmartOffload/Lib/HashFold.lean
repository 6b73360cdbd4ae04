import Mathlib.Data.List.GetD
import SmartOffload.Lib.Toeplitz

/-!
# What of an input a Toeplitz hash depends on

The hash is linear: the hash of the XOR of two inputs is the XOR of their hashes
(`toeplitz_xorBits`).  Under a key that repeats, an input therefore hashes like its two halves
laid over each other (`toeplitz_fold`), and by folding again like one period of the key.

Whether a period still loses something is a matter of the windows alone.  `Reads` is the
certificate that it does not: for each bit of the input a mask whose parity on the hash is that
bit.  Under a key that has one, inputs of that length hash alike only if they are the same
(`toeplitz_inj`).
-/

namespace Toeplitz

variable {w n : ℕ} {key : List UInt8} {xs ys : List Bool}

/-! ### Linearity -/

/-- Two strings of bits laid over each other. -/
def xorBits (xs ys : List Bool) : List Bool := List.zipWith xor xs ys

/-- Strings indexed alike are laid over each other index by index. -/
theorem xorBits_map {α : Type*} (is : List α) (f g : α → Bool) :
    xorBits (is.map f) (is.map g) = is.map fun i => xor (f i) (g i) := by
  rw [xorBits, List.zipWith_map, List.zipWith_self]

/-- **The hash is linear.** -/
theorem toeplitz_xorBits : ∀ {xs ys : List Bool}, xs.length = ys.length → ∀ i,
    toeplitz w key i (xorBits xs ys) = toeplitz w key i xs ^^^ toeplitz w key i ys := by
  intro xs
  induction xs with
  | nil =>
      intro ys h i
      obtain rfl := List.eq_nil_of_length_eq_zero h.symm
      exact BitVec.xor_zero.symm
  | cons x xs ih =>
      intro ys h i
      cases ys with
      | nil => cases h
      | cons y ys =>
          have htail := ih (Nat.succ.inj h) (i + 1)
          have hhead : (if xor x y then window w key i else 0) =
              (if x then window w key i else 0) ^^^ (if y then window w key i else 0) := by
            cases x <;> cases y <;> simp
          show (if xor x y then window w key i else 0) ^^^
            toeplitz w key (i + 1) (xorBits xs ys) = _
          rw [hhead, htail, toeplitz, toeplitz]
          ac_rfl

/-- **Folding.**  Under a key that repeats at the distance of its halves, an input hashes like
the halves laid over each other. -/
theorem toeplitz_fold (h : Repeats w n key) (hx : xs.length = n) (hy : ys.length = n) :
    toeplitz w key 0 (xs ++ ys) = toeplitz w key 0 (xorBits xs ys) := by
  have hshift : toeplitz w key (0 + n) ys = toeplitz w key 0 ys := h.toeplitz (by omega)
  rw [toeplitz_append, hx, hshift, toeplitz_xorBits (hx.trans hy.symm)]

/-! ### Reading an input off its hash -/

/-- The parity of the bits two words have in common. -/
def parity (m h : BitVec w) : Bool :=
  (List.range w).foldr (fun i p => xor (m.getLsbD i && h.getLsbD i) p) false

theorem parity_zero (m : BitVec w) : parity m 0 = false := by
  simp [parity]

/-- Parities are linear too. -/
theorem parity_xor (m a b : BitVec w) : parity m (a ^^^ b) = xor (parity m a) (parity m b) := by
  unfold parity
  induction List.range w with
  | nil => rfl
  | cons i is ih =>
      rw [List.foldr_cons, List.foldr_cons, List.foldr_cons, ih, BitVec.getLsbD_xor,
        Bool.and_xor_distrib_left, Bool.xor_assoc, Bool.xor_assoc,
        Bool.xor_left_comm (List.foldr _ _ is)]

/-- Each mask reads one of the first `n` bits: it is odd on that bit's window only. -/
def Reads (w n : ℕ) (key : List UInt8) (mask : ℕ → BitVec w) : Prop :=
  ∀ k < n, ∀ j < n, parity (mask k) (window w key j) = decide (j = k)

instance (w n : ℕ) (key : List UInt8) (mask : ℕ → BitVec w) : Decidable (Reads w n key mask) :=
  inferInstanceAs (Decidable (∀ k < n, ∀ j < n, _ = _))

/-- A mask reads its bit off the hash of an input. -/
theorem Reads.parity_toeplitz {mask : ℕ → BitVec w} (h : Reads w n key mask) {k : ℕ}
    (hk : k < n) : ∀ {xs : List Bool} {i : ℕ}, i + xs.length ≤ n →
    parity (mask k) (toeplitz w key i xs) = (decide (i ≤ k) && xs.getD (k - i) false) := by
  intro xs
  induction xs with
  | nil =>
      intro i _
      rw [toeplitz, parity_zero, List.getD_nil, Bool.and_false]
  | cons b xs ih =>
      intro i hi
      rw [List.length_cons] at hi
      have hhead : parity (mask k) (if b then window w key i else 0) =
          (b && decide (i = k)) := by
        cases b with
        | false => exact parity_zero _
        | true => exact h k hk i (by omega)
      rw [toeplitz, parity_xor, hhead, ih (by omega)]
      -- the bit of the mask is this one, a later one, or behind
      rcases Nat.lt_trichotomy i k with hlt | rfl | hgt
      · have hsub : k - i = k - (i + 1) + 1 := by omega
        simp [Nat.ne_of_lt hlt, Nat.le_of_lt hlt, Nat.succ_le_of_lt hlt, hsub]
      · have hbehind : ¬ i + 1 ≤ i := Nat.not_succ_le_self i
        rw [decide_eq_false hbehind, decide_eq_true rfl, decide_eq_true (Nat.le_refl i)]
        simp
      · simp [Nat.ne_of_gt hgt, Nat.not_le.mpr hgt, Nat.not_le.mpr (Nat.lt_succ_of_lt hgt)]

/-- **Nothing is lost.**  Under a key whose windows can be told apart, inputs hash alike only
if they are the same. -/
theorem toeplitz_inj {mask : ℕ → BitVec w} (h : Reads w n key mask) (hx : xs.length = n)
    (hy : ys.length = n) : toeplitz w key 0 xs = toeplitz w key 0 ys ↔ xs = ys := by
  refine ⟨fun heq => ?_, congrArg _⟩
  have hread : ∀ {zs : List Bool}, zs.length = n → ∀ k < n,
      parity (mask k) (toeplitz w key 0 zs) = zs.getD k false := by
    intro zs hz k hk
    rw [h.parity_toeplitz hk (by omega), Nat.sub_zero, decide_eq_true (Nat.zero_le k),
      Bool.true_and]
  apply List.ext_getElem (hx.trans hy.symm)
  intro k hkx hky
  have hkn : k < n := hx ▸ hkx
  calc xs[k] = xs.getD k false := (List.getD_eq_getElem _ _ hkx).symm
    _ = ys.getD k false := by rw [← hread hx k hkn, heq, hread hy k hkn]
    _ = ys[k] := List.getD_eq_getElem _ _ hky

end Toeplitz
