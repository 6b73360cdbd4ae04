import Mathlib.Data.List.Basic
import Mathlib.Tactic.Common

/-!
# The Toeplitz hash

The key is a string of bytes, read as bits with the most significant bit of each byte first.
The hash of an input is the XOR, over the bits `i` set in the input, of the window of the key
that begins at bit `i`.

Two halves of an input change the hash in the same way wherever the key repeats at the
distance between them (`Repeats`).  Then the halves may be exchanged (`toeplitz_append_comm`).
-/

namespace Toeplitz

variable {w n : ℕ} {key : List UInt8} {xs ys : List Bool}

/-- Bit `i` of the key, most significant first. -/
def keyBit (key : List UInt8) (i : ℕ) : Bool := (key.getD (i / 8) 0).toNat.testBit (7 - i % 8)

/-- The window of so many bits that begins at bit `i`, most significant first. -/
def window : (w : ℕ) → List UInt8 → ℕ → BitVec w
  | 0, _, _ => 0
  | w + 1, key, i => BitVec.cons (keyBit key i) (window w key (i + 1))

/-- The hash of an input whose first bit has index `i`. -/
def toeplitz (w : ℕ) (key : List UInt8) : ℕ → List Bool → BitVec w
  | _, [] => 0
  | i, b :: bs => (if b then window w key i else 0) ^^^ toeplitz w key (i + 1) bs

/-- The key repeats after `n` bits, as far as windows of the first `n` bits reach. -/
def Repeats (w n : ℕ) (key : List UInt8) : Prop := ∀ i < n + w, keyBit key (i + n) = keyBit key i

instance (w n : ℕ) (key : List UInt8) : Decidable (Repeats w n key) :=
  inferInstanceAs (Decidable (∀ i < n + w, keyBit key (i + n) = keyBit key i))

/-- A window of bits that repeat. -/
theorem window_congr : ∀ {w i : ℕ}, (∀ j < i + w, keyBit key (j + n) = keyBit key j) →
    window w key (i + n) = window w key i := by
  intro w
  induction w with
  | zero => exact fun _ => rfl
  | succ w ih =>
      intro i h
      have hindex : i + n + 1 = i + 1 + n := by omega
      rw [window, window, h i (by omega), hindex, ih fun j hj => h j (by omega)]

/-- Windows at the distance are the same. -/
theorem Repeats.window (h : Repeats w n key) {i : ℕ} (hi : i < n) :
    window w key (i + n) = window w key i :=
  window_congr fun j hj => h j (by omega)

/-- An input at the distance hashes the same. -/
theorem Repeats.toeplitz (h : Repeats w n key) :
    ∀ {i : ℕ}, i + xs.length ≤ n → toeplitz w key (i + n) xs = toeplitz w key i xs := by
  induction xs with
  | nil => exact fun _ => rfl
  | cons b xs ih =>
      intro i hi
      rw [List.length_cons] at hi
      have hindex : i + n + 1 = i + 1 + n := by omega
      rw [Toeplitz.toeplitz, Toeplitz.toeplitz, h.window (by omega), hindex, ih (by omega)]

/-- The hash of a concatenation. -/
theorem toeplitz_append : ∀ i, toeplitz w key i (xs ++ ys) =
    toeplitz w key i xs ^^^ toeplitz w key (i + xs.length) ys := by
  induction xs with
  | nil => exact fun i => (BitVec.zero_xor).symm
  | cons b xs ih =>
      intro i
      have hindex : i + 1 + xs.length = i + (b :: xs).length := by
        rw [List.length_cons]
        omega
      rw [List.cons_append, toeplitz, toeplitz, ih, hindex, BitVec.xor_assoc]

/-- **The halves of an input may be exchanged**, if the key repeats at their distance. -/
theorem toeplitz_append_comm (h : Repeats w n key) (hx : xs.length = n) (hy : ys.length = n) :
    toeplitz w key 0 (xs ++ ys) = toeplitz w key 0 (ys ++ xs) := by
  have hshift : ∀ zs : List Bool, zs.length = n →
      toeplitz w key (0 + n) zs = toeplitz w key 0 zs := fun zs hz => h.toeplitz (by omega)
  rw [toeplitz_append, toeplitz_append, hx, hy, hshift xs hx, hshift ys hy, BitVec.xor_comm]

end Toeplitz
