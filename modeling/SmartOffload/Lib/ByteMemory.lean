import Mathlib.Data.Nat.Basic
import Mathlib.Logic.Function.Basic
import Mathlib.Tactic.Common
import Mathlib.Tactic.Ring

/-!
# Byte-addressed memory, little-endian words and byte order

Memory is a function from addresses to bytes.  `leNat m a n` is the number a
little-endian machine reads from the `n` bytes at `a`, and `leStore m a n v`
writes the low `n` bytes of `v` there.  The rules are reading back what was
written (`leNat_leStore_self`) and the frame of a write (`leStore_of_lt`,
`leStore_of_le`).  The 16- and 32-bit accesses are instances at `n = 2, 4`.

`bswap16` and `bswap32` are the byte swaps between host and network order.
-/

/-- Byte-addressed memory. -/
abbrev ByteMemory := ℕ → UInt8

namespace ByteMemory

/-- The little-endian value of the `n` bytes at `a`. -/
def leNat (m : ByteMemory) (a : ℕ) : ℕ → ℕ
  | 0 => 0
  | n + 1 => (m a).toNat + 256 * leNat m (a + 1) n

/-- Write the low `n` bytes of `v` at `a`, least significant first. -/
def leStore (m : ByteMemory) (a : ℕ) : ℕ → ℕ → ByteMemory
  | 0, _ => m
  | n + 1, v => leStore (Function.update m a (UInt8.ofNat v)) (a + 1) n (v / 256)

/-- A read depends on the bytes in its range only, wherever they lie. -/
theorem leNat_congr {m m' : ByteMemory} {a b n : ℕ}
    (h : ∀ i < n, m (a + i) = m' (b + i)) : leNat m a n = leNat m' b n := by
  induction n generalizing a b with
  | zero => rfl
  | succ n ih =>
      have hhead : m a = m' b := h 0 (by omega)
      have htail : leNat m (a + 1) n = leNat m' (b + 1) n := by
        refine ih fun i hi => ?_
        have hbyte := h (i + 1) (by omega)
        rwa [Nat.add_comm i 1, ← Nat.add_assoc, ← Nat.add_assoc] at hbyte
      rw [leNat, leNat, hhead, htail]

/-- Frame: bytes below the written range keep their value. -/
theorem leStore_of_lt (m : ByteMemory) {a n v i : ℕ} (h : i < a) :
    leStore m a n v i = m i := by
  induction n generalizing m a v with
  | zero => rfl
  | succ n ih => rw [leStore, ih _ (by omega), Function.update_of_ne (by omega)]

/-- Frame: bytes from the end of the written range on keep their value. -/
theorem leStore_of_le (m : ByteMemory) {a n v i : ℕ} (h : a + n ≤ i) :
    leStore m a n v i = m i := by
  induction n generalizing m a v with
  | zero => rfl
  | succ n ih => rw [leStore, ih _ (by omega), Function.update_of_ne (by omega)]

/-- Reading back what was written, up to the width of the access. -/
theorem leNat_leStore_self (m : ByteMemory) (a n v : ℕ) :
    leNat (leStore m a n v) a n = v % 256 ^ n := by
  induction n generalizing m a v with
  | zero => simp [leNat, Nat.mod_one]
  | succ n ih =>
      -- the bytes after the first are stored above it
      have hhead : leStore m a (n + 1) v a = UInt8.ofNat v := by
        rw [leStore, leStore_of_lt _ (by omega), Function.update_self]
      rw [leNat, hhead, leStore, ih, pow_succ, mul_comm (256 ^ n) 256, Nat.mod_mul]
      simp

/-- A read outside the written range is not disturbed. -/
theorem leNat_leStore_of_disjoint (m : ByteMemory) {a b k n v : ℕ}
    (h : b + k ≤ a ∨ a + n ≤ b) : leNat (leStore m a n v) b k = leNat m b k := by
  refine leNat_congr fun i hi => ?_
  rcases h with h | h
  · exact leStore_of_lt m (by omega)
  · exact leStore_of_le m (by omega)

/-! ### 16- and 32-bit accesses -/

/-- A 16-bit load on a little-endian host. -/
def load16 (m : ByteMemory) (a : ℕ) : UInt16 := UInt16.ofNat (leNat m a 2)

/-- A 32-bit load on a little-endian host. -/
def load32 (m : ByteMemory) (a : ℕ) : UInt32 := UInt32.ofNat (leNat m a 4)

/-- A 16-bit store on a little-endian host. -/
def store16 (m : ByteMemory) (a : ℕ) (v : UInt16) : ByteMemory := leStore m a 2 v.toNat

/-- A 32-bit store on a little-endian host. -/
def store32 (m : ByteMemory) (a : ℕ) (v : UInt32) : ByteMemory := leStore m a 4 v.toNat

@[simp] theorem load16_store16_self (m : ByteMemory) (a : ℕ) (v : UInt16) :
    load16 (store16 m a v) a = v := by
  have hv := v.toNat_lt
  rw [load16, store16, leNat_leStore_self, Nat.mod_eq_of_lt (by simpa using hv), UInt16.ofNat_toNat]

@[simp] theorem load32_store32_self (m : ByteMemory) (a : ℕ) (v : UInt32) :
    load32 (store32 m a v) a = v := by
  have hv := v.toNat_lt
  rw [load32, store32, leNat_leStore_self, Nat.mod_eq_of_lt (by simpa using hv), UInt32.ofNat_toNat]

/-- 16-bit loads of equal bytes agree. -/
theorem load16_congr {m m' : ByteMemory} {a b : ℕ}
    (h : ∀ i < 2, m (a + i) = m' (b + i)) : load16 m a = load16 m' b := by
  rw [load16, load16, leNat_congr h]

/-- 32-bit loads of equal bytes agree. -/
theorem load32_congr {m m' : ByteMemory} {a b : ℕ}
    (h : ∀ i < 4, m (a + i) = m' (b + i)) : load32 m a = load32 m' b := by
  rw [load32, load32, leNat_congr h]

theorem load16_store16_of_disjoint (m : ByteMemory) {a b : ℕ} (v : UInt16)
    (h : b + 2 ≤ a ∨ a + 2 ≤ b) : load16 (store16 m a v) b = load16 m b := by
  rw [load16, store16, leNat_leStore_of_disjoint m h, load16]

theorem load16_store32_of_disjoint (m : ByteMemory) {a b : ℕ} (v : UInt32)
    (h : b + 2 ≤ a ∨ a + 4 ≤ b) : load16 (store32 m a v) b = load16 m b := by
  rw [load16, store32, leNat_leStore_of_disjoint m h, load16]

theorem load32_store16_of_disjoint (m : ByteMemory) {a b : ℕ} (v : UInt16)
    (h : b + 4 ≤ a ∨ a + 2 ≤ b) : load32 (store16 m a v) b = load32 m b := by
  rw [load32, store16, leNat_leStore_of_disjoint m h, load32]

theorem load32_store32_of_disjoint (m : ByteMemory) {a b : ℕ} (v : UInt32)
    (h : b + 4 ≤ a ∨ a + 4 ≤ b) : load32 (store32 m a v) b = load32 m b := by
  rw [load32, store32, leNat_leStore_of_disjoint m h, load32]

theorem store16_of_notMem (m : ByteMemory) {a i : ℕ} (v : UInt16) (h : i < a ∨ a + 2 ≤ i) :
    store16 m a v i = m i :=
  h.elim (fun h => leStore_of_lt m h) (fun h => leStore_of_le m h)

theorem store32_of_notMem (m : ByteMemory) {a i : ℕ} (v : UInt32) (h : i < a ∨ a + 4 ≤ i) :
    store32 m a v i = m i :=
  h.elim (fun h => leStore_of_lt m h) (fun h => leStore_of_le m h)

/-- The bytes of a value as memory: what a store to address `0` leaves there. -/
def ofNat (n v : ℕ) : ByteMemory := leStore (fun _ => 0) 0 n v

end ByteMemory

/-! ### Byte order -/

/-- Swap the two bytes of a 16-bit word. -/
def bswap16 (v : UInt16) : UInt16 :=
  UInt16.ofNat (v.toNat % 256 * 256 + v.toNat / 256)

/-- Reverse the four bytes of a 32-bit word. -/
def bswap32 (v : UInt32) : UInt32 :=
  UInt32.ofNat (v.toNat % 256 * 16777216 + v.toNat / 256 % 256 * 65536 +
    v.toNat / 65536 % 256 * 256 + v.toNat / 16777216)

/-- `bswap16` on the two bytes of a word. -/
theorem bswap16_ofNat {b₀ b₁ : ℕ} (h₀ : b₀ < 256) (h₁ : b₁ < 256) :
    bswap16 (UInt16.ofNat (b₀ + 256 * b₁)) = UInt16.ofNat (b₁ + 256 * b₀) := by
  have hv : (UInt16.ofNat (b₀ + 256 * b₁)).toNat = b₀ + 256 * b₁ := by
    rw [UInt16.toNat_ofNat']; omega
  rw [bswap16, hv]
  congr 1
  omega

@[simp] theorem bswap16_bswap16 (v : UInt16) : bswap16 (bswap16 v) = v := by
  have hlt : v.toNat < 65536 := v.toNat_lt
  have hv : UInt16.ofNat (v.toNat % 256 + 256 * (v.toNat / 256)) = v := by
    rw [Nat.mod_add_div, UInt16.ofNat_toNat]
  rw [← hv, bswap16_ofNat (by omega) (by omega), bswap16_ofNat (by omega) (by omega)]

theorem bswap16_injective : Function.Injective bswap16 :=
  Function.LeftInverse.injective bswap16_bswap16

/-- `bswap32` on the four bytes of a word. -/
theorem bswap32_ofNat {b₀ b₁ b₂ b₃ : ℕ} (h₀ : b₀ < 256) (h₁ : b₁ < 256) (h₂ : b₂ < 256)
    (h₃ : b₃ < 256) :
    bswap32 (UInt32.ofNat (b₀ + 256 * b₁ + 65536 * b₂ + 16777216 * b₃)) =
      UInt32.ofNat (b₃ + 256 * b₂ + 65536 * b₁ + 16777216 * b₀) := by
  have hv : (UInt32.ofNat (b₀ + 256 * b₁ + 65536 * b₂ + 16777216 * b₃)).toNat =
      b₀ + 256 * b₁ + 65536 * b₂ + 16777216 * b₃ := by
    rw [UInt32.toNat_ofNat']; omega
  rw [bswap32, hv]
  congr 1
  omega

@[simp] theorem bswap32_bswap32 (v : UInt32) : bswap32 (bswap32 v) = v := by
  have hlt : v.toNat < 4294967296 := v.toNat_lt
  have hv : UInt32.ofNat (v.toNat % 256 + 256 * (v.toNat / 256 % 256) +
      65536 * (v.toNat / 65536 % 256) + 16777216 * (v.toNat / 16777216)) = v := by
    have hbytes : v.toNat % 256 + 256 * (v.toNat / 256 % 256) +
        65536 * (v.toNat / 65536 % 256) + 16777216 * (v.toNat / 16777216) = v.toNat := by omega
    rw [hbytes, UInt32.ofNat_toNat]
  rw [← hv, bswap32_ofNat (by omega) (by omega) (by omega) (by omega),
    bswap32_ofNat (by omega) (by omega) (by omega) (by omega)]
