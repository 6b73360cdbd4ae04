import Mathlib

/-!
# Decimal numbers in text

`decimal n` is a natural number as text.  A text parser consumes a prefix of its input;
`number` takes all digits there are, so it reads a number back where no digit follows.

`Reads p t a` says that `p` reads `a` off the text `t`, whatever follows, as long as that does
not begin with a digit.  There is one rule for each way to put parsers together, and each asks
for the separator that keeps two numbers apart.
-/

/-- A natural number in decimal. -/
def decimal (n : ℕ) : List Char := Nat.toDigits 10 n

theorem isDigit_of_mem_decimal {n : ℕ} {c : Char} (hc : c ∈ decimal n) : c.isDigit = true :=
  Nat.isDigit_of_mem_toDigits (by decide) (by decide) hc

/-- A number below `10 ^ k` has `k` digits at most. -/
theorem length_decimal_le {n k : ℕ} (hk : 0 < k) (hn : n < 10 ^ k) : (decimal n).length ≤ k :=
  (Nat.length_toDigits_le_iff (by decide) hk).mpr hn

/-- A parser of text: what it read, and what is left. -/
abbrev TextParser := StateT (List Char) Option

namespace TextParser

variable {α β : Type} {p : TextParser α} {f : α → TextParser β} {s t u : List Char} {a : α}
  {b : β} {c : Char} {n : ℕ}

/-- A number: all digits there are, and at least one. -/
def number : TextParser ℕ := fun s =>
  match s.takeWhile Char.isDigit with
  | [] => none
  | d :: ds => some (Nat.ofDigitChars 10 (d :: ds) 0, s.dropWhile Char.isDigit)

/-- One given character. -/
def expect (c : Char) : TextParser Unit
  | [] => none
  | d :: rest => if d = c then some ((), rest) else none

/-- The text does not begin with a digit. -/
def NoDigit : List Char → Prop
  | [] => True
  | c :: _ => c.isDigit = false

instance : DecidablePred NoDigit
  | [] => inferInstanceAs (Decidable True)
  | c :: _ => inferInstanceAs (Decidable (c.isDigit = false))

theorem NoDigit.append (hs : NoDigit s) (ht : NoDigit t) : NoDigit (s ++ t) := by
  cases s with
  | nil => exact ht
  | cons c s => exact hs

theorem NoDigit.take (hs : NoDigit s) (k : ℕ) : NoDigit (s.take k) := by
  cases s with
  | nil => rwa [List.take_nil]
  | cons c s =>
      cases k with
      | zero => trivial
      | succ k => exact hs

/-- **The parser reads the value off the text**, where no digit follows. -/
def Reads (p : TextParser α) (t : List Char) (a : α) : Prop :=
  ∀ rest, NoDigit rest → p (t ++ rest) = some (a, rest)

theorem Reads.pure (a : α) : Reads (pure a) [] a := fun _ _ => rfl

/-- One parser after the other, with a separator between. -/
theorem Reads.bind (hp : Reads p t a) (hsep : NoDigit u) (hf : Reads (f a) u b) :
    Reads (p >>= f) (t ++ u) b := by
  intro rest hrest
  show (p (t ++ u ++ rest)).bind (fun x => f x.1 x.2) = some (b, rest)
  rw [List.append_assoc, hp (u ++ rest) (hsep.append hrest)]
  exact hf rest hrest

/-- A separator. -/
theorem Reads.expect (hp : Reads p t a) : Reads (expect c >>= fun _ => p) (c :: t) a := by
  intro rest hrest
  show ((TextParser.expect c) (c :: (t ++ rest))).bind (fun x => p x.2) = some (a, rest)
  rw [TextParser.expect, if_pos rfl]
  exact hp rest hrest

theorem Reads.number (n : ℕ) : Reads number (decimal n) n := by
  intro rest hrest
  have hdigits : ∀ c ∈ decimal n, c.isDigit = true := fun _ => isDigit_of_mem_decimal
  have hstop : rest.takeWhile Char.isDigit = [] ∧ rest.dropWhile Char.isDigit = rest := by
    cases rest with
    | nil => exact ⟨rfl, rfl⟩
    | cons c rest =>
        have hc : c.isDigit = false := hrest
        simp only [List.takeWhile_cons, List.dropWhile_cons, hc, Bool.false_eq_true, if_false,
          and_self]
  have htake : (decimal n ++ rest).takeWhile Char.isDigit = decimal n := by
    rw [List.takeWhile_append_of_pos hdigits, hstop.1, List.append_nil]
  have hdrop : (decimal n ++ rest).dropWhile Char.isDigit = rest := by
    rw [List.dropWhile_append_of_pos hdigits, hstop.2]
  obtain ⟨d, ds, hcons⟩ := List.exists_cons_of_ne_nil (Nat.toDigits_ne_nil (n := n) (b := 10))
  have hdecimal : decimal n = d :: ds := hcons
  rw [TextParser.number, htake, hdrop, hdecimal]
  show some (Nat.ofDigitChars 10 (d :: ds) 0, rest) = some (n, rest)
  rw [← hcons, Nat.ofDigitChars_ten_toDigits]

end TextParser
