import Mathlib.Order.WellFounded
import Mathlib.Tactic.Common

/-!
# Match-action tables

Packet classification by prioritised rules in groups.  Classification of a packet
starts in some group; among the rules of that group that match, one with the least
priority number wins; it either ends classification or sends the packet to another
group; where no rule matches, the packet is missed.

Rules of equal priority may overlap and the tables do not say which one wins then,
so what happens to a packet is a relation (`Handled`), and a property of the table
is a property of everything it relates to the packet.

* `exists_wins` — where a rule matches, some rule wins.
* `handled_iff_of_jump` — a group whose matching rules all jump is passed through.
* `handled_iff_of_final` — a group without jumps decides.
-/

universe u v

/-- A rule: where it stands, what it matches, and the group it sends packets to, if it
does not end classification. -/
structure MatchRule (P : Type u) where
  group : ℕ
  priority : ℕ
  Matches : P → Prop
  jump : Option ℕ

/-- The rules installed, by name. -/
abbrev RuleTable (ι : Type v) (P : Type u) := ι → Option (MatchRule P)

namespace RuleTable

variable {ι : Type v} {P : Type u} {T : RuleTable ι P} {p : P} {g g' : ℕ}

/-- A rule of the group that matches the packet. -/
structure Candidate (T : RuleTable ι P) (g : ℕ) (p : P) (i : ι) (r : MatchRule P) : Prop where
  installed : T i = some r
  group : r.group = g
  matched : r.Matches p

/-- **A rule that may win**: a candidate no candidate precedes. -/
structure Wins (T : RuleTable ι P) (g : ℕ) (p : P) (i : ι) (r : MatchRule P) : Prop extends
    Candidate T g p i r where
  best : ∀ j r', Candidate T g p j r' → r.priority ≤ r'.priority

/-- **What may happen to a packet** from a group on: it is missed, or the rule named
ends its classification. -/
inductive Handled (T : RuleTable ι P) (p : P) : ℕ → Option ι → Prop where
  | miss {g : ℕ} (h : ∀ i r, ¬ Candidate T g p i r) : Handled T p g none
  | final {g : ℕ} {i : ι} {r : MatchRule P} (hwins : Wins T g p i r) (hjump : r.jump = none) :
      Handled T p g (some i)
  | jump {g g' : ℕ} {i : ι} {r : MatchRule P} {o : Option ι} (hwins : Wins T g p i r)
      (hjump : r.jump = some g') (hrest : Handled T p g' o) : Handled T p g o

/-- **Where a rule matches, some rule wins**: priorities are natural numbers. -/
theorem exists_wins {i : ι} {r : MatchRule P} (h : Candidate T g p i r) :
    ∃ i r, Wins T g p i r := by
  obtain ⟨⟨j, r'⟩, hmem, hmin⟩ := WellFounded.has_min
    (measure fun x : ι × MatchRule P => x.2.priority).wf
    {x | Candidate T g p x.1 x.2} ⟨(i, r), h⟩
  exact ⟨j, r', hmem, fun k r'' hk => Nat.le_of_not_lt (hmin (k, r'') hk)⟩

/-- **A group is passed through** if a rule matches and all that match jump to the same
group. -/
theorem handled_iff_of_jump {i : ι} {r : MatchRule P} (h : Candidate T g p i r)
    (hall : ∀ j r', Candidate T g p j r' → r'.jump = some g') (o : Option ι) :
    Handled T p g o ↔ Handled T p g' o := by
  constructor
  · intro ho
    cases ho with
    | miss hno => exact absurd h (hno i r)
    | final hwins hjump =>
        rw [hall _ _ hwins.toCandidate] at hjump
        cases hjump
    | jump hwins hjump hrest =>
        rw [hall _ _ hwins.toCandidate] at hjump
        obtain rfl := Option.some.inj hjump
        exact hrest
  · intro ho
    obtain ⟨j, r', hwins⟩ := exists_wins h
    exact .jump hwins (hall j r' hwins.toCandidate) ho

/-- In a group where nothing matches the packet is missed. -/
theorem handled_iff_of_miss (hno : ∀ i r, ¬ Candidate T g p i r) (o : Option ι) :
    Handled T p g o ↔ o = none := by
  constructor
  · intro ho
    cases ho with
    | miss _ => rfl
    | final hwins _ => exact absurd hwins.toCandidate (hno _ _)
    | jump hwins _ _ => exact absurd hwins.toCandidate (hno _ _)
  · rintro rfl
    exact .miss hno

/-- **A group without jumps decides**: where a rule matches, exactly the rules that may
win are related to the packet. -/
theorem handled_iff_of_final {i : ι} {r : MatchRule P} (h : Candidate T g p i r)
    (hall : ∀ j r', Candidate T g p j r' → r'.jump = none) (o : Option ι) :
    Handled T p g o ↔ ∃ j r', o = some j ∧ Wins T g p j r' := by
  constructor
  · intro ho
    cases ho with
    | miss hno => exact absurd h (hno i r)
    | final hwins _ => exact ⟨_, _, rfl, hwins⟩
    | jump hwins hjump _ =>
        rw [hall _ _ hwins.toCandidate] at hjump
        cases hjump
  · rintro ⟨j, r', rfl, hwins⟩
    exact .final hwins (hall j r' hwins.toCandidate)

end RuleTable
