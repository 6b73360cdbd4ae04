import Mathlib.Data.List.Nodup
import Mathlib.Data.List.Perm.Basic
import Mathlib.Tactic.Common

/-!
# Ledgers

What a program acquires and releases, as a list of entries, over an arbitrary type of
things.  `Ledger.replay` goes through the entries with the list of things held, and
fails where a thing is acquired while it is held, or released while it is not.

`Ledger.Balanced` is the discipline "everything is released exactly once": the replay
gets through, and nothing is held at the end.  It composes (`Balanced.append`), and in
terms of counts it says what it should (`Balanced.count_eq`).
-/

universe u

/-- One entry: a thing is acquired, or released. -/
inductive LedgerEntry (α : Type u) where
  | acquire (a : α)
  | release (a : α)
  deriving DecidableEq, Repr

namespace Ledger

variable {α : Type u} [DecidableEq α] {held held' : List α} {es es' : List (LedgerEntry α)}
  {as : List α} {a : α}

/-- The things held after some entries. -/
def replay (held : List α) : List (LedgerEntry α) → Option (List α)
  | [] => some held
  | .acquire a :: es => if a ∈ held then none else replay (a :: held) es
  | .release a :: es => if a ∈ held then replay (held.erase a) es else none

@[simp] theorem replay_nil (held : List α) : replay held [] = some held := rfl

theorem replay_acquire_cons (h : a ∉ held) :
    replay held (.acquire a :: es) = replay (a :: held) es := if_neg h

theorem replay_release_cons (h : a ∈ held) :
    replay held (.release a :: es) = replay (held.erase a) es := if_pos h

/-- Entries are replayed one part after the other. -/
theorem replay_append (held : List α) (es es' : List (LedgerEntry α)) :
    replay held (es ++ es') = (replay held es).bind fun held => replay held es' := by
  induction es generalizing held with
  | nil => rfl
  | cons e es ih =>
      cases e with
      | acquire a =>
          simp only [List.cons_append, replay]
          split
          · rfl
          · exact ih _
      | release a =>
          simp only [List.cons_append, replay]
          split
          · exact ih _
          · rfl

theorem replay_append_of_eq (h : replay held es = some held') :
    replay held (es ++ es') = replay held' es' := by
  rw [replay_append, h, Option.bind_some]

/-- Acquiring new things. -/
theorem replay_acquires (hnodup : as.Nodup) (hnew : ∀ a ∈ as, a ∉ held) :
    replay held (as.map .acquire) = some (as.reverse ++ held) := by
  induction as generalizing held with
  | nil => rfl
  | cons a as ih =>
      obtain ⟨hne, hnodup⟩ := List.nodup_cons.mp hnodup
      rw [List.map_cons, replay_acquire_cons (hnew a List.mem_cons_self), ih hnodup,
        List.reverse_cons, List.append_assoc, List.singleton_append]
      intro b hb hmem
      rcases List.mem_cons.mp hmem with rfl | hmem
      · exact hne hb
      · exact hnew b (List.mem_cons_of_mem _ hb) hmem

/-- Releasing everything, in any order. -/
theorem replay_releases (hperm : as.Perm held) : replay held (as.map .release) = some [] := by
  induction as generalizing held with
  | nil => rw [List.nil_perm.mp hperm]; rfl
  | cons a as ih =>
      have hmem : a ∈ held := hperm.subset List.mem_cons_self
      rw [List.map_cons, replay_release_cons hmem]
      exact ih ((List.cons_perm_iff_perm_erase.mp hperm).2)

/-- **Everything is released exactly once.** -/
def Balanced (es : List (LedgerEntry α)) : Prop := replay [] es = some []

instance (es : List (LedgerEntry α)) : Decidable (Balanced es) :=
  inferInstanceAs (Decidable (_ = _))

theorem balanced_nil : Balanced ([] : List (LedgerEntry α)) := rfl

theorem Balanced.append (h : Balanced es) (h' : Balanced es') : Balanced (es ++ es') :=
  (replay_append_of_eq h).trans h'

/-- Held before and acquired is held after and released, by count. -/
theorem count_of_replay (hnodup : held.Nodup) (h : replay held es = some held') (a : α) :
    held.count a + es.count (.acquire a) = held'.count a + es.count (.release a) := by
  induction es generalizing held with
  | nil => rw [Option.some.inj h]; rfl
  | cons e es ih =>
      cases e with
      | acquire b =>
          simp only [replay] at h
          split at h
          · cases h
          next hnew =>
            have := ih (List.nodup_cons.mpr ⟨hnew, hnodup⟩) h
            simp only [List.count_cons, beq_iff_eq, reduceCtorEq,
              LedgerEntry.acquire.injEq, if_false] at this ⊢
            omega
      | release b =>
          simp only [replay] at h
          split at h
          next hmem =>
            have := ih (hnodup.erase b) h
            have hcount : (held.erase b).count a + (if b = a then 1 else 0) = held.count a := by
              by_cases hb : b = a
              · subst hb
                rw [List.count_erase_self, if_pos rfl,
                  Nat.sub_add_cancel (List.count_pos_iff.mpr hmem)]
              · rw [List.count_erase_of_ne (Ne.symm hb), if_neg hb, Nat.add_zero]
            simp only [List.count_cons, beq_iff_eq, reduceCtorEq,
              LedgerEntry.release.injEq, if_false] at this ⊢
            omega
          · cases h

/-- In a balanced ledger every thing is released as often as it is acquired. -/
theorem Balanced.count_eq (h : Balanced es) (a : α) :
    es.count (.acquire a) = es.count (.release a) := by
  simpa using count_of_replay List.nodup_nil h a

end Ledger
