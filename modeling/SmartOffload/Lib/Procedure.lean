import Mathlib.Data.List.Basic
import Mathlib.Tactic.Common

/-!
# Procedures of fallible calls

What a procedure leaves behind: how it ended, with a value or by a jump, and what it did,
as a list of events.  They compose as a monad; a jump skips the rest (`Procedure.bind`).
A call is fallible (`attempt`): it is logged with its result, and where it fails the
procedure jumps.

Code that is a sequence of such calls is specified by the calls (`Procedure.Spec`): it
completes exactly when all of them succeed.  There is one rule for each way to put
procedures together.
-/

universe u

/-- How a procedure ended, and its events in order. -/
structure Procedure (J E α : Type u) where
  outcome : Except J α
  events : List E

namespace Procedure

variable {J J' E C α β ι : Type u}

/-- One procedure after the other; a jump skips the second. -/
protected def bind (x : Procedure J E α) (f : α → Procedure J E β) : Procedure J E β :=
  match x.outcome with
  | .ok a => ⟨(f a).outcome, x.events ++ (f a).events⟩
  | .error j => ⟨.error j, x.events⟩

instance : Monad (Procedure J E) where
  pure a := ⟨.ok a, []⟩
  bind := Procedure.bind

/-- Log an event. -/
def emit (e : E) : Procedure J E PUnit := ⟨.ok ⟨⟩, [e]⟩

/-- Leave. -/
def jump (j : J) : Procedure J E α := ⟨.error j, []⟩

/-- The jumps of a procedure, seen from outside. -/
def mapJump (g : J → J') (x : Procedure J E α) : Procedure J' E α :=
  ⟨x.outcome.mapError g, x.events⟩

/-- Call a procedure and go on however it ended. -/
def result (x : Procedure J E α) : Procedure J' E (Except J α) := ⟨.ok x.outcome, x.events⟩

/-- A fallible call.  Where it fails some events follow, and a jump. -/
def attemptUndo (ok : C → Bool) (log : C → Bool → E) (c : C) (undo : List E) (j : J) :
    Procedure J E PUnit :=
  if ok c then ⟨.ok ⟨⟩, [log c true]⟩ else ⟨.error j, log c false :: undo⟩

/-- A fallible call.  Where it fails a jump follows. -/
def attempt (ok : C → Bool) (log : C → Bool → E) (c : C) (j : J) : Procedure J E PUnit :=
  attemptUndo ok log c [] j

/-- It ended with a value. -/
def Completes (x : Procedure J E α) : Prop := ∃ a, x.outcome = .ok a

variable {x : Procedure J E α} {f : α → Procedure J E β}

theorem bind_of_ok {a : α} (h : x.outcome = .ok a) :
    x >>= f = ⟨(f a).outcome, x.events ++ (f a).events⟩ := by
  show x.bind f = _
  rw [Procedure.bind, h]

theorem bind_of_error {j : J} (h : x.outcome = .error j) : x >>= f = ⟨.error j, x.events⟩ := by
  show x.bind f = _
  rw [Procedure.bind, h]

/-- A first part that may jump. -/
theorem outcome_bind_ite {p : Prop} [Decidable p] {a : α} {j : J}
    (h : x.outcome = if p then .error j else .ok a) :
    (x >>= f).outcome = if p then .error j else (f a).outcome := by
  split at h
  next hp => rw [bind_of_error h, if_pos hp]
  next hp => rw [bind_of_ok h, if_neg hp]

theorem completes_or_jumps (x : Procedure J E α) :
    (∃ a, x.outcome = .ok a) ∨ ∃ j, x.outcome = .error j := by
  cases h : x.outcome with
  | ok a => exact Or.inl ⟨a, rfl⟩
  | error j => exact Or.inr ⟨j, rfl⟩

/-- A completed sequence: both parts completed, and logged in turn. -/
theorem exists_of_completes_bind (h : (x >>= f).Completes) : ∃ a, x.outcome = .ok a ∧
    (f a).Completes ∧ (x >>= f).events = x.events ++ (f a).events := by
  rcases completes_or_jumps x with ⟨a, ha⟩ | ⟨j, hj⟩
  · rw [bind_of_ok ha] at h ⊢
    exact ⟨a, ha, h, rfl⟩
  · rw [bind_of_error hj] at h
    obtain ⟨b, hb⟩ := h
    cases hb

/-- A completed call was logged as a success. -/
theorem events_of_completes_attempt {ok : C → Bool} {log : C → Bool → E} {c : C} {j : J}
    (h : (attempt ok log c j).Completes) : (attempt ok log c j).events = [log c true] := by
  obtain ⟨a, ha⟩ := h
  unfold attempt attemptUndo at ha ⊢
  split at ha
  next hok => rw [if_pos hok]
  next hno => cases ha

/-- The log begins with what the first part logged. -/
theorem exists_events_bind (x : Procedure J E α) (f : α → Procedure J E β) :
    ∃ es, (x >>= f).events = x.events ++ es := by
  rcases completes_or_jumps x with ⟨a, ha⟩ | ⟨j, hj⟩
  · exact ⟨_, by rw [bind_of_ok ha]⟩
  · exact ⟨[], by rw [bind_of_error hj, List.append_nil]⟩

/-- What the first part logged stays. -/
theorem events_subset_bind (x : Procedure J E α) (f : α → Procedure J E β) :
    x.events ⊆ (x >>= f).events := by
  obtain ⟨es, hes⟩ := exists_events_bind x f
  rw [hes]
  exact List.subset_append_left _ _

/-- What the second part logs is logged. -/
theorem events_subset_bind_right {a : α} (h : x.outcome = .ok a) :
    (f a).events ⊆ (x >>= f).events := by
  rw [bind_of_ok h]
  exact List.subset_append_right _ _

/-! ### Specifications -/

/-- **What a procedure of calls does**: it completes exactly when all of `cs` succeed, and
has then made them; whatever it logs meets `P`, and every jump out of it meets `Q`. -/
structure Spec (ok : C → Bool) (log : C → Bool → E) (P : E → Prop) (Q : J → Prop)
    (x : Procedure J E α) (cs : List C) : Prop where
  completes_iff : x.Completes ↔ ∀ c ∈ cs, ok c = true
  logged : x.Completes → ∀ c ∈ cs, log c true ∈ x.events
  allEvents : ∀ e ∈ x.events, P e
  jumps : ∀ j, x.outcome = .error j → Q j

namespace Spec

variable {ok : C → Bool} {log : C → Bool → E} {P : E → Prop} {Q : J → Prop} {Q' : J' → Prop}
  {cs ds : List C}

/-- A value, and no call. -/
theorem of_ok {a : α} (h : x.outcome = .ok a) (hP : ∀ e ∈ x.events, P e) :
    Spec ok log P Q x [] where
  completes_iff := iff_of_true ⟨a, h⟩ fun _ hc => by cases hc
  logged _ _ hc := by cases hc
  allEvents := hP
  jumps _ hj := by
    rw [h] at hj
    cases hj

/-- A jump, where some call fails. -/
theorem of_error {j : J} (h : x.outcome = .error j) (hP : ∀ e ∈ x.events, P e) (hj : Q j)
    (hcs : ¬ ∀ c ∈ cs, ok c = true) : Spec ok log P Q x cs := by
  have hno : ¬ x.Completes := fun ⟨a, ha⟩ => by
    rw [h] at ha
    cases ha
  refine ⟨iff_of_false hno hcs, fun hx => absurd hx hno, hP, fun j' hj' => ?_⟩
  rw [h] at hj'
  exact Except.error.inj hj' ▸ hj

theorem pure (a : α) : Spec ok log P Q (Pure.pure a : Procedure J E α) [] :=
  of_ok rfl fun _ he => by cases he

theorem emit {e : E} (he : P e) : Spec ok log P Q (emit e : Procedure J E PUnit) [] :=
  of_ok rfl (List.forall_mem_singleton.mpr he)

/-- A procedure that is gone on from however it ended makes no call that counts. -/
theorem result {x : Procedure J' E α} (hP : ∀ e ∈ x.events, P e) :
    Spec ok log P Q (result x : Procedure J E (Except J' α)) [] := of_ok rfl hP

/-- One after the other. -/
theorem bind (hx : Spec ok log P Q x cs) (hf : ∀ a, Spec ok log P Q (f a) ds) :
    Spec ok log P Q (x >>= f) (cs ++ ds) := by
  rcases completes_or_jumps x with ⟨a, ha⟩ | ⟨j, hj⟩
  · rw [bind_of_ok ha]
    have hcs := hx.completes_iff.mp ⟨a, ha⟩
    constructor
    · rw [List.forall_mem_append, ← (hf a).completes_iff, and_iff_right hcs]
      rfl
    · intro hcompletes c hc
      rcases List.mem_append.mp hc with hc | hc
      · exact List.mem_append_left _ (hx.logged ⟨a, ha⟩ c hc)
      · exact List.mem_append_right _ ((hf a).logged hcompletes c hc)
    · exact List.forall_mem_append.mpr ⟨hx.allEvents, (hf a).allEvents⟩
    · exact (hf a).jumps
  · rw [bind_of_error hj]
    refine of_error rfl hx.allEvents (hx.jumps j hj) fun hall => ?_
    obtain ⟨a, ha⟩ := hx.completes_iff.mpr fun c hc => hall c (List.mem_append_left _ hc)
    rw [hj] at ha
    cases ha

/-- After something that makes no call that counts. -/
theorem after (hx : Spec ok log P Q x []) (hf : ∀ a, Spec ok log P Q (f a) ds) :
    Spec ok log P Q (x >>= f) ds := hx.bind hf

theorem mapJump {g : J → J'} (hg : ∀ j, Q j → Q' (g j)) (hx : Spec ok log P Q x cs) :
    Spec ok log P Q' (mapJump g x) cs := by
  rcases completes_or_jumps x with ⟨a, ha⟩ | ⟨j, hj⟩
  · have hok : (Procedure.mapJump g x).outcome = .ok a := by
      rw [Procedure.mapJump, ha, Except.mapError]
    refine ⟨iff_of_true ⟨a, hok⟩ (hx.completes_iff.mp ⟨a, ha⟩), fun _ => hx.logged ⟨a, ha⟩,
      hx.allEvents, fun j hj => ?_⟩
    rw [hok] at hj
    cases hj
  · refine of_error (by rw [Procedure.mapJump, hj, Except.mapError]) hx.allEvents
      (hg j (hx.jumps j hj)) fun hall => ?_
    obtain ⟨a, ha⟩ := hx.completes_iff.mpr hall
    rw [hj] at ha
    cases ha

theorem attemptUndo {c : C} {undo : List E} {j : J} (hc : P (log c (ok c)))
    (hundo : ∀ e ∈ undo, P e) (hj : Q j) :
    Spec ok log P Q (attemptUndo ok log c undo j) [c] := by
  cases hok : ok c with
  | true =>
      rw [hok] at hc
      have hx : Procedure.attemptUndo ok log c undo j = ⟨.ok ⟨⟩, [log c true]⟩ := if_pos hok
      rw [hx]
      exact ⟨iff_of_true ⟨⟨⟩, rfl⟩ (by rwa [List.forall_mem_singleton]),
        fun _ => List.forall_mem_singleton.mpr List.mem_cons_self,
        List.forall_mem_singleton.mpr hc, fun _ h => by cases h⟩
  | false =>
      rw [hok] at hc
      have hx : Procedure.attemptUndo ok log c undo j = ⟨.error j, log c false :: undo⟩ :=
        if_neg (by simp [hok])
      rw [hx]
      refine of_error rfl (List.forall_mem_cons.mpr ⟨hc, hundo⟩) hj fun hall => ?_
      rw [hall c (List.mem_singleton_self c)] at hok
      cases hok

theorem attempt {c : C} {j : J} (hc : P (log c (ok c))) (hj : Q j) :
    Spec ok log P Q (attempt ok log c j) [c] :=
  attemptUndo hc (fun _ he => by cases he) hj

theorem forM {l : List ι} {g : ι → Procedure J E PUnit} {calls : ι → List C}
    (hg : ∀ i, Spec ok log P Q (g i) (calls i)) :
    Spec ok log P Q (l.forM g) (l.flatMap calls) := by
  induction l with
  | nil => exact pure _
  | cons i l ih => exact bind (hg i) fun _ => ih

end Spec

/-- An event of a sequence is one of its parts'. -/
theorem mem_events_bind {e : E} (h : e ∈ (x >>= f).events) :
    e ∈ x.events ∨ ∃ a, x.outcome = .ok a ∧ e ∈ (f a).events := by
  rcases completes_or_jumps x with ⟨a, ha⟩ | ⟨j, hj⟩
  · rw [bind_of_ok ha] at h
    exact (List.mem_append.mp h).imp id fun he => ⟨a, ha, he⟩
  · rw [bind_of_error hj] at h
    exact Or.inl h

/-- What holds of all that the parts log holds of all that a loop logs. -/
theorem forall_events_forM {P : E → Prop} {l : List ι} {g : ι → Procedure J E PUnit}
    (hg : ∀ i, ∀ e ∈ (g i).events, P e) : ∀ e ∈ (l.forM g).events, P e := by
  induction l with
  | nil => exact fun _ he => absurd he List.not_mem_nil
  | cons i l ih =>
      intro e he
      rcases mem_events_bind he with he | ⟨-, -, he⟩
      · exact hg i e he
      · exact ih e he

/-! ### Completed procedures -/

/-- What the second part logs when it completes. -/
theorem mem_events_of_right {e : E} (hf : ∀ a, (f a).Completes → e ∈ (f a).events)
    (h : (x >>= f).Completes) : e ∈ (x >>= f).events := by
  obtain ⟨a, -, hcompletes, hevents⟩ := exists_of_completes_bind h
  rw [hevents]
  exact List.mem_append_right _ (hf a hcompletes)

/-- Whatever a procedure has logged when it completes meets `P`. -/
def Logs (P : E → Prop) (x : Procedure J E α) : Prop := x.Completes → ∀ e ∈ x.events, P e

namespace Logs

variable {ok : C → Bool} {log : C → Bool → E} {P : E → Prop}

theorem emit {e : E} (he : P e) : Logs P (emit e : Procedure J E PUnit) :=
  fun _ => List.forall_mem_singleton.mpr he

theorem bind (hx : Logs P x) (hf : ∀ a, Logs P (f a)) : Logs P (x >>= f) := by
  intro h
  obtain ⟨a, ha, hcompletes, hevents⟩ := exists_of_completes_bind h
  rw [hevents]
  exact List.forall_mem_append.mpr ⟨hx ⟨a, ha⟩, hf a hcompletes⟩

/-- What would follow a failure is not logged. -/
theorem attemptUndo {c : C} {undo : List E} {j : J} (hc : P (log c true)) :
    Logs P (attemptUndo ok log c undo j) := by
  rintro ⟨a, ha⟩ e he
  unfold Procedure.attemptUndo at ha he
  split at ha
  next hok =>
    rw [if_pos hok] at he
    rw [List.mem_singleton.mp he]
    exact hc
  · cases ha

theorem attempt {c : C} {j : J} (hc : P (log c true)) : Logs P (attempt ok log c j) :=
  attemptUndo hc

theorem forM {l : List ι} {g : ι → Procedure J E PUnit} (hg : ∀ i, Logs P (g i)) :
    Logs P (l.forM g) := by
  induction l with
  | nil => exact fun _ e he => absurd he List.not_mem_nil
  | cons i l ih => exact bind (hg i) fun _ => ih

end Logs

/-! ### The first failure -/

/-- **How a procedure of calls ends**: where the first of `cs` that fails sends it, and with a
value where all of them succeed. -/
structure Reports (ok : C → Bool) (stop : C → J) (x : Procedure J E α) (cs : List C) :
    Prop where
  completes : (∀ c ∈ cs, ok c = true) → x.Completes
  stops : ∀ c, cs.find? (fun c => !ok c) = some c → x.outcome = .error (stop c)

namespace Reports

variable {ok : C → Bool} {log : C → Bool → E} {stop : C → J} {stop' : C → J'} {cs ds : List C}

/-- No call of a list fails, or one is the first. -/
theorem find_cases (ok : C → Bool) (cs : List C) :
    (∀ c ∈ cs, ok c = true) ∧ cs.find? (fun c => !ok c) = none ∨
      ∃ c, cs.find? (fun c => !ok c) = some c := by
  cases h : cs.find? (fun c => !ok c) with
  | none => exact Or.inl ⟨fun c hc => by simpa using List.find?_eq_none.mp h c hc, rfl⟩
  | some c => exact Or.inr ⟨c, rfl⟩

/-- A value, and no call. -/
theorem of_ok {a : α} (h : x.outcome = .ok a) : Reports ok stop x [] :=
  ⟨fun _ => ⟨a, h⟩, fun _ hc => by cases hc⟩

theorem pure (a : α) : Reports ok stop (Pure.pure a : Procedure J E α) [] := of_ok rfl

theorem emit (e : E) : Reports ok stop (emit e : Procedure J E PUnit) [] := of_ok rfl

theorem result (x : Procedure J' E α) :
    Reports ok stop (result x : Procedure J E (Except J' α)) [] := of_ok rfl

/-- One after the other. -/
theorem bind (hx : Reports ok stop x cs) (hf : ∀ a, Reports ok stop (f a) ds) :
    Reports ok stop (x >>= f) (cs ++ ds) := by
  rcases find_cases ok cs with ⟨hall, hnone⟩ | ⟨c, hc⟩
  · obtain ⟨a, ha⟩ := hx.completes hall
    rw [bind_of_ok ha]
    constructor
    · exact fun h => (hf a).completes fun c hc => h c (List.mem_append_right _ hc)
    · intro c hc
      rw [List.find?_append, hnone, Option.none_or] at hc
      exact (hf a).stops c hc
  · have hstop := hx.stops c hc
    rw [bind_of_error hstop]
    constructor
    · intro h
      have hok := h c (List.mem_append_left _ (List.mem_of_find?_eq_some hc))
      rw [List.find?_eq_some_iff_append] at hc
      simp [hok] at hc
    · intro c' hc'
      rw [List.find?_append, hc, Option.some_or] at hc'
      rw [Option.some.inj hc']

/-- After something that makes no call that counts. -/
theorem after (hx : Reports ok stop x []) (hf : ∀ a, Reports ok stop (f a) ds) :
    Reports ok stop (x >>= f) ds := hx.bind hf

/-- Where it completed, no call failed. -/
theorem find?_of_ok (hx : Reports ok stop x cs) {a : α} (h : x.outcome = .ok a) :
    cs.find? (fun c => !ok c) = none := by
  rcases find_cases ok cs with ⟨-, hnone⟩ | ⟨c, hc⟩
  · exact hnone
  · rw [hx.stops c hc] at h
    cases h

/-- Whatever jumps was sent by the first call that failed. -/
theorem find?_of_error (hx : Reports ok stop x cs) {j : J} (h : x.outcome = .error j) :
    ∃ c, cs.find? (fun c => !ok c) = some c ∧ j = stop c := by
  rcases find_cases ok cs with ⟨hall, -⟩ | ⟨c, hc⟩
  · obtain ⟨a, ha⟩ := hx.completes hall
    rw [h] at ha
    cases ha
  · rw [hx.stops c hc] at h
    exact ⟨c, hc, (Except.error.inj h).symm⟩

theorem mapJump {g : J → J'} (hg : ∀ c ∈ cs, g (stop c) = stop' c) (hx : Reports ok stop x cs) :
    Reports ok stop' (mapJump g x) cs where
  completes h := by
    obtain ⟨a, ha⟩ := hx.completes h
    exact ⟨a, by rw [Procedure.mapJump, ha, Except.mapError]⟩
  stops c hc := by
    rw [Procedure.mapJump, hx.stops c hc, Except.mapError, hg c (List.mem_of_find?_eq_some hc)]

theorem attemptUndo {c : C} {undo : List E} {j : J} (hj : j = stop c) :
    Reports ok stop (attemptUndo ok log c undo j) [c] := by
  subst hj
  cases hok : ok c with
  | true =>
      have hx : Procedure.attemptUndo ok log c undo (stop c) = ⟨.ok ⟨⟩, [log c true]⟩ := if_pos hok
      rw [hx]
      refine ⟨fun _ => ⟨_, rfl⟩, fun c' hc' => ?_⟩
      simp [hok] at hc'
  | false =>
      have hx : Procedure.attemptUndo ok log c undo (stop c) =
          ⟨.error (stop c), log c false :: undo⟩ := if_neg (by simp [hok])
      rw [hx]
      refine ⟨fun h => ?_, fun c' hc' => ?_⟩
      · have htrue := h c (List.mem_singleton_self c)
        rw [hok] at htrue
        cases htrue
      · have heq : c = c' := by simpa [hok] using hc'
        rw [heq]

theorem attempt {c : C} {j : J} (hj : j = stop c) : Reports ok stop (attempt ok log c j) [c] :=
  attemptUndo hj

theorem forM {l : List ι} {g : ι → Procedure J E PUnit} {calls : ι → List C}
    (hg : ∀ i, Reports ok stop (g i) (calls i)) : Reports ok stop (l.forM g) (l.flatMap calls) := by
  induction l with
  | nil => exact pure _
  | cons i l ih => exact bind (hg i) fun _ => ih

end Reports

/-! ### The calls that are made -/

/-- **What a procedure may call**: whatever call it logs, as a success or not, is one of
`cs`. -/
def Makes (log : C → Bool → E) (x : Procedure J E α) (cs : List C) : Prop :=
  ∀ c b, log c b ∈ x.events → c ∈ cs

namespace Makes

variable {ok : C → Bool} {log : C → Bool → E} {cs ds : List C}

/-- No event, no call. -/
theorem of_forall_ne (h : ∀ e ∈ x.events, ∀ c b, log c b ≠ e) : Makes log x cs :=
  fun c b hmem => absurd rfl (h _ hmem c b)

theorem pure (a : α) : Makes log (Pure.pure a : Procedure J E α) cs :=
  of_forall_ne fun _ he => by cases he

theorem emit {e : E} (he : ∀ c b, log c b ≠ e) : Makes log (emit e : Procedure J E PUnit) cs :=
  of_forall_ne (List.forall_mem_singleton.mpr he)

theorem jump (j : J) : Makes log (jump j : Procedure J E α) cs :=
  of_forall_ne fun _ he => by cases he

theorem result (hx : Makes log x cs) :
    Makes log (result x : Procedure J' E (Except J α)) cs := hx

theorem mapJump {g : J → J'} (hx : Makes log x cs) : Makes log (mapJump g x) cs := hx

theorem mono (hx : Makes log x cs) (h : cs ⊆ ds) : Makes log x ds :=
  fun c b hmem => h (hx c b hmem)

/-- One after the other. -/
theorem bind (hx : Makes log x cs) (hf : ∀ a, Makes log (f a) ds) :
    Makes log (x >>= f) (cs ++ ds) := by
  intro c b hmem
  rcases mem_events_bind hmem with hmem | ⟨a, -, hmem⟩
  · exact List.mem_append_left _ (hx c b hmem)
  · exact List.mem_append_right _ (hf a c b hmem)

theorem attemptUndo (hlog : ∀ {c c' b b'}, log c b = log c' b' → c = c') {c : C} {undo : List E}
    {j : J} (hundo : ∀ e ∈ undo, ∀ c b, log c b ≠ e) :
    Makes log (attemptUndo ok log c undo j) [c] := by
  intro c' b hmem
  unfold Procedure.attemptUndo at hmem
  split at hmem
  · exact List.mem_singleton.mpr (hlog (List.mem_singleton.mp hmem))
  · rcases List.mem_cons.mp hmem with heq | hmem
    · exact List.mem_singleton.mpr (hlog heq)
    · exact absurd rfl (hundo _ hmem c' b)

theorem attempt (hlog : ∀ {c c' b b'}, log c b = log c' b' → c = c') {c : C} {j : J} :
    Makes log (attempt ok log c j) [c] :=
  attemptUndo hlog fun _ he => by cases he

theorem forM {l : List ι} {g : ι → Procedure J E PUnit} {calls : ι → List C}
    (hg : ∀ i, Makes log (g i) (calls i)) : Makes log (l.forM g) (l.flatMap calls) := by
  induction l with
  | nil => exact pure _
  | cons i l ih => exact bind (hg i) fun _ => ih

end Makes

end Procedure
