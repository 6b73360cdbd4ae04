import SmartOffload.Lib.AddressTranslation
import SmartOffload.Lib.Machine
import Mathlib.Logic.Function.Basic

/-!
# A source address translator

What a translator does to the packets that go through it, over any protocols `P` and
endpoints `E`.  It remembers, for each protocol, what packets addressed so are turned into
(`Translator.legs`), and has a list of public endpoints to give away.

* a packet it is not for passes as it is;
* a packet of a leg is translated by it;
* any other packet takes the next public endpoint, and connects: both legs of the new
  `Binding` are recorded, or the first one, or none.  Only where both are is the packet
  translated.

`legs_of_runWhile` says what a leg survives, and `Connected` is a conversation: packets
from the inside host leave from its public endpoint, and the replies find back to it.
-/

universe u v

/-- A packet as it came and as it left, and whether the translator is for it. -/
structure Forwarded (P : Type u) (E : Type v) where
  admitted : Bool
  proto : P
  received : Addressing E
  sent : Addressing E

/-- The legs recorded, and the public endpoints left. -/
@[ext]
structure Translator (P : Type u) (E : Type v) where
  /-- What packets of a protocol, addressed so, are turned into. -/
  legs : P → Addressing E → Option (Addressing E)
  pool : List E

/-- How much of a new connection is recorded. -/
inductive Recorded where
  | both
  | outOnly
  | neither
  deriving DecidableEq

/-- A packet arrives. -/
inductive TranslatorEvent (P : Type u) (E : Type v) where
  | pass (p : P) (a : Addressing E)
  | translate (p : P) (a : Addressing E)
  | connect (p : P) (a : Addressing E) (recorded : Recorded)

namespace Translator

variable {P : Type u} {E : Type v} [DecidableEq P] [DecidableEq E] {t t' : Translator P E}
  {p p' : P} {a a' : Addressing E} {l : Leg E} {spent : E}

/-- Record a leg. -/
def record (t : Translator P E) (p : P) (l : Leg E) : Translator P E :=
  { t with legs := Function.update t.legs p (Function.update (t.legs p) l.key (some l.out)) }

theorem legs_record :
    (t.record p l).legs p' a = if p' = p ∧ a = l.key then some l.out else t.legs p' a := by
  unfold record
  by_cases hp : p' = p
  · subst hp
    simp only [Function.update_self, Function.update_apply, true_and]
  · simp [hp, Function.update_of_ne]

@[simp] theorem pool_record : (t.record p l).pool = t.pool := rfl

/-- The connection a packet would get; an empty pool gives `spent`. -/
def nextBinding (t : Translator P E) (spent : E) (a : Addressing E) : Binding E :=
  ⟨a, t.pool.headD spent⟩

/-- The translator after a packet has taken an endpoint. -/
def connected (t : Translator P E) (p : P) (b : Binding E) : Recorded → Translator P E
  | .both => ({ t with pool := t.pool.tail }.record p b.outLeg).record p b.inLeg
  | .outOnly => { t with pool := t.pool.tail }.record p b.outLeg
  | .neither => { t with pool := t.pool.tail }

@[simp] theorem pool_connected (b : Binding E) (recorded : Recorded) :
    (t.connected p b recorded).pool = t.pool.tail := by cases recorded <;> rfl

/-- The packet that connects, as it leaves. -/
def connectedSent (b : Binding E) : Recorded → Addressing E
  | .both => b.outLeg.out
  | _ => b.inside

/-- One packet. -/
def step (spent : E) (t : Translator P E) :
    TranslatorEvent P E → Option (Translator P E × List (Forwarded P E))
  | .pass p a => some (t, [⟨false, p, a, a⟩])
  | .translate p a =>
      match t.legs p a with
      | none => none
      | some out => some (t, [⟨true, p, a, out⟩])
  | .connect p a recorded =>
      match t.legs p a with
      | some _ => none
      | none =>
          let b := t.nextBinding spent a
          some (t.connected p b recorded, [⟨true, p, a, connectedSent b recorded⟩])

/-- **The translator**, from a list of public endpoints and one for when they are spent. -/
def machine (pool : List E) (spent : E) :
    Machine (Translator P E) (TranslatorEvent P E) (Forwarded P E) where
  Init t := t = ⟨fun _ _ => none, pool⟩
  step := step spent

/-! ### What a leg survives -/

/-- An event that records no leg for one of these packets. -/
def Spares (spent : E) (p : P) (keys : List (Addressing E)) (t : Translator P E) :
    TranslatorEvent P E → Prop
  | .connect p' a .both => p' = p → (t.nextBinding spent a).inLeg.key ∉ keys
  | _ => True

/-- **A leg stays as it is**, under every packet that spares it. -/
theorem legs_of_step {keys : List (Addressing E)} {e : TranslatorEvent P E}
    {os : List (Forwarded P E)} {out : Addressing E} (hleg : t.legs p a = some out)
    (ha : a ∈ keys) (hspare : Spares spent p keys t e) (h : step spent t e = some (t', os)) :
    t'.legs p a = some out := by
  cases e with
  | pass _ _ =>
      obtain ⟨rfl, -⟩ := Prod.mk.inj (Option.some.inj h)
      exact hleg
  | translate _ _ =>
      simp only [step] at h
      split at h
      · cases h
      · obtain ⟨rfl, -⟩ := Prod.mk.inj (Option.some.inj h)
        exact hleg
  | connect p' a' recorded =>
      simp only [step] at h
      split at h
      · cases h
      next hnone =>
        obtain ⟨rfl, -⟩ := Prod.mk.inj (Option.some.inj h)
        -- the packet itself has no leg, so it is not the one with the leg
        have hout : ¬ (p = p' ∧ a = (t.nextBinding spent a').outLeg.key) := by
          rintro ⟨rfl, heq⟩
          rw [heq, show (t.nextBinding spent a').outLeg.key = a' from rfl, hnone] at hleg
          cases hleg
        cases recorded with
        | neither => exact hleg
        | outOnly => rw [connected, legs_record, if_neg hout]; exact hleg
        | both =>
            have hin : ¬ (p = p' ∧ a = (t.nextBinding spent a').inLeg.key) := by
              rintro ⟨rfl, heq⟩
              exact hspare rfl (heq ▸ ha)
            rw [connected, legs_record, if_neg hin, legs_record, if_neg hout]
            exact hleg

/-- **A leg survives every run that spares it.** -/
theorem legs_of_runWhile {keys : List (Addressing E)} {pool : List E}
    {es : List (TranslatorEvent P E)} {tr : List (Forwarded P E)} {out : Addressing E}
    (h : (machine pool spent).RunWhile (Spares spent p keys) t es tr t')
    (hleg : t.legs p a = some out) (ha : a ∈ keys) : t'.legs p a = some out :=
  h.state_invariant (P := fun t => t.legs p a = some out) hleg
    fun hleg hspare hstep => legs_of_step hleg ha hspare hstep

/-! ### Conversations -/

/-- **A conversation**: both legs of a binding are recorded. -/
structure Connected (t : Translator P E) (p : P) (b : Binding E) : Prop where
  out : t.legs p b.outLeg.key = some b.outLeg.out
  back : t.legs p b.inLeg.key = some b.inLeg.out

/-- A packet that connects starts one, also where the two legs have one key. -/
theorem connected_both (b : Binding E) : (t.connected p b .both).Connected p b where
  out := by
    rw [connected, legs_record]
    split
    next hself =>
      rw [Binding.inLeg_out_of_self hself.2]
      rfl
    · rw [legs_record, if_pos ⟨rfl, rfl⟩]
  back := by rw [connected, legs_record, if_pos ⟨rfl, rfl⟩]

/-- **A conversation goes on** over every run that spares its two legs. -/
theorem Connected.of_runWhile {b : Binding E} {pool : List E}
    {es : List (TranslatorEvent P E)} {tr : List (Forwarded P E)} (h : t.Connected p b)
    (hrun : (machine pool spent).RunWhile
      (Spares spent p [b.outLeg.key, b.inLeg.key]) t es tr t') : t'.Connected p b where
  out := legs_of_runWhile hrun h.out (by simp)
  back := legs_of_runWhile hrun h.back (by simp)

end Translator
