import Mathlib.Tactic.Common

/-!
# Source address translation, abstractly

What a translator is for, over an arbitrary type `E` of endpoints.  Packets are
addressed from one endpoint to another (`Addressing`); a translator keeps
*legs* (`Leg`): packets addressed `key` leave addressed `out`.

The property that makes a pair of legs one connection is `Leg.Mutual`: the reply
to a translated packet is a packet of the other leg, and that leg translates it
to the reply to the original packet.  It is symmetric (`Leg.Mutual.symm`), so
one proof serves both directions.

A `Binding` is one translated connection: the addressing the inside host chose,
and the public endpoint it was given.  Its two legs are mutual by construction
(`Binding.outLeg_mutual_inLeg`).
-/

universe u

/-- Where a packet comes from and where it goes. -/
@[ext]
structure Addressing (E : Type u) where
  src : E
  dst : E
  deriving DecidableEq

namespace Addressing

variable {E : Type u}

/-- The addressing of a reply. -/
def swap (a : Addressing E) : Addressing E := ⟨a.dst, a.src⟩

@[simp] theorem swap_swap (a : Addressing E) : a.swap.swap = a := rfl

end Addressing

/-- One direction of a translation: packets addressed `key` leave addressed `out`. -/
@[ext]
structure Leg (E : Type u) where
  key : Addressing E
  out : Addressing E

namespace Leg

variable {E : Type u} {a b : Leg E}

/-- **Two legs of one connection.**  Replying to what `a` sends out is a packet
of `b`, and `b` turns it into the reply to what `a` took in. -/
structure Mutual (a b : Leg E) : Prop where
  key_eq : b.key = a.out.swap
  out_eq : b.out = a.key.swap

/-- Being the two legs of one connection is symmetric. -/
theorem Mutual.symm (h : Mutual a b) : Mutual b a where
  key_eq := by rw [h.out_eq, Addressing.swap_swap]
  out_eq := by rw [h.key_eq, Addressing.swap_swap]

end Leg

/-- A translated connection: the addressing chosen by the inside host, and the
public endpoint that stands for that host outside. -/
structure Binding (E : Type u) where
  inside : Addressing E
  publicEnd : E

namespace Binding

variable {E : Type u}

/-- Outgoing packets leave from the public endpoint. -/
def outLeg (b : Binding E) : Leg E := ⟨b.inside, ⟨b.publicEnd, b.inside.dst⟩⟩

/-- Replies to the public endpoint go to the inside host. -/
def inLeg (b : Binding E) : Leg E :=
  ⟨⟨b.inside.dst, b.publicEnd⟩, ⟨b.inside.dst, b.inside.src⟩⟩

theorem outLeg_mutual_inLeg (b : Binding E) : Leg.Mutual b.outLeg b.inLeg := ⟨rfl, rfl⟩

/-- Where the two legs have one key, they rewrite alike. -/
theorem inLeg_out_of_self {b : Binding E} (h : b.inside = b.inLeg.key) :
    b.inLeg.out = ⟨b.publicEnd, b.inside.dst⟩ := by
  have hsrc : b.inside.src = b.inside.dst := congrArg Addressing.src h
  have hdst : b.inside.dst = b.publicEnd := congrArg Addressing.dst h
  exact Addressing.ext hdst hsrc

end Binding
