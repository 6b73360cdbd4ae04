import SmartOffload.World

/-!
# The pool of NAT ports

`init_smto` fills `port_pool` with the numbers from 1 to `MAX_HASH_ENTRIES - 1`,
one `rte_ring_enqueue` each.  The ring has exactly that many usable slots, so the
loop never fails and the pool starts as `1, 2, 3, …` (`fillPortPool_eq`).
-/

namespace SmartOffload

/-- `for (; i < …; ++i) rte_ring_enqueue(port_pool, i)`, with `n` rounds to go. -/
def enqueueFrom (ring : BoundedFifo ℕ) (i : ℕ) : ℕ → Option (BoundedFifo ℕ)
  | 0 => some ring
  | n + 1 =>
      match ring.enqueue i with
      | none => none
      | some ring => enqueueFrom ring (i + 1) n

/-- The port-pool loop of `init_smto`. -/
def fillPortPool (ring : BoundedFifo ℕ) : Option (BoundedFifo ℕ) :=
  enqueueFrom ring 1 (maxHashEntries - 1)

/-- A filling loop with room for all its rounds appends a range. -/
theorem enqueueFrom_eq (n : ℕ) :
    ∀ (ring : BoundedFifo ℕ) (i : ℕ), ring.items.length + n ≤ ring.capacity →
      ∃ ring', enqueueFrom ring i n = some ring' ∧ ring'.capacity = ring.capacity ∧
        ring'.items = ring.items ++ List.range' i n := by
  induction n with
  | zero => intro ring i _; exact ⟨ring, rfl, rfl, by simp⟩
  | succ n ih =>
      intro ring i hroom
      -- one element in, one round and one free slot less
      obtain ⟨ring₁, henq, hitems, hcap⟩ :=
        BoundedFifo.exists_enqueue (a := i) (show ring.items.length < ring.capacity by omega)
      obtain ⟨ring₂, hrest, hcap₂, hitems₂⟩ := ih ring₁ (i + 1) (by
        rw [hitems, hcap, List.length_append, List.length_singleton]; omega)
      refine ⟨ring₂, ?_, hcap₂.trans hcap, ?_⟩
      · rw [enqueueFrom, henq]; exact hrest
      · rw [hitems₂, hitems, List.range'_succ, List.append_assoc, List.singleton_append]

/-- The pool after initialisation. -/
def initialPortPool : BoundedFifo ℕ where
  capacity := maxHashEntries - 1
  items := List.range' 1 (maxHashEntries - 1)
  length_le := by rw [List.length_range']

/-- **The filling loop succeeds**, and leaves the numbers from 1 on in order. -/
theorem fillPortPool_eq :
    fillPortPool (rteRingInit ℕ maxHashEntries) = some initialPortPool := by
  obtain ⟨ring, hfill, hcap, hitems⟩ :=
    enqueueFrom_eq (maxHashEntries - 1) (rteRingInit ℕ maxHashEntries) 1 (by
      simp [rteRingInit])
  rw [fillPortPool, hfill]
  refine congrArg some (BoundedFifo.ext hcap ?_)
  rw [hitems, rteRingInit, BoundedFifo.empty_items, List.nil_append, initialPortPool]

end SmartOffload
