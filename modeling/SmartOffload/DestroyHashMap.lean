import SmartOffload.System

/-!
# Destroying the flow table

`destroy_hash_map` of `smto_setup.c` walks the table with `rte_hash_iterate`, deletes the
key it is given and frees the flow key.  The hash library is a parameter (`RteHash`): its
tables, its calls, and what is documented about them.  A pointer argument is an `Option`,
`none` being NULL.

The cursor `next` is a NULL pointer for the whole loop, so the first `rte_hash_iterate`
fails, and no key is ever set; deleting the NULL key fails, and the loop goes on for
anything but `-ENOENT`.  `tableDestroyed_iff` says that the table is destroyed exactly
when it is empty, in which case the loop is not entered.
-/

namespace SmartOffload

/-- `-ENOENT`, as the 32 bits of an `int32_t`. -/
def enoent32 : Int32 := -2

/-- `-EINVAL`. -/
def einval32 : Int32 := -22

/-- What `rte_hash_iterate` returns and writes through its pointers. -/
structure IterateResult where
  ret : Int32
  key : Option RdarmFiveTuple
  data : Option KeyPtr
  next : Option UInt32
  deriving DecidableEq, Repr

/-- The calls of the hash library that `destroy_hash_map` makes, and what is documented
about them. -/
structure RteHash (Table : Type) where
  /-- The keys stored, each with its data. -/
  entries : Table → List (RdarmFiveTuple × KeyPtr)
  /-- `rte_hash_count`. -/
  count : Table → Int32
  /-- `rte_hash_iterate(h, &key, &data, next)`, from what `key`, `data` and `*next` hold. -/
  iterate : Table → Option RdarmFiveTuple → Option KeyPtr → Option UInt32 → IterateResult
  /-- `rte_hash_del_key(h, key)`: the key's position, or a negative error. -/
  delKey : Table → Option RdarmFiveTuple → Int32 × Table
  /-- `rte_hash_free_key_with_position(h, position)`. -/
  freeKeyWithPosition : Table → Int32 → Int32 × Table
  /-- The count is positive where there are keys. -/
  count_pos : ∀ t, 0 < count t ↔ entries t ≠ []
  /-- Without a cursor, iteration is an invalid call, and writes nothing. -/
  iterate_null : ∀ t key data, iterate t key data none = ⟨einval32, key, data, none⟩
  /-- A NULL key is not deleted. -/
  delKey_null : ∀ t, (delKey t none).1 < 0 ∧ (delKey t none).2 = t

/-- The local variables of `destroy_hash_map` and what its loop has done. -/
structure DestroyLoop (Table : Type) where
  table : Table
  key : Option RdarmFiveTuple
  data : Option KeyPtr
  next : Option UInt32
  current : UInt32
  /-- The keys deleted, in order. -/
  deleted : List (Option RdarmFiveTuple)
  /-- The arguments of `rte_free`, in order. -/
  freed : List (Option KeyPtr)

namespace DestroyLoop

variable {Table : Type} (H : RteHash Table)

/-- `current = rte_hash_iterate(flow_hash_map, &key, &data, next)`; an `int32_t` is kept in a
`uint32_t`. -/
def iterate (s : DestroyLoop Table) : DestroyLoop Table :=
  let r := H.iterate s.table s.key s.data s.next
  { s with key := r.key, data := r.data, next := r.next, current := r.ret.toUInt32 }

/-- The body of the loop. -/
def body (s : DestroyLoop Table) : DestroyLoop Table :=
  let del := H.delKey s.table s.key
  let s' := { s with table := del.2 }
  if del.1 < 0 then s'
  else
    { s' with
      table := (H.freeKeyWithPosition del.2 del.1).2
      deleted := s.deleted ++ [s.key]
      freed := s.freed ++ [s.data] }

/-- `for (; current != -ENOENT; current = rte_hash_iterate(…))`, for at most so many turns;
`none` where they do not suffice. -/
def run : ℕ → DestroyLoop Table → Option (DestroyLoop Table)
  | 0, _ => none
  | fuel + 1, s =>
      if s.current = enoent32.toUInt32 then some s else run fuel ((s.body H).iterate H)

/-- The locals before the first `rte_hash_iterate`: all three pointers are NULL. -/
def start (t : Table) : DestroyLoop Table := ⟨t, none, none, none, 0, [], []⟩

end DestroyLoop

/-- `destroy_hash_map`, for at most so many turns of its loop: the keys deleted and the
pointers freed.  The table itself is released at the end. -/
def destroyHashMap {Table : Type} (H : RteHash Table) (fuel : ℕ) (flowHashMap : Option Table) :
    Option (List (Option RdarmFiveTuple) × List (Option KeyPtr)) :=
  match flowHashMap with
  | none => some ([], [])
  | some t =>
      if 0 < H.count t then
        match ((DestroyLoop.start t).iterate H).run H fuel with
        | none => none
        | some s => some (s.deleted, s.freed)
      else some ([], [])

/-- **Destroyed**: the call returns, and has deleted every key of the table and freed every
flow key of it, each exactly once. -/
def TableDestroyed {Table : Type} (H : RteHash Table) (t : Table) : Prop :=
  ∃ fuel deleted freed, destroyHashMap H fuel (some t) = some (deleted, freed) ∧
    deleted.Perm ((H.entries t).map fun e => some e.1) ∧
    freed.Perm ((H.entries t).map fun e => some e.2)

/-- The first iteration fails. -/
theorem iterate_start {Table : Type} (H : RteHash Table) (t : Table) :
    (DestroyLoop.start t).iterate H = ⟨t, none, none, none, einval32.toUInt32, [], []⟩ := by
  simp only [DestroyLoop.iterate, DestroyLoop.start, H.iterate_null]

/-- A turn of the loop without a cursor and without a key leaves everything as it is. -/
theorem iterate_body_start {Table : Type} (H : RteHash Table) (t : Table) :
    (((DestroyLoop.start t).iterate H).body H).iterate H = (DestroyLoop.start t).iterate H := by
  obtain ⟨hneg, htable⟩ := H.delKey_null t
  rw [iterate_start]
  simp only [DestroyLoop.body, hneg, if_true, htable, DestroyLoop.iterate, H.iterate_null]

/-- **The loop does not end**, once it is entered. -/
theorem run_start {Table : Type} (H : RteHash Table) (t : Table) (fuel : ℕ) :
    ((DestroyLoop.start t).iterate H).run H fuel = none := by
  induction fuel with
  | zero => rfl
  | succ fuel ih =>
      have hcurrent : ((DestroyLoop.start t).iterate H).current ≠ enoent32.toUInt32 := by
        have hne : einval32.toUInt32 ≠ enoent32.toUInt32 := by decide
        rw [iterate_start]
        exact hne
      rw [DestroyLoop.run, if_neg hcurrent, iterate_body_start, ih]

/-- A table with an entry is not destroyed. -/
theorem not_tableDestroyed_of_ne_nil {Table : Type} {H : RteHash Table} {t : Table}
    (hne : H.entries t ≠ []) : ¬ TableDestroyed H t := by
  rintro ⟨fuel, deleted, freed, hrun, -, -⟩
  simp only [destroyHashMap, if_pos ((H.count_pos t).mpr hne), run_start] at hrun
  cases hrun

/-- **When the table is destroyed**: exactly when there is nothing in it. -/
theorem tableDestroyed_iff {Table : Type} (H : RteHash Table) (t : Table) :
    TableDestroyed H t ↔ H.entries t = [] := by
  constructor
  · intro h
    by_contra hne
    exact not_tableDestroyed_of_ne_nil hne h
  · intro hnil
    have hcount : ¬ 0 < H.count t := fun hpos => (H.count_pos t).mp hpos hnil
    refine ⟨0, [], [], by simp only [destroyHashMap, if_neg hcount], ?_, ?_⟩
    · rw [hnil]
      exact List.Perm.nil
    · rw [hnil]
      exact List.Perm.nil

/-! ### The flow table -/

/-- How many entries a table has; a table never has more than `MAX_HASH_ENTRIES`. -/
def FlowTable.count (t : FlowTable) : Int32 := Int32.ofNat (min t.entries.length maxHashEntries)

theorem FlowTable.count_pos (t : FlowTable) : 0 < t.count ↔ t.entries ≠ [] := by
  have hlt : min t.entries.length maxHashEntries < 2 ^ 31 :=
    (Nat.min_le_right _ _).trans_lt (by decide)
  rw [FlowTable.count, Int32.lt_iff_toInt_lt, Int32.toInt_ofNat_of_lt hlt, ← List.length_pos_iff]
  have hmax : 0 < maxHashEntries := by decide
  rw [Int32.toInt_zero]
  omega

/-- The hash library on flow tables: a cursor counts the entries passed. -/
def flowTableHash : RteHash FlowTable where
  entries t := t.entries.map fun e => (e.1, e.2)
  count := FlowTable.count
  iterate t key data next :=
    match next with
    | none => ⟨einval32, key, data, none⟩
    | some cursor =>
        match t.entries[cursor.toNat]? with
        | none => ⟨enoent32, key, data, some cursor⟩
        | some e => ⟨Int32.ofNat cursor.toNat, some e.1, some e.2, some (cursor + 1)⟩
  delKey t key :=
    match key with
    | none => (einval32, t)
    | some key =>
        if key ∈ t then (Int32.ofNat (t.keys.idxOf key), t.erase key) else (enoent32, t)
  freeKeyWithPosition t _ := (0, t)
  count_pos t := by rw [FlowTable.count_pos, ne_eq, ne_eq, List.map_eq_nil_iff]
  iterate_null _ _ _ := rfl
  delKey_null _ := ⟨(by decide : einval32 < 0), rfl⟩

/-- **`destroy_smto` does not return** once a flow has been opened: the table of a running
system is destroyed only if no flow is in it. -/
theorem not_tableDestroyed_oneFlow :
    offloadMachine.Reachable oneFlowWorld ∧
      ¬ TableDestroyed flowTableHash oneFlowWorld.flowHashMap := by
  refine ⟨reachable_oneFlowWorld, not_tableDestroyed_of_ne_nil fun hnil => ?_⟩
  have hentries : (flowTableHash.entries oneFlowWorld.flowHashMap).length = 2 := by
    decide +kernel
  rw [hnil] at hentries
  cases hentries

end SmartOffload
