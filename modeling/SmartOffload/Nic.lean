import SmartOffload.FlowKey

/-!
# The NIC's flow rules

The part of DPDK's `rte_flow` interface the program relies on.  The NIC keeps the
installed rules under the handles it gave out; what a call returns is up to the
environment (`ok`), what a successful call does is not:

* `rteFlowCreate` answers `NULL`, or installs the rule under a fresh handle;
* `rteFlowDestroy` removes a rule when it succeeds on the handle of a rule that is
  installed on that port; on any other handle its answer is arbitrary and no
  rule is removed;
* `rteFlowQuery` without the reset flag reads the cumulative counters of an
  installed rule, and arbitrary ones for any other handle.

Freshness of handles is a field of `Nic`, so a handle is never given out twice.  What the
driver finds behind a pointer to an object whose lifetime has ended is a field as well,
`readSpec`: nothing is known about it.
`Nic.owner h` is the flow key that the rule installed under `h` carries as its age
context, the only link from a rule back to the program's data.
-/

namespace SmartOffload

/-- `struct rte_flow_attr`. -/
structure RteFlowAttr where
  group : ℕ
  priority : ℕ
  ingress : Bool
  deriving DecidableEq, Repr

/-- The header fields an IPv4 item matches on. -/
structure RteFlowItemIpv4 where
  srcAddr : UInt32
  dstAddr : UInt32
  nextProtoId : UInt8
  deriving DecidableEq, Repr

/-- The header fields a TCP or UDP item matches on. -/
structure RteFlowItemL4 where
  srcPort : UInt16
  dstPort : UInt16
  deriving DecidableEq, Repr

/-- `struct rte_flow_item`, with the `spec` and `mask` pointers of each item. -/
inductive RteFlowItem where
  | eth
  | ipv4 (spec mask : Option RteFlowItemIpv4)
  | void
  | tcp (spec mask : Option RteFlowItemL4)
  | udp (spec mask : Option RteFlowItemL4)
  | endItem
  deriving DecidableEq, Repr

/-- `struct rte_flow_action_rss`. -/
structure RteFlowActionRss where
  level : ℕ
  queue : List ℕ
  types : UInt64
  key : List UInt8
  deriving DecidableEq, Repr

/-- `struct rte_flow_action`. -/
inductive RteFlowAction where
  | jump (group : ℕ)
  | rss (conf : RteFlowActionRss)
  | setIpv4Dst (ipv4Addr : UInt32)
  | count
  | age (context : KeyPtr) (timeout : ℕ)
  | queue (index : ℕ)
  | endAction
  deriving DecidableEq, Repr

/-- An installed rule, with its counters and whether it has timed out. -/
structure RteFlow where
  portId : UInt16
  attr : RteFlowAttr
  pattern : List RteFlowItem
  actions : List RteFlowAction
  hits : UInt64
  bytes : UInt64
  aged : Bool
  deriving DecidableEq, Repr

/-- The context of a rule's age action, if it has one. -/
def RteFlow.ageContext (r : RteFlow) : Option KeyPtr :=
  r.actions.findSome? fun
    | .age context _ => some context
    | _ => none

/-- The rules installed, by handle. -/
structure Nic where
  flows : FlowHandle → Option RteFlow
  /-- The next handle to give out. -/
  next : FlowHandle
  /-- Handles not given out yet denote no rule. -/
  fresh : ∀ h, next ≤ h → flows h = none
  /-- What the driver reads, when it creates the rule of a handle, through a TCP or UDP
  `spec` that points into a block that has ended. -/
  readSpec : FlowHandle → RteFlowItemL4 → RteFlowItemL4

namespace Nic

/-- A NIC without rules. -/
def empty (readSpec : FlowHandle → RteFlowItemL4 → RteFlowItemL4) : Nic :=
  ⟨fun _ => none, 0, fun _ _ => rfl, readSpec⟩

/-- Install a rule under the next handle. -/
def install (nic : Nic) (r : RteFlow) : Nic where
  flows := Function.update nic.flows nic.next (some r)
  next := nic.next + 1
  fresh h hh := by
    rw [Function.update_of_ne (Nat.lt_of_succ_le hh).ne']
    exact nic.fresh h (Nat.le_of_succ_le hh)
  readSpec := nic.readSpec

/-- Take a rule out. -/
def remove (nic : Nic) (h : FlowHandle) : Nic where
  flows := Function.update nic.flows h none
  next := nic.next
  fresh h' hh := by
    by_cases heq : h' = h
    · rw [heq, Function.update_self]
    · rw [Function.update_of_ne heq]
      exact nic.fresh h' hh
  readSpec := nic.readSpec

/-- Change what the NIC records about an installed rule. -/
def modify (nic : Nic) (h : FlowHandle) (f : RteFlow → RteFlow) : Nic where
  flows := Function.update nic.flows h ((nic.flows h).map f)
  next := nic.next
  fresh h' hh := by
    by_cases heq : h' = h
    · rw [heq, Function.update_self, nic.fresh h (heq ▸ hh)]
      rfl
    · rw [Function.update_of_ne heq]
      exact nic.fresh h' hh
  readSpec := nic.readSpec

/-- The flow key whose rule is installed under `h`: its age context. -/
def owner (nic : Nic) (h : FlowHandle) : Option KeyPtr :=
  (nic.flows h).bind RteFlow.ageContext

/-- The port a rule is installed on. -/
def portOf (nic : Nic) (h : FlowHandle) : Option UInt16 := (nic.flows h).map RteFlow.portId

variable {nic : Nic} {h h' : FlowHandle} {k : KeyPtr} {r : RteFlow}

/-- Only handles that were given out have owners. -/
theorem lt_next_of_owner (ho : nic.owner h = some k) : h < nic.next := by
  by_contra hge
  rw [owner, nic.fresh h (Nat.le_of_not_lt hge)] at ho
  cases ho

theorem flows_install (nic : Nic) (r : RteFlow) (h : FlowHandle) :
    (nic.install r).flows h = if h = nic.next then some r else nic.flows h :=
  Function.update_apply ..

theorem flows_remove (nic : Nic) (h h' : FlowHandle) :
    (nic.remove h').flows h = if h = h' then none else nic.flows h :=
  Function.update_apply ..

theorem flows_modify (nic : Nic) (h h' : FlowHandle) (f : RteFlow → RteFlow) :
    (nic.modify h' f).flows h = if h = h' then (nic.flows h').map f else nic.flows h :=
  Function.update_apply ..

theorem owner_install (nic : Nic) (r : RteFlow) (h : FlowHandle) :
    (nic.install r).owner h = if h = nic.next then r.ageContext else nic.owner h := by
  rw [owner, flows_install]
  split <;> rfl

theorem owner_remove (nic : Nic) (h h' : FlowHandle) :
    (nic.remove h').owner h = if h = h' then none else nic.owner h := by
  rw [owner, flows_remove]
  split <;> rfl

/-- Counting and timing out leave the owner of every rule alone. -/
theorem owner_modify {f : RteFlow → RteFlow} (hf : ∀ r, (f r).actions = r.actions)
    (nic : Nic) (h h' : FlowHandle) : (nic.modify h' f).owner h = nic.owner h := by
  rw [owner, flows_modify]
  split
  next heq =>
    subst heq
    cases hr : nic.flows h with
    | none => simp [owner, hr]
    | some r => simp [owner, hr, RteFlow.ageContext, hf]
  · rfl

/-- Packets forwarded under a rule. -/
def forward (nic : Nic) (h : FlowHandle) (hits bytes : UInt64) : Nic :=
  nic.modify h fun r => { r with hits := r.hits + hits, bytes := r.bytes + bytes }

/-- The age action of a rule times out. -/
def timeOut (nic : Nic) (h : FlowHandle) : Nic :=
  nic.modify h fun r => { r with aged := true }

@[simp] theorem owner_forward (nic : Nic) (h h' : FlowHandle) (hits bytes : UInt64) :
    (nic.forward h' hits bytes).owner h = nic.owner h := by
  apply owner_modify
  intro r
  rfl

@[simp] theorem owner_timeOut (nic : Nic) (h h' : FlowHandle) :
    (nic.timeOut h').owner h = nic.owner h := by
  apply owner_modify
  intro r
  rfl

/-- The rules under the handles given out since. -/
def installedSince (nic nic' : Nic) : List RteFlow :=
  (List.range' nic.next (nic'.next - nic.next)).filterMap nic'.flows

@[simp] theorem installedSince_self (nic : Nic) : installedSince nic nic = [] := by
  simp [installedSince]

@[simp] theorem installedSince_install (nic : Nic) (r : RteFlow) :
    installedSince nic (nic.install r) = [r] := by
  simp [installedSince, install]

@[simp] theorem installedSince_install_install (nic : Nic) (r r' : RteFlow) :
    installedSince nic ((nic.install r).install r') = [r, r'] := by
  have hcount : nic.next + 1 + 1 - nic.next = 2 := by rw [Nat.add_assoc, Nat.add_sub_cancel_left]
  simp [installedSince, install, List.range', hcount]

end Nic

/-! ### The calls -/

/-- `rte_flow_create`. -/
def rteFlowCreate (nic : Nic) (portId : UInt16) (attr : RteFlowAttr)
    (pattern : List RteFlowItem) (actions : List RteFlowAction) (ok : Bool) :
    Option FlowHandle × Nic :=
  if ok then
    (some nic.next, nic.install
      { portId := portId, attr := attr, pattern := pattern, actions := actions,
        hits := 0, bytes := 0, aged := false })
  else (none, nic)

/-- `rte_flow_query` with a count action: hits and bytes. -/
def rteFlowQuery (nic : Nic) (portId : UInt16) (flow : FlowHandle) (ok : Bool)
    (stale : UInt64 × UInt64) : Option (UInt64 × UInt64) :=
  if ok then
    match nic.flows flow with
    | some r => if r.portId = portId then some (r.hits, r.bytes) else some stale
    | none => some stale
  else none

/-- `rte_flow_destroy`. -/
def rteFlowDestroy (nic : Nic) (portId : UInt16) (flow : FlowHandle) (ok : Bool) :
    Bool × Nic :=
  if ok then (true, if nic.portOf flow = some portId then nic.remove flow else nic)
  else (false, nic)

/-- A successful query of a rule installed on the port reads its counters. -/
theorem rteFlowQuery_of_installed {nic : Nic} {portId : UInt16} {flow : FlowHandle}
    {r : RteFlow} (hr : nic.flows flow = some r) (hport : r.portId = portId)
    (stale : UInt64 × UInt64) :
    rteFlowQuery nic portId flow true stale = some (r.hits, r.bytes) := by
  simp [rteFlowQuery, hr, hport]

/-- What a destroy does: nothing, or it removes the rule it names. -/
theorem rteFlowDestroy_cases (nic : Nic) (portId : UInt16) (flow : FlowHandle) (ok : Bool) :
    (rteFlowDestroy nic portId flow ok).2 = nic ∨
      (rteFlowDestroy nic portId flow ok).2 = nic.remove flow := by
  unfold rteFlowDestroy
  split
  · dsimp only
    split
    · exact Or.inr rfl
    · exact Or.inl rfl
  · exact Or.inl rfl

/-- A destroy removes at most the rule it names. -/
theorem owner_rteFlowDestroy_of_ne {nic : Nic} {portId : UInt16} {flow h : FlowHandle}
    (hne : h ≠ flow) (ok : Bool) :
    (rteFlowDestroy nic portId flow ok).2.owner h = nic.owner h := by
  rcases rteFlowDestroy_cases nic portId flow ok with heq | heq
  · rw [heq]
  · rw [heq, Nic.owner_remove, if_neg hne]

theorem portOf_rteFlowDestroy_of_ne {nic : Nic} {portId : UInt16} {flow h : FlowHandle}
    (hne : h ≠ flow) (ok : Bool) :
    (rteFlowDestroy nic portId flow ok).2.portOf h = nic.portOf h := by
  rcases rteFlowDestroy_cases nic portId flow ok with heq | heq
  · rw [heq]
  · rw [heq, Nic.portOf, Nic.portOf, Nic.flows_remove, if_neg hne]

/-- A successful destroy of a rule installed on the port removes it. -/
theorem owner_rteFlowDestroy_self {nic : Nic} {portId : UInt16} {flow : FlowHandle}
    (hport : nic.portOf flow = some portId) :
    (rteFlowDestroy nic portId flow true).2.owner flow = none := by
  simp only [rteFlowDestroy, if_true, hport]
  rw [Nic.owner_remove, if_pos rfl]

/-- A destroy never gives a rule an owner. -/
theorem owner_of_owner_rteFlowDestroy {nic : Nic} {portId : UInt16} {flow h : FlowHandle}
    {ok : Bool} {k : KeyPtr} (ho : (rteFlowDestroy nic portId flow ok).2.owner h = some k) :
    nic.owner h = some k := by
  rcases rteFlowDestroy_cases nic portId flow ok with heq | heq
  · rwa [heq] at ho
  · rw [heq, Nic.owner_remove] at ho
    split at ho
    · cases ho
    · exact ho

end SmartOffload
