import SmartOffload.Lib.BoundedFifo
import SmartOffload.Nic
import Mathlib.Data.List.AList

/-!
# The shared state

`struct smto` together with everything its pointers reach: the flow table, the
two rings, the flow keys in memory and the NIC.  `burst` is the engine's local
`flow_rules` array from its loop index on.

The library calls on the table and the rings are at the end: `rte_hash` is a
finite map from five-tuples to flow-key addresses, `rte_ring` a bounded FIFO
whose usable size is one less than its count.
-/

namespace SmartOffload

/-- The flow table: five-tuples to flow keys. -/
abbrev FlowTable := AList fun _ : RdarmFiveTuple => KeyPtr

/-- The state the threads share. -/
structure World where
  mode : SmtoMode
  /-- `ports[0]`. -/
  port0 : UInt16
  /-- `ports[1]`, meaningful in `DOUBLE_PORT_MODE`. -/
  port1 : UInt16
  flowHashMap : FlowTable
  flowRulesRing : BoundedFifo KeyPtr
  portPool : BoundedFifo ℕ
  /-- The flow keys in memory; addresses not handed out yet hold zeroes. -/
  keys : KeyPtr → SmtoFlowKey
  /-- The addresses `rte_zmalloc` has handed out. -/
  allocated : List KeyPtr
  /-- How many new-flow calls there have been: numbers the next allocation. -/
  serial : ℕ
  nic : Nic
  /-- The dequeued keys the flow engine has not processed yet. -/
  burst : List KeyPtr

namespace World

/-- The ports whose frames are processed. -/
def portsInUse (w : World) : List UInt16 :=
  match w.mode with
  | .singlePortMode => [w.port0]
  | .doublePortMode => [w.port0, w.port1]

/-- Write to one flow key. -/
def modifyKey (w : World) (k : KeyPtr) (f : SmtoFlowKey → SmtoFlowKey) : World :=
  { w with keys := Function.update w.keys k (f (w.keys k)) }

variable (w : World) (k : KeyPtr) (f : SmtoFlowKey → SmtoFlowKey)

@[simp] theorem modifyKey_mode : (w.modifyKey k f).mode = w.mode := rfl

@[simp] theorem modifyKey_port0 : (w.modifyKey k f).port0 = w.port0 := rfl

@[simp] theorem modifyKey_port1 : (w.modifyKey k f).port1 = w.port1 := rfl

@[simp] theorem modifyKey_flowHashMap : (w.modifyKey k f).flowHashMap = w.flowHashMap := rfl

@[simp] theorem modifyKey_flowRulesRing :
    (w.modifyKey k f).flowRulesRing = w.flowRulesRing := rfl

@[simp] theorem modifyKey_portPool : (w.modifyKey k f).portPool = w.portPool := rfl

@[simp] theorem modifyKey_allocated : (w.modifyKey k f).allocated = w.allocated := rfl

@[simp] theorem modifyKey_serial : (w.modifyKey k f).serial = w.serial := rfl

@[simp] theorem modifyKey_nic : (w.modifyKey k f).nic = w.nic := rfl

@[simp] theorem modifyKey_burst : (w.modifyKey k f).burst = w.burst := rfl

@[simp] theorem modifyKey_keys_self : (w.modifyKey k f).keys k = f (w.keys k) :=
  Function.update_self ..

theorem modifyKey_keys_of_ne {k' : KeyPtr} (h : k' ≠ k) :
    (w.modifyKey k f).keys k' = w.keys k' :=
  Function.update_of_ne h ..

/-- A field that a write does not touch is the same at every key. -/
theorem modifyKey_keys_congr {α : Type*} (field : SmtoFlowKey → α)
    (hf : field (f (w.keys k)) = field (w.keys k)) (k' : KeyPtr) :
    field ((w.modifyKey k f).keys k') = field (w.keys k') := by
  by_cases h : k' = k
  · subst h; rw [modifyKey_keys_self, hf]
  · rw [modifyKey_keys_of_ne w k f h]

/-- The keys waiting for the flow engine: in the ring, or dequeued and not yet
processed. -/
def pending : List KeyPtr := w.burst ++ w.flowRulesRing.items

@[simp] theorem modifyKey_pending : (w.modifyKey k f).pending = w.pending := rfl

end World

/-! ### Status writes

The three places that write `is_offload`, shared by the threads. -/

/-- `is_offload = NOT_OFFLOAD`. -/
def markNotOffload (w : World) (flowKey : KeyPtr) : World :=
  w.modifyKey flowKey fun k => { k with isOffload := .notOffload }

/-- `is_offload = OFFLOADING`. -/
def markOffloading (w : World) (flowKey : KeyPtr) : World :=
  w.modifyKey flowKey fun k => { k with isOffload := .offloading }

/-- `flow = …; is_offload = OFFLOAD_SUCCESS`. -/
def markOffloadSuccess (w : World) (flowKey : KeyPtr) (flow : FlowHandle) : World :=
  w.modifyKey flowKey fun k => { k with flow := some flow, isOffload := .offloadSuccess }

section

variable (w : World) (k : KeyPtr) (flow : FlowHandle)

@[simp] theorem markNotOffload_nic : (markNotOffload w k).nic = w.nic := rfl

@[simp] theorem markOffloadSuccess_nic : (markOffloadSuccess w k flow).nic = w.nic := rfl

@[simp] theorem markNotOffload_keys_self :
    (markNotOffload w k).keys k = { w.keys k with isOffload := .notOffload } :=
  w.modifyKey_keys_self ..

@[simp] theorem markOffloading_keys_self :
    (markOffloading w k).keys k = { w.keys k with isOffload := .offloading } :=
  w.modifyKey_keys_self ..

@[simp] theorem markOffloadSuccess_keys_self :
    (markOffloadSuccess w k flow).keys k =
      { w.keys k with flow := some flow, isOffload := .offloadSuccess } :=
  w.modifyKey_keys_self ..

/-- Resetting the status keeps every handle. -/
theorem flow_markNotOffload (k' : KeyPtr) :
    ((markNotOffload w k).keys k').flow = (w.keys k').flow :=
  w.modifyKey_keys_congr k _ SmtoFlowKey.flow rfl k'

variable {k} {k' : KeyPtr} (hne : k' ≠ k)
include hne

theorem markNotOffload_keys_of_ne : (markNotOffload w k).keys k' = w.keys k' :=
  w.modifyKey_keys_of_ne k _ hne

theorem markOffloading_keys_of_ne : (markOffloading w k).keys k' = w.keys k' :=
  w.modifyKey_keys_of_ne k _ hne

theorem markOffloadSuccess_keys_of_ne : (markOffloadSuccess w k flow).keys k' = w.keys k' :=
  w.modifyKey_keys_of_ne k _ hne

end

/-! ### Library calls -/

/-- `-ENOENT`. -/
def enoent : Int := -2

/-- `rte_hash_lookup_data`: the stored address, or a negative error. -/
def rteHashLookupData (h : FlowTable) (key : RdarmFiveTuple) : Except Int KeyPtr :=
  match h.lookup key with
  | some data => .ok data
  | none => .error enoent

/-- The table after `rte_hash_add_key_data`: on success the key is stored,
overwriting an existing entry; on failure nothing is. -/
def rteHashAddKeyData (h : FlowTable) (key : RdarmFiveTuple) (data : KeyPtr) (ok : Bool) :
    FlowTable :=
  if ok then h.insert key data else h

/-- Looking up after an insertion. -/
theorem lookup_rteHashAddKeyData (h : FlowTable) (key t : RdarmFiveTuple) (data : KeyPtr)
    (ok : Bool) :
    (rteHashAddKeyData h key data ok).lookup t =
      if ok = true ∧ t = key then some data else h.lookup t := by
  unfold rteHashAddKeyData
  cases ok with
  | false => simp
  | true =>
      by_cases ht : t = key
      · subst ht
        simp
      · simp [ht]

/-- A ring made by `rte_ring_init` with `count` slots. -/
def rteRingInit (α : Type) (count : ℕ) : BoundedFifo α := .empty (count - 1)

/-- `rte_cpu_to_be_32`, on a little-endian host. -/
def rteCpuToBe32 (v : UInt32) : UInt32 := bswap32 v

/-- `rte_cpu_to_be_16`, on a little-endian host. -/
def rteCpuToBe16 (v : UInt16) : UInt16 := bswap16 v

/-- An endpoint as headers and tuples hold it, from host order. -/
def endpoint (a b c d : UInt8) (port : UInt16) : UInt32 × UInt16 :=
  (rteCpuToBe32 (rteIpv4 a b c d), rteCpuToBe16 port)

end SmartOffload
