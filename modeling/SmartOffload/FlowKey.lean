import SmartOffload.Lib.ByteMemory
import SmartOffload.Lib.AddressTranslation

/-!
# Five-tuples and flow keys

The data model shared by the packet workers, the flow engine and the ageing
handler (`rdarm_common.h`, `smto_flow_key.h`, `smto.h`, `smto_comon.h`).

* `RdarmFiveTuple` — the 16-byte hash key, without padding: `toBytes` lists its
  bytes, and they determine it (`toBytes_injective`).
* `SmtoFlowKey` — what the table stores per direction of a flow.
* `KeyPtr` — the address of a flow key.  A flow key is only ever allocated by the
  new-flow branch of `packet_processing`, which allocates two: the one for the
  out-direction flow and the one for the in-direction flow.  An address is
  therefore the number of the call and which of its two allocations it is.
-/

namespace SmartOffload

/-! ### Constants -/

/-- `RTE_IPV4(a,b,c,d)`: an address in host order. -/
def rteIpv4 (a b c d : UInt8) : UInt32 :=
  UInt32.ofNat (a.toNat * 16777216 + b.toNat * 65536 + c.toNat * 256 + d.toNat)

/-- `SRC_IP`, the address outgoing packets are translated to. -/
def srcIp : UInt32 := rteIpv4 5 1 1 1

/-- `MAX_HASH_ENTRIES`. -/
def maxHashEntries : ℕ := 1024 * 1024 * 32

/-- `MAX_RING_ENTRIES`. -/
def maxRingEntries : ℕ := 1024 * 16

/-- `PKT_AMOUNT_TO_OFFLOAD`. -/
def pktAmountToOffload : UInt32 := 5

/-- `GENERAL_QUEUES_QUANTITY`. -/
def generalQueuesQuantity : ℕ := 1

/-- `HAIRPIN_QUEUE_INDEX`. -/
def hairpinQueueIndex : ℕ := generalQueuesQuantity

/-- `FLOW_TIMEOUT_SECOND`. -/
def flowTimeoutSecond : ℕ := 10

/-- `TIMEOUT_FLOW_BATCH_SIZE`. -/
def timeoutFlowBatchSize : ℕ := 8

/-- `IPPROTO_TCP`. -/
def ipprotoTcp : UInt8 := 6

/-- `IPPROTO_UDP`. -/
def ipprotoUdp : UInt8 := 17

/-- `enum smto_error_code`. -/
inductive SmtoErrorCode where
  | success
  | memoryAllocation
  | hugePageMemoryAllocation
  | noEnoughWorker
  | noAvailablePorts
  | deviceConfigure
  | queueSetup
  | hairpinSetup
  | hairpinBind
  | deviceStart
  | flowCreate
  | flowQuery
  | eventRegister
  | hashMapCreation
  | hashMapOperation
  | workerLaunch
  | ringCreation
  | ringOperation
  | unsupportedPacketType
  | unknown
  deriving DecidableEq, Repr

/-- `enum smto_mode`. -/
inductive SmtoMode where
  | singlePortMode
  | doublePortMode
  deriving DecidableEq, Repr

/-! ### The five-tuple -/

/-- `struct rdarm_five_tuple`.  The words are as loaded from network order by a
little-endian host, so `ip1` holds the address byte-swapped. -/
@[ext]
structure RdarmFiveTuple where
  proto : UInt8
  /-- `char prefix[3]`. -/
  prefixBytes : UInt8 × UInt8 × UInt8
  ip1 : UInt32
  ip2 : UInt32
  port1 : UInt16
  port2 : UInt16
  deriving DecidableEq, Repr

namespace RdarmFiveTuple

/-- The tuple laid over sixteen bytes of memory. -/
def ofMemory (m : ByteMemory) : RdarmFiveTuple where
  proto := m 0
  prefixBytes := (m 1, m 2, m 3)
  ip1 := m.load32 4
  ip2 := m.load32 8
  port1 := m.load16 12
  port2 := m.load16 14

/-- The sixteen bytes of the tuple, as `rte_hash` sees them. -/
def toBytes (t : RdarmFiveTuple) : List UInt8 :=
  [t.proto, t.prefixBytes.1, t.prefixBytes.2.1, t.prefixBytes.2.2] ++
    (List.range 4).map (ByteMemory.ofNat 4 t.ip1.toNat) ++
    (List.range 4).map (ByteMemory.ofNat 4 t.ip2.toNat) ++
    (List.range 2).map (ByteMemory.ofNat 2 t.port1.toNat) ++
    (List.range 2).map (ByteMemory.ofNat 2 t.port2.toNat)

/-- The bytes determine the tuple: comparing sixteen bytes, as the table does,
is comparing tuples. -/
theorem toBytes_injective : Function.Injective toBytes := by
  intro t t' h
  simp only [toBytes, List.append_assoc] at h
  obtain ⟨hhead, h⟩ := List.append_inj h rfl
  obtain ⟨hip1, h⟩ := List.append_inj h (by simp)
  obtain ⟨hip2, h⟩ := List.append_inj h (by simp)
  obtain ⟨hport1, hport2⟩ := List.append_inj h (by simp)
  simp only [List.cons.injEq, and_true] at hhead
  -- a word is what reading its bytes gives back
  have word (n : ℕ) {v v' : ℕ} (hv : v < 256 ^ n) (hv' : v' < 256 ^ n)
      (hb : (List.range n).map (ByteMemory.ofNat n v) =
        (List.range n).map (ByteMemory.ofNat n v')) : v = v' := by
    have hbytes : ∀ i < n, ByteMemory.ofNat n v (0 + i) = ByteMemory.ofNat n v' (0 + i) :=
      fun i hi => by rw [Nat.zero_add]; exact List.map_inj_left.mp hb i (List.mem_range.mpr hi)
    have hread := ByteMemory.leNat_congr hbytes
    rwa [ByteMemory.ofNat, ByteMemory.ofNat, ByteMemory.leNat_leStore_self,
      ByteMemory.leNat_leStore_self, Nat.mod_eq_of_lt hv, Nat.mod_eq_of_lt hv'] at hread
  refine RdarmFiveTuple.ext hhead.1 (Prod.ext hhead.2.1 (Prod.ext hhead.2.2.1 hhead.2.2.2))
    ?_ ?_ ?_ ?_
  · exact UInt32.toNat_inj.mp (word 4 t.ip1.toNat_lt t'.ip1.toNat_lt hip1)
  · exact UInt32.toNat_inj.mp (word 4 t.ip2.toNat_lt t'.ip2.toNat_lt hip2)
  · exact UInt16.toNat_inj.mp (word 2 t.port1.toNat_lt t'.port1.toNat_lt hport1)
  · exact UInt16.toNat_inj.mp (word 2 t.port2.toNat_lt t'.port2.toNat_lt hport2)

/-- The addressing a tuple describes. -/
def addressing (t : RdarmFiveTuple) : Addressing (UInt32 × UInt16) :=
  ⟨(t.ip1, t.port1), (t.ip2, t.port2)⟩

/-- The tuple with source and destination exchanged. -/
def swap (t : RdarmFiveTuple) : RdarmFiveTuple :=
  { t with ip1 := t.ip2, ip2 := t.ip1, port1 := t.port2, port2 := t.port1 }

/-- The tuple extraction builds from a protocol and an addressing: the protocol
byte is also left in the first prefix byte. -/
def ofAddressing (proto : UInt8) (a : Addressing (UInt32 × UInt16)) : RdarmFiveTuple where
  proto := proto
  prefixBytes := (proto, 0, 0)
  ip1 := a.src.1
  ip2 := a.dst.1
  port1 := a.src.2
  port2 := a.dst.2

@[simp] theorem addressing_ofAddressing (p : UInt8) (a : Addressing (UInt32 × UInt16)) :
    (ofAddressing p a).addressing = a := rfl

@[simp] theorem swap_ofAddressing (p : UInt8) (a : Addressing (UInt32 × UInt16)) :
    (ofAddressing p a).swap = ofAddressing p a.swap := rfl

/-- For one protocol, such tuples are equal exactly when the addressings are. -/
theorem ofAddressing_inj {p p' : UInt8} {a a' : Addressing (UInt32 × UInt16)} :
    ofAddressing p a = ofAddressing p' a' ↔ p = p' ∧ a = a' := by
  constructor
  · intro h
    exact ⟨congrArg RdarmFiveTuple.proto h, congrArg RdarmFiveTuple.addressing h⟩
  · rintro ⟨rfl, rfl⟩; rfl

end RdarmFiveTuple

/-! ### Flow keys -/

/-- `enum offload_status`. -/
inductive OffloadStatus where
  | notOffload
  | offloading
  | offloadSuccess
  deriving DecidableEq, Repr

/-- Which of the two flow keys of a call: the code's "out-direction flow" and
"in-direction flow". -/
inductive Direction where
  | outDirection
  | inDirection
  deriving DecidableEq, Repr

/-- The address of a flow key: the number of the new-flow call that allocated it,
and which of the two allocations of that call it is. -/
structure KeyPtr where
  serial : ℕ
  dir : Direction
  deriving DecidableEq, Repr

namespace KeyPtr

/-- The out-direction key allocated by call `n`. -/
def out (n : ℕ) : KeyPtr := ⟨n, .outDirection⟩

/-- The in-direction key allocated by call `n`. -/
def back (n : ℕ) : KeyPtr := ⟨n, .inDirection⟩

/-- The other key allocated by the same call. -/
def partner : KeyPtr → KeyPtr
  | ⟨n, .outDirection⟩ => ⟨n, .inDirection⟩
  | ⟨n, .inDirection⟩ => ⟨n, .outDirection⟩

@[simp] theorem partner_partner (k : KeyPtr) : k.partner.partner = k := by
  rcases k with ⟨n, _ | _⟩ <;> rfl

@[simp] theorem partner_serial (k : KeyPtr) : k.partner.serial = k.serial := by
  rcases k with ⟨n, _ | _⟩ <;> rfl

theorem partner_ne (k : KeyPtr) : k.partner ≠ k := by
  rcases k with ⟨n, _ | _⟩ <;> simp [partner]

@[simp] theorem partner_out (n : ℕ) : (out n).partner = back n := rfl

@[simp] theorem partner_back (n : ℕ) : (back n).partner = out n := rfl

@[simp] theorem out_ne_back (m n : ℕ) : out m ≠ back n := by simp [out, back]

/-- Every address is one of the two of its call. -/
theorem eq_out_or_eq_back (k : KeyPtr) : k = out k.serial ∨ k = back k.serial := by
  rcases k with ⟨n, _ | _⟩
  · exact Or.inl rfl
  · exact Or.inr rfl

end KeyPtr

/-- A handle returned by `rte_flow_create`. -/
abbrev FlowHandle := ℕ

/-- `struct smto_flow_key`. -/
structure SmtoFlowKey where
  tuple : RdarmFiveTuple
  modifyTuple : RdarmFiveTuple
  flow : Option FlowHandle
  createAt : UInt64
  flowSize : UInt32
  packetAmount : UInt32
  isOffload : OffloadStatus
  symmetricalFlowKey : Option KeyPtr
  deriving DecidableEq, Repr

/-- The five-tuple of zero bytes. -/
def RdarmFiveTuple.zero : RdarmFiveTuple := ⟨0, (0, 0, 0), 0, 0, 0, 0⟩

/-- What `rte_zmalloc` returns for a flow key. -/
def SmtoFlowKey.zeroed : SmtoFlowKey where
  tuple := .zero
  modifyTuple := .zero
  flow := none
  createAt := 0
  flowSize := 0
  packetAmount := 0
  isOffload := .notOffload
  symmetricalFlowKey := none

end SmartOffload
