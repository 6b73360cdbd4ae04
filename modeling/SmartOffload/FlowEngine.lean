import SmartOffload.World

/-!
# The flow engine

`smto_flow_engine.c`: the two default rules of a port, the per-flow offload rule,
and the loop that turns requests from the ring into rules.

`createFlowLoopBody` is one iteration of the inner loop, on one dequeued key; its
flags say whether each of the two `rte_flow_create` calls succeeds.  It is `none`
where the code dereferences a NULL `symmetrical_flow_key`.  Log messages are left out.
For a key that is not `Offloadable` one of them prints the message of an error that
nothing has filled in, which is taken to go well.
-/

namespace SmartOffload

/-! ### The default rules -/

/-- `create_default_jump_flow`. -/
def createDefaultJumpFlow (nic : Nic) (portId : UInt16) (ok : Bool) :
    Option FlowHandle × Nic :=
  rteFlowCreate nic portId { group := 0, priority := 0, ingress := true }
    [.eth, .ipv4 none none, .void, .endItem] [.jump 1, .endAction] ok

/-- `symmetric_rss_key`. -/
def symmetricRssKey : List UInt8 :=
  (List.replicate 20 [0x6D, 0x5A]).flatten

/-- `ETH_RSS_IP`. -/
def ethRssIp : UInt64 := 0xA38C

/-- `create_default_rss_flow`. -/
def createDefaultRssFlow (nic : Nic) (portId : UInt16) (ok : Bool) :
    Option FlowHandle × Nic :=
  rteFlowCreate nic portId { group := 1, priority := 1, ingress := true }
    [.eth, .ipv4 none none, .void, .endItem]
    [.rss { level := 1, queue := List.range generalQueuesQuantity, types := ethRssIp,
            key := symmetricRssKey },
      .endAction] ok

/-! ### The offload rule of a flow key -/

/-- The pattern of the offload rule as the driver reads it; `none` for a protocol other
than TCP and UDP. -/
def generalOffloadPattern (readSpec : RteFlowItemL4 → RteFlowItemL4) (flowKey : SmtoFlowKey) :
    Option (List RteFlowItem) :=
  let spec : RteFlowItemIpv4 :=
    { srcAddr := flowKey.tuple.ip1, dstAddr := flowKey.tuple.ip2,
      nextProtoId := flowKey.tuple.proto }
  let mask : RteFlowItemIpv4 :=
    { srcAddr := 0xffffffff, dstAddr := 0xffffffff, nextProtoId := 0xff }
  -- `tcp_pattern` and `udp_pattern` are gone when `rte_flow_create` follows the pointer
  let ports : RteFlowItemL4 :=
    readSpec { srcPort := flowKey.tuple.port1, dstPort := flowKey.tuple.port2 }
  if flowKey.tuple.proto = ipprotoTcp then
    some [.eth, .ipv4 (some spec) (some mask), .tcp (some ports) none, .endItem]
  else if flowKey.tuple.proto = ipprotoUdp then
    some [.eth, .ipv4 (some spec) (some mask), .udp (some ports) none, .endItem]
  else none

/-- The actions of the offload rule, with the flow key as age context. -/
def generalOffloadActions (flowPtr : KeyPtr) : List RteFlowAction :=
  [.setIpv4Dst (rteIpv4 5 5 5 5), .count, .age flowPtr flowTimeoutSecond,
    .queue hairpinQueueIndex, .endAction]

/-- `create_general_offload_flow`. -/
def createGeneralOffloadFlow (nic : Nic) (portId : UInt16) (flowPtr : KeyPtr)
    (flowKey : SmtoFlowKey) (ok : Bool) : Option FlowHandle × Nic :=
  match generalOffloadPattern (nic.readSpec nic.next) flowKey with
  | none => (none, nic)
  | some pattern =>
      rteFlowCreate nic portId { group := 1, priority := 0, ingress := true } pattern
        (generalOffloadActions flowPtr) ok

/-- A protocol the offload rule can be built for. -/
def Offloadable (flowKey : SmtoFlowKey) : Prop :=
  flowKey.tuple.proto = ipprotoTcp ∨ flowKey.tuple.proto = ipprotoUdp

instance (flowKey : SmtoFlowKey) : Decidable (Offloadable flowKey) :=
  inferInstanceAs (Decidable (_ ∨ _))

theorem generalOffloadPattern_eq_none_iff {readSpec : RteFlowItemL4 → RteFlowItemL4}
    {flowKey : SmtoFlowKey} :
    generalOffloadPattern readSpec flowKey = none ↔ ¬ Offloadable flowKey := by
  unfold generalOffloadPattern Offloadable
  dsimp only
  split
  · simp_all
  · split <;> simp_all

/-- The rule that `create_general_offload_flow` asks for. -/
def offloadRule (portId : UInt16) (flowPtr : KeyPtr) (pattern : List RteFlowItem) : RteFlow :=
  { portId := portId, attr := { group := 1, priority := 0, ingress := true },
    pattern := pattern, actions := generalOffloadActions flowPtr,
    hits := 0, bytes := 0, aged := false }

@[simp] theorem offloadRule_ageContext (portId : UInt16) (k : KeyPtr)
    (pattern : List RteFlowItem) : (offloadRule portId k pattern).ageContext = some k := rfl

@[simp] theorem offloadRule_portId (portId : UInt16) (k : KeyPtr)
    (pattern : List RteFlowItem) : (offloadRule portId k pattern).portId = portId := rfl

/-- **What a rule creation can do**: nothing, or install the key's rule under the
next handle, and that only for TCP and UDP keys. -/
theorem createGeneralOffloadFlow_cases (nic : Nic) (portId : UInt16) (k : KeyPtr)
    (flowKey : SmtoFlowKey) (ok : Bool) :
    createGeneralOffloadFlow nic portId k flowKey ok = (none, nic) ∧
        ¬ (ok = true ∧ Offloadable flowKey) ∨
      (ok = true ∧ Offloadable flowKey) ∧
        ∃ pattern, createGeneralOffloadFlow nic portId k flowKey ok =
          (some nic.next, nic.install (offloadRule portId k pattern)) := by
  unfold createGeneralOffloadFlow
  cases hp : generalOffloadPattern (nic.readSpec nic.next) flowKey with
  | none =>
      have hno : ¬ Offloadable flowKey := generalOffloadPattern_eq_none_iff.mp hp
      exact Or.inl ⟨rfl, fun h => hno h.2⟩
  | some pattern =>
      have hyes : Offloadable flowKey := by
        by_contra hno
        rw [generalOffloadPattern_eq_none_iff.mpr hno] at hp
        cases hp
      cases ok with
      | false => exact Or.inl ⟨rfl, by simp⟩
      | true => exact Or.inr ⟨⟨rfl, hyes⟩, pattern, rfl⟩

/-! ### The loop -/

/-- `rte_ring_dequeue_burst(flow_rules_ring, flow_rules, 5, &remain)`. -/
def dequeueFlowRules (w : World) : World :=
  let burst := w.flowRulesRing.dequeueBurst 5
  { w with flowRulesRing := burst.2, burst := burst.1 }

/-- The port the rule of the symmetrical flow goes to. -/
def symmetricalPort (w : World) : UInt16 :=
  match w.mode with
  | .singlePortMode => w.port0
  | .doublePortMode => w.port1

/-- The rule of one key and its bookkeeping: the status follows the outcome, and
the handle is stored on success. -/
def offloadKey (w : World) (portId : UInt16) (flowKey : KeyPtr) (ok : Bool) : Bool × World :=
  match createGeneralOffloadFlow w.nic portId flowKey (w.keys flowKey) ok with
  | (none, nic) => (false, markNotOffload { w with nic := nic } flowKey)
  | (some flow, nic) => (true, markOffloadSuccess { w with nic := nic } flowKey flow)

/-- The inner loop of `create_flow_loop` on one dequeued key. -/
def createFlowLoopBody (w : World) (flowKey : KeyPtr) (ok okSymmetrical : Bool) :
    Option World :=
  match offloadKey w w.port0 flowKey ok with
  | (false, w₁) => some w₁
  | (true, w₁) =>
      -- whatever the status of the partner
      match (w₁.keys flowKey).symmetricalFlowKey with
      | none => none
      | some symmetrical =>
          some (offloadKey w₁ (symmetricalPort w₁) symmetrical okSymmetrical).2

/-- **What offloading one key can do.** -/
theorem offloadKey_cases (w : World) (portId : UInt16) (k : KeyPtr) (ok : Bool) :
    offloadKey w portId k ok = (false, markNotOffload w k) ∧
        ¬ (ok = true ∧ Offloadable (w.keys k)) ∨
      (ok = true ∧ Offloadable (w.keys k)) ∧
        ∃ pattern, offloadKey w portId k ok =
          (true, markOffloadSuccess
            { w with nic := w.nic.install (offloadRule portId k pattern) } k w.nic.next) := by
  unfold offloadKey
  rcases createGeneralOffloadFlow_cases w.nic portId k (w.keys k) ok with
    ⟨heq, hno⟩ | ⟨hyes, pattern, heq⟩
  · rw [heq]
    exact Or.inl ⟨rfl, hno⟩
  · rw [heq]
    exact Or.inr ⟨hyes, pattern, rfl⟩

/-- What offloading a key does to the NIC: nothing, or its rule is installed with the
pattern the driver reads for its tuple. -/
theorem nic_offloadKey_cases (w : World) (portId : UInt16) (k : KeyPtr) (ok : Bool) :
    (offloadKey w portId k ok).2.nic = w.nic ∨
      ∃ pattern, generalOffloadPattern (w.nic.readSpec w.nic.next) (w.keys k) = some pattern ∧
        (offloadKey w portId k ok).2.nic = w.nic.install (offloadRule portId k pattern) := by
  unfold offloadKey createGeneralOffloadFlow
  cases hp : generalOffloadPattern (w.nic.readSpec w.nic.next) (w.keys k) with
  | none => exact Or.inl rfl
  | some pattern =>
      cases ok with
      | false => exact Or.inl rfl
      | true => exact Or.inr ⟨pattern, rfl, rfl⟩

/-- The handle of a key is one it had, or the next one. -/
theorem flow_offloadKey {w : World} {portId : UInt16} {k k' : KeyPtr} {ok : Bool}
    {h : FlowHandle} (hflow : ((offloadKey w portId k ok).2.keys k').flow = some h) :
    (w.keys k').flow = some h ∨ h = w.nic.next := by
  rcases offloadKey_cases w portId k ok with ⟨heq, -⟩ | ⟨-, pattern, heq⟩
  · rw [heq, flow_markNotOffload] at hflow
    exact Or.inl hflow
  · rw [heq] at hflow
    by_cases hk : k' = k
    · rw [hk, markOffloadSuccess_keys_self] at hflow
      exact Or.inr (Option.some.inj hflow).symm
    · rw [markOffloadSuccess_keys_of_ne _ _ hk] at hflow
      exact Or.inl hflow

/-- Offloading a key leaves the queue alone. -/
@[simp] theorem offloadKey_pending (w : World) (portId : UInt16) (k : KeyPtr) (ok : Bool) :
    (offloadKey w portId k ok).2.pending = w.pending := by
  rcases offloadKey_cases w portId k ok with ⟨heq, -⟩ | ⟨-, pattern, heq⟩ <;> rw [heq] <;> rfl

/-- A rule created for `k` is owned by `k`. -/
theorem owner_of_owner_offloadKey {w : World} {portId : UInt16} {k k' : KeyPtr} {ok : Bool}
    {h : FlowHandle} (ho : (offloadKey w portId k ok).2.nic.owner h = some k') :
    w.nic.owner h = some k' ∨ k' = k := by
  rcases offloadKey_cases w portId k ok with ⟨heq, -⟩ | ⟨-, pattern, heq⟩
  · rw [heq] at ho
    exact Or.inl ho
  · rw [heq] at ho
    simp only [markOffloadSuccess, World.modifyKey_nic, Nic.owner_install] at ho
    split at ho
    · exact Or.inr (Option.some.inj ho).symm
    · exact Or.inl ho

/-- Offloading a key writes to that key only. -/
theorem keys_offloadKey_of_ne {w : World} {portId : UInt16} {k k' : KeyPtr} {ok : Bool}
    (hne : k' ≠ k) : (offloadKey w portId k ok).2.keys k' = w.keys k' := by
  rcases offloadKey_cases w portId k ok with ⟨heq, -⟩ | ⟨-, pattern, heq⟩
  · rw [heq, markNotOffload_keys_of_ne w hne]
  · rw [heq, markOffloadSuccess_keys_of_ne _ _ hne]

/-- Offloading a key resets its status only if its rule is not created. -/
theorem isOffload_offloadKey_ne {w : World} {portId : UInt16} {k k' : KeyPtr} {ok : Bool}
    (hstatus : (w.keys k').isOffload ≠ .notOffload)
    (hcreated : k' = k → ok = true ∧ Offloadable (w.keys k)) :
    ((offloadKey w portId k ok).2.keys k').isOffload ≠ .notOffload := by
  by_cases hk : k' = k
  · rcases offloadKey_cases w portId k ok with ⟨-, hno⟩ | ⟨-, pattern, heq⟩
    · exact absurd (hcreated hk) hno
    · rw [heq, hk, markOffloadSuccess_keys_self]
      exact OffloadStatus.noConfusion
  · rwa [keys_offloadKey_of_ne hk]

/-- The rules of other keys are not involved. -/
theorem owner_offloadKey_iff_of_ne {w : World} {portId : UInt16} {k k' : KeyPtr} {ok : Bool}
    (hne : k' ≠ k) (h : FlowHandle) :
    (offloadKey w portId k ok).2.nic.owner h = some k' ↔ w.nic.owner h = some k' := by
  rcases offloadKey_cases w portId k ok with ⟨heq, -⟩ | ⟨-, pattern, heq⟩
  · rw [heq]
    rfl
  · rw [heq]
    show (w.nic.install _).owner h = some k' ↔ _
    rw [Nic.owner_install]
    split
    next hnext =>
      subst hnext
      constructor
      · intro ho
        exact absurd (Option.some.inj ho).symm hne
      · intro ho
        exact absurd (Nic.lt_next_of_owner ho) (Nat.lt_irrefl _)
    · rfl

/-- **One iteration on a linked key**: offload the key, and if that succeeds its
partner. -/
theorem createFlowLoopBody_of_link {w : World} {k partner : KeyPtr} {ok okSymmetrical : Bool}
    (hlink : (w.keys k).symmetricalFlowKey = some partner) :
    createFlowLoopBody w k ok okSymmetrical =
      some (if ok = true ∧ Offloadable (w.keys k) then
          (offloadKey (offloadKey w w.port0 k ok).2 (symmetricalPort w) partner
            okSymmetrical).2
        else (offloadKey w w.port0 k ok).2) := by
  unfold createFlowLoopBody
  rcases offloadKey_cases w w.port0 k ok with ⟨heq, hno⟩ | ⟨hyes, pattern, heq⟩
  · rw [if_neg hno, heq]
  · rw [if_pos hyes, heq]
    simp only [markOffloadSuccess, World.modifyKey_keys_self, hlink]
    rfl

/-- **What one iteration of the engine can do**: the rule of the key fails and
nothing else happens, or it is installed and the partner is offloaded in turn. -/
theorem createFlowLoopBody_cases {w w' : World} {k : KeyPtr} {ok okSymmetrical : Bool}
    (h : createFlowLoopBody w k ok okSymmetrical = some w') :
    w' = markNotOffload w k ∧ ¬ (ok = true ∧ Offloadable (w.keys k)) ∨
      (ok = true ∧ Offloadable (w.keys k)) ∧ ∃ pattern symmetrical,
        (w.keys k).symmetricalFlowKey = some symmetrical ∧
        w' = (offloadKey (markOffloadSuccess
            { w with nic := w.nic.install (offloadRule w.port0 k pattern) } k w.nic.next)
          (symmetricalPort w) symmetrical okSymmetrical).2 := by
  unfold createFlowLoopBody at h
  rcases offloadKey_cases w w.port0 k ok with ⟨heq, hno⟩ | ⟨hyes, pattern, heq⟩
  · rw [heq] at h
    exact Or.inl ⟨(Option.some.inj h).symm, hno⟩
  · rw [heq] at h
    simp only [markOffloadSuccess, World.modifyKey_keys_self] at h
    split at h
    · cases h
    next symmetrical hlink =>
      exact Or.inr ⟨hyes, pattern, symmetrical, hlink, (Option.some.inj h).symm⟩

/-- One iteration leaves the rest of the queue alone. -/
theorem createFlowLoopBody_pending {w w' : World} {k : KeyPtr} {ok okSymmetrical : Bool}
    (h : createFlowLoopBody w k ok okSymmetrical = some w') : w'.pending = w.pending := by
  rcases createFlowLoopBody_cases h with ⟨rfl, -⟩ | ⟨-, pattern, symmetrical, -, rfl⟩
  · rfl
  · rw [offloadKey_pending]
    rfl

/-- Rules created in one iteration are owned by the key or by its partner. -/
theorem owner_of_owner_createFlowLoopBody {w w' : World} {k k' : KeyPtr}
    {ok okSymmetrical : Bool} {h : FlowHandle}
    (hbody : createFlowLoopBody w k ok okSymmetrical = some w')
    (ho : w'.nic.owner h = some k') :
    w.nic.owner h = some k' ∨ k' = k ∨ (w.keys k).symmetricalFlowKey = some k' := by
  rcases createFlowLoopBody_cases hbody with ⟨rfl, -⟩ | ⟨-, pattern, symmetrical, hlink, rfl⟩
  · exact Or.inl ho
  · rcases owner_of_owner_offloadKey ho with ho | rfl
    · simp only [markOffloadSuccess, World.modifyKey_nic, Nic.owner_install] at ho
      split at ho
      · exact Or.inr (Or.inl (Option.some.inj ho).symm)
      · exact Or.inl ho
    · exact Or.inr (Or.inr hlink)

@[simp] theorem dequeueFlowRules_pending {w : World} (h : w.burst = []) :
    (dequeueFlowRules w).pending = w.pending := by
  simp only [World.pending, dequeueFlowRules, h, List.nil_append]
  exact w.flowRulesRing.dequeueBurst_append 5

end SmartOffload
