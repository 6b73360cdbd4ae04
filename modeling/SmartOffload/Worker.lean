import SmartOffload.Packet
import SmartOffload.World

/-!
# The packet worker

`packet_processing` of `smto_worker.c`, one call on one frame.  What the call
cannot decide itself is in `PacketEnv`: whether each `rte_zmalloc` returns memory,
whether each `rte_hash_add_key_data` succeeds, and the time stamp counter.

The result is `none` when the call dereferences a NULL pointer (neither allocation
is checked).  Otherwise it is the return code, the frame as left behind, the new
shared state, and the calls of `rte_hash_add_key_data` in order, each with the
table it was made on.

Logging, and `dump_pkt_info` which only feeds it, are left out.
-/

namespace SmartOffload

/-- What the environment decides in one call of `packet_processing`. -/
structure PacketEnv where
  /-- The first `rte_zmalloc` returns memory. -/
  allocOut : Bool
  /-- The second `rte_zmalloc` returns memory. -/
  allocBack : Bool
  /-- The first `rte_hash_add_key_data` returns 0. -/
  addOut : Bool
  /-- The second `rte_hash_add_key_data` returns 0. -/
  addBack : Bool
  /-- `rte_rdtsc()`. -/
  tsc : UInt64
  deriving DecidableEq, Repr

/-- No call fails. -/
def PacketEnv.allSucceed : PacketEnv := ⟨true, true, true, true, 0⟩

/-- A call of `rte_hash_add_key_data`: the table it is made on, and the key. -/
structure HashAdd where
  table : FlowTable
  key : RdarmFiveTuple

/-- What a call of `packet_processing` leaves behind. -/
structure PacketResult where
  ret : SmtoErrorCode
  mbuf : RteMbuf
  world : World
  adds : List HashAdd

/-- `rte_ring_dequeue(port_pool, &port_object)`, its result ignored: on an empty
ring `port_object` keeps its initial 0. -/
def dequeuePortObject (portPool : BoundedFifo ℕ) : ℕ × BoundedFifo ℕ :=
  match portPool.dequeue with
  | some (portObject, rest) => (portObject, rest)
  | none => (0, portPool)

theorem dequeuePortObject_items (portPool : BoundedFifo ℕ) :
    (dequeuePortObject portPool).2.items = portPool.items.tail := by
  unfold dequeuePortObject
  split
  next h => rw [BoundedFifo.items_of_dequeue h, List.tail_cons]
  next h => rw [BoundedFifo.dequeue_eq_none_iff.mp h, List.tail_nil]

/-- The port object is the head of the pool. -/
theorem dequeuePortObject_of_head {portPool : BoundedFifo ℕ} {n : ℕ}
    (h : portPool.items.head? = some n) : (dequeuePortObject portPool).1 = n := by
  unfold dequeuePortObject
  split
  next hd =>
    rw [BoundedFifo.items_of_dequeue hd, List.head?_cons] at h
    exact Option.some.inj h
  next hd =>
    rw [BoundedFifo.dequeue_eq_none_iff.mp hd] at h
    cases h

/-- An empty pool gives the port object 0. -/
theorem dequeuePortObject_of_nil {portPool : BoundedFifo ℕ} (h : portPool.items = []) :
    (dequeuePortObject portPool).1 = 0 := by
  rw [dequeuePortObject, BoundedFifo.dequeue_eq_none_iff.mpr h]

/-- The out-direction flow key as it is when it enters the table. -/
def newFlowKey (tuple : RdarmFiveTuple) (pktLen : UInt32) (portObject : ℕ) (tsc : UInt64) :
    SmtoFlowKey :=
  { SmtoFlowKey.zeroed with
    tuple := tuple
    createAt := tsc
    packetAmount := 1
    flowSize := pktLen
    modifyTuple :=
      { tuple with
        ip1 := rteCpuToBe32 srcIp
        port1 := rteCpuToBe16 (UInt16.ofNat portObject) } }

/-- The in-direction flow key built from the out-direction one. -/
def newSymmetricalFlowKey (flowPtr : KeyPtr) (flowKey : SmtoFlowKey) : SmtoFlowKey :=
  let tuple : RdarmFiveTuple :=
    { flowKey.tuple with
      ip1 := flowKey.tuple.ip2
      port1 := flowKey.tuple.port2
      ip2 := flowKey.modifyTuple.ip1
      port2 := flowKey.modifyTuple.port1 }
  { SmtoFlowKey.zeroed with
    tuple := tuple
    symmetricalFlowKey := some flowPtr
    modifyTuple :=
      { tuple with
        ip2 := flowKey.tuple.ip1
        port2 := flowKey.tuple.port1 } }

/-- The out-direction key a call is about to enter: it takes the head of the pool. -/
def nextFlowKey (w : World) (m : RteMbuf) (tuple : RdarmFiveTuple) (env : PacketEnv) :
    SmtoFlowKey :=
  newFlowKey tuple m.pktLen (dequeuePortObject w.portPool).1 env.tsc

/-- Everything up to the first insertion and its effect on the table: two
allocations, a port from the pool, the out-direction key. -/
def addFlow (w : World) (flowKey : SmtoFlowKey) (env : PacketEnv) : World :=
  { w with
    serial := w.serial + 1
    allocated := (if env.allocBack then [.back w.serial] else []) ++ .out w.serial :: w.allocated
    portPool := (dequeuePortObject w.portPool).2
    flowHashMap := rteHashAddKeyData w.flowHashMap flowKey.tuple (.out w.serial) env.addOut
    keys := Function.update w.keys (.out w.serial) flowKey }

/-- The in-direction key and the second insertion.  The partner is linked before
the result of the insertion is looked at. -/
def addSymmetricalFlow (w : World) (n : ℕ) (flowKey : SmtoFlowKey) (ok : Bool) : World :=
  let symmetricalFlowKey := newSymmetricalFlowKey (.out n) flowKey
  { w with
    flowHashMap := rteHashAddKeyData w.flowHashMap symmetricalFlowKey.tuple (.back n) ok
    keys := Function.update (Function.update w.keys (.back n) symmetricalFlowKey) (.out n)
      { flowKey with symmetricalFlowKey := some (.back n) } }

/-- The branch of `packet_processing` for a flow that has not appeared. -/
def createFlow (w : World) (pktMbuf : RteMbuf) (tuple : RdarmFiveTuple) (env : PacketEnv) :
    Option PacketResult :=
  if env.allocOut then
    let flowKey := nextFlowKey w pktMbuf tuple env
    let w₁ := addFlow w flowKey env
    let add : HashAdd := ⟨w.flowHashMap, flowKey.tuple⟩
    if env.addOut then
      if env.allocBack then
        let w₂ := addSymmetricalFlow w₁ w.serial flowKey env.addBack
        let add' : HashAdd :=
          ⟨w₁.flowHashMap, (newSymmetricalFlowKey (.out w.serial) flowKey).tuple⟩
        if env.addBack then
          some ⟨.success, modifyPacket pktMbuf flowKey.modifyTuple, w₂, [add, add']⟩
        else some ⟨.hashMapOperation, pktMbuf, w₂, [add, add']⟩
      -- a NULL `symmetrical_flow_key` is written to, the first key being in the table
      else none
    else some ⟨.hashMapOperation, pktMbuf, w₁, [add]⟩
  else none

/-- Account a frame to a known flow. -/
def countPacket (w : World) (flowKey : KeyPtr) (pktLen : UInt32) : World :=
  w.modifyKey flowKey fun k =>
    { k with packetAmount := k.packetAmount + 1, flowSize := k.flowSize + pktLen }

/-- The guard before a flow is handed to the flow engine. -/
def wantsOffload (k : SmtoFlowKey) : Bool :=
  pktAmountToOffload != -1 && k.packetAmount ≥ pktAmountToOffload &&
    k.isOffload == .notOffload

/-- Hand a flow to the flow engine: enqueue it, then mark it. -/
def requestOffload (w : World) (flowKey : KeyPtr) : World :=
  if wantsOffload (w.keys flowKey) then
    match w.flowRulesRing.enqueue flowKey with
    -- the ring is full: the status stays, and the next frame tries again
    | none => w
    | some ring => markOffloading { w with flowRulesRing := ring } flowKey
  else w

/-- The branch of `packet_processing` for a known flow. -/
def knownFlow (w : World) (pktMbuf : RteMbuf) (flowKey : KeyPtr) : PacketResult :=
  let w' := requestOffload (countPacket w flowKey pktMbuf.pktLen) flowKey
  ⟨.success, modifyPacket pktMbuf (w'.keys flowKey).modifyTuple, w', []⟩

/-- `packet_processing`. -/
def packetProcessing (w : World) (pktMbuf : RteMbuf) (env : PacketEnv) :
    Option PacketResult :=
  if supportedPacketType pktMbuf.packetType then
    let tuple := getIpv4_5tuple pktMbuf ipv4Mask
    match rteHashLookupData w.flowHashMap tuple with
    | .ok flowKey => some (knownFlow w pktMbuf flowKey)
    | .error ret =>
        if ret = enoent then createFlow w pktMbuf tuple env
        else some ⟨.hashMapOperation, pktMbuf, w, []⟩
  else some ⟨.unsupportedPacketType, pktMbuf, w, []⟩

/-- What a call leaves waiting for the engine: the queue, or the queue and the
flow's own key. -/
theorem requestOffload_cases (w : World) (k : KeyPtr) :
    requestOffload w k = w ∨
      ∃ ring, wantsOffload (w.keys k) = true ∧ w.flowRulesRing.enqueue k = some ring ∧
        requestOffload w k = markOffloading { w with flowRulesRing := ring } k := by
  unfold requestOffload
  split
  next hwants =>
    split
    · exact Or.inl rfl
    next ring henq => exact Or.inr ⟨ring, hwants, henq, rfl⟩
  · exact Or.inl rfl

@[simp] theorem countPacket_pending (w : World) (k : KeyPtr) (pktLen : UInt32) :
    (countPacket w k pktLen).pending = w.pending := rfl

/-- What accounting a frame and asking for offload does to a flow key: only a key that
is not offloaded changes its status, and it is then waiting. -/
theorem isOffload_requestOffload (w : World) (k k' : KeyPtr) :
    ((requestOffload w k).keys k').isOffload = (w.keys k').isOffload ∨
      k' = k ∧ (w.keys k).isOffload = .notOffload ∧
        ((requestOffload w k).keys k').isOffload = .offloading := by
  rcases requestOffload_cases w k with heq | ⟨ring, hwants, -, heq⟩
  · rw [heq]
    exact Or.inl rfl
  · rw [heq]
    by_cases hk : k' = k
    · subst hk
      have hstatus : (w.keys k').isOffload = .notOffload := by
        simp only [wantsOffload, Bool.and_eq_true, beq_iff_eq] at hwants
        exact hwants.2
      exact Or.inr ⟨rfl, hstatus, by rw [markOffloading_keys_self]⟩
    · rw [markOffloading_keys_of_ne _ hk]
      exact Or.inl rfl

theorem flow_requestOffload (w : World) (k k' : KeyPtr) :
    ((requestOffload w k).keys k').flow = (w.keys k').flow := by
  rcases requestOffload_cases w k with heq | ⟨ring, -, -, heq⟩
  · rw [heq]
  · rw [heq]
    exact World.modifyKey_keys_congr _ k _ SmtoFlowKey.flow rfl k'

theorem isOffload_countPacket (w : World) (k k' : KeyPtr) (pktLen : UInt32) :
    ((countPacket w k pktLen).keys k').isOffload = (w.keys k').isOffload :=
  w.modifyKey_keys_congr k _ SmtoFlowKey.isOffload rfl k'

theorem flow_countPacket (w : World) (k k' : KeyPtr) (pktLen : UInt32) :
    ((countPacket w k pktLen).keys k').flow = (w.keys k').flow :=
  w.modifyKey_keys_congr k _ SmtoFlowKey.flow rfl k'

@[simp] theorem requestOffload_nic (w : World) (k : KeyPtr) :
    (requestOffload w k).nic = w.nic := by
  rcases requestOffload_cases w k with heq | ⟨ring, -, -, heq⟩ <;> rw [heq]
  rfl

/-- An accepted request is one more element at the end of the queue. -/
theorem pending_of_enqueue {w : World} {k : KeyPtr} {ring : BoundedFifo KeyPtr}
    (h : w.flowRulesRing.enqueue k = some ring) :
    (markOffloading { w with flowRulesRing := ring } k).pending = w.pending ++ [k] := by
  simp [World.pending, markOffloading, BoundedFifo.items_of_enqueue h]

theorem mem_pending_requestOffload {w : World} {k k' : KeyPtr}
    (h : k' ∈ (requestOffload w k).pending) : k' ∈ w.pending ∨ k' = k := by
  rcases requestOffload_cases w k with heq | ⟨ring, -, henq, heq⟩
  · rw [heq] at h
    exact Or.inl h
  · rw [heq, pending_of_enqueue henq] at h
    simpa using h

/-- **What opening a flow can do**, if it does not run into a NULL pointer: the
first insertion fails; or both keys are built, and the second insertion succeeds
or fails. -/
theorem createFlow_cases {w : World} {m : RteMbuf} {t : RdarmFiveTuple} {env : PacketEnv}
    {r : PacketResult} (h : createFlow w m t env = some r) :
    env.allocOut = true ∧
      (env.addOut = false ∧
          r = ⟨.hashMapOperation, m, addFlow w (nextFlowKey w m t env) env,
            [⟨w.flowHashMap, t⟩]⟩ ∨
        env.addOut = true ∧ env.allocBack = true ∧
          r = ⟨if env.addBack then .success else .hashMapOperation,
            if env.addBack then modifyPacket m (nextFlowKey w m t env).modifyTuple else m,
            addSymmetricalFlow (addFlow w (nextFlowKey w m t env) env) w.serial
              (nextFlowKey w m t env) env.addBack,
            [⟨w.flowHashMap, t⟩,
              ⟨w.flowHashMap.insert t (.out w.serial),
                (newSymmetricalFlowKey (.out w.serial) (nextFlowKey w m t env)).tuple⟩]⟩) := by
  unfold createFlow at h
  split at h
  next halloc =>
    refine ⟨halloc, ?_⟩
    dsimp only at h
    split at h
    next hadd =>
      refine Or.inr ⟨hadd, ?_⟩
      have htable : (addFlow w (nextFlowKey w m t env) env).flowHashMap =
          w.flowHashMap.insert t (.out w.serial) := by
        simp [addFlow, rteHashAddKeyData, hadd, nextFlowKey, newFlowKey]
      split at h
      next hback =>
        refine ⟨hback, ?_⟩
        rw [htable] at h
        split at h
        next hadd' => simpa [hadd', nextFlowKey, newFlowKey] using (Option.some.inj h).symm
        next hadd' => simpa [hadd', nextFlowKey, newFlowKey] using (Option.some.inj h).symm
      · cases h
    next hadd =>
      refine Or.inl ⟨by simpa using hadd, ?_⟩
      simpa [nextFlowKey, newFlowKey] using (Option.some.inj h).symm
  · cases h

/-- A key that opening a flow writes to is not offloaded. -/
theorem keys_createFlow_cases {w : World} {m : RteMbuf} {t : RdarmFiveTuple}
    {env : PacketEnv} {r : PacketResult} (h : createFlow w m t env = some r) (k : KeyPtr) :
    r.world.keys k = w.keys k ∨
      k.serial = w.serial ∧ (r.world.keys k).isOffload = .notOffload ∧
        (r.world.keys k).flow = none := by
  rcases (createFlow_cases h).2 with ⟨-, rfl⟩ | ⟨-, -, rfl⟩
  · by_cases hk : k = .out w.serial
    · subst hk
      refine Or.inr ⟨rfl, ?_, ?_⟩ <;> simp only [addFlow, Function.update_self] <;> rfl
    · exact Or.inl (Function.update_of_ne hk ..)
  · by_cases hk : k = .out w.serial
    · subst hk
      refine Or.inr ⟨rfl, ?_, ?_⟩ <;> simp only [addSymmetricalFlow, Function.update_self] <;> rfl
    · by_cases hk' : k = .back w.serial
      · subst hk'
        refine Or.inr ⟨rfl, ?_, ?_⟩ <;>
          simp only [addSymmetricalFlow, Function.update_of_ne hk, Function.update_self] <;> rfl
      · refine Or.inl ?_
        simp only [addSymmetricalFlow, addFlow]
        rw [Function.update_of_ne hk, Function.update_of_ne hk', Function.update_of_ne hk]

/-! ### The four ways through `packet_processing` -/

variable {w : World} {m : RteMbuf} {env : PacketEnv}

theorem packetProcessing_unsupported (h : supportedPacketType m.packetType = false) :
    packetProcessing w m env = some ⟨.unsupportedPacketType, m, w, []⟩ := by
  simp [packetProcessing, h]

theorem packetProcessing_known {k : KeyPtr} (h : supportedPacketType m.packetType = true)
    (hk : w.flowHashMap.lookup (getIpv4_5tuple m ipv4Mask) = some k) :
    packetProcessing w m env = some (knownFlow w m k) := by
  simp [packetProcessing, h, rteHashLookupData, hk]

theorem packetProcessing_new (h : supportedPacketType m.packetType = true)
    (hk : w.flowHashMap.lookup (getIpv4_5tuple m ipv4Mask) = none) :
    packetProcessing w m env = createFlow w m (getIpv4_5tuple m ipv4Mask) env := by
  simp [packetProcessing, h, rteHashLookupData, hk, enoent]

/-- A frame **opens a flow**: it is admitted and its tuple is not in the table. -/
def OpensFlow (w : World) (m : RteMbuf) : Prop :=
  supportedPacketType m.packetType = true ∧ getIpv4_5tuple m ipv4Mask ∉ w.flowHashMap

instance (w : World) (m : RteMbuf) : Decidable (OpensFlow w m) :=
  inferInstanceAs (Decidable (_ ∧ _))

theorem OpensFlow.lookup (h : OpensFlow w m) :
    w.flowHashMap.lookup (getIpv4_5tuple m ipv4Mask) = none :=
  AList.lookup_eq_none.mpr h.2

/-- A frame of a stored key opens no flow. -/
theorem not_opensFlow_of_lookup {k : KeyPtr}
    (hk : w.flowHashMap.lookup (getIpv4_5tuple m ipv4Mask) = some k) : ¬ OpensFlow w m := by
  intro hopen
  rw [hopen.lookup] at hk
  cases hk

theorem packetProcessing_of_opensFlow (h : OpensFlow w m) :
    packetProcessing w m env = createFlow w m (getIpv4_5tuple m ipv4Mask) env :=
  packetProcessing_new h.1 h.lookup

/-- **Case analysis of a call**: the frame is not admitted, opens a flow, or
belongs to a known flow. -/
theorem packetProcessing_cases (w : World) (m : RteMbuf) (env : PacketEnv) :
    packetProcessing w m env = some ⟨.unsupportedPacketType, m, w, []⟩ ∧
        supportedPacketType m.packetType = false ∨
      packetProcessing w m env = createFlow w m (getIpv4_5tuple m ipv4Mask) env ∧
        OpensFlow w m ∨
      ∃ k, packetProcessing w m env = some (knownFlow w m k) ∧
        supportedPacketType m.packetType = true ∧
        w.flowHashMap.lookup (getIpv4_5tuple m ipv4Mask) = some k := by
  cases hs : supportedPacketType m.packetType with
  | false => exact Or.inl ⟨packetProcessing_unsupported hs, rfl⟩
  | true =>
      refine Or.inr ?_
      cases hk : w.flowHashMap.lookup (getIpv4_5tuple m ipv4Mask) with
      | none =>
          have hopen : OpensFlow w m := ⟨hs, AList.lookup_eq_none.mp hk⟩
          exact Or.inl ⟨packetProcessing_new hs hk, hopen⟩
      | some k => exact Or.inr ⟨k, packetProcessing_known hs hk, rfl, rfl⟩

end SmartOffload
