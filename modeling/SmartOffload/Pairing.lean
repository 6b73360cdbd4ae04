import SmartOffload.System

/-!
# Pairs of flow keys

A successful first insertion is followed by the construction of the in-direction
key, whatever happens to the second insertion.  From then on the two keys of the
call are one translated connection: `PairAt w n p b` says that the keys of call
`n` are the two legs of the abstract `Binding` `b`, for protocol `p`, and point to
each other.  This is how the flow table refines `Lib.AddressTranslation`.

Nothing but their creation writes the tuples and the link of a flow key
(`KeepsFlows`), so `FlowInv` — everything reachable from the table, from the
queue of the engine or from a rule is such a pair — holds in every reachable
state (`flowInv_of_reachable`).

`pair_round_trip` is the consequence for packets: the reply to a rewritten frame
is a frame of the partner, and the partner turns it into the reply to the
original frame.
-/

namespace SmartOffload

/-- The endpoints of a NAT binding: address and port as stored. -/
abbrev NatBinding := Binding (UInt32 × UInt16)

/-- **The two keys of call `n` are the two legs of `b`.** -/
structure PairAt (w : World) (n : ℕ) (p : UInt8) (b : NatBinding) : Prop where
  outTuple : (w.keys (.out n)).tuple = .ofAddressing p b.outLeg.key
  outModify : (w.keys (.out n)).modifyTuple = .ofAddressing p b.outLeg.out
  backTuple : (w.keys (.back n)).tuple = .ofAddressing p b.inLeg.key
  backModify : (w.keys (.back n)).modifyTuple = .ofAddressing p b.inLeg.out
  outLink : (w.keys (.out n)).symmetricalFlowKey = some (.back n)
  backLink : (w.keys (.back n)).symmetricalFlowKey = some (.out n)
  publicAddr : b.publicEnd.1 = rteCpuToBe32 srcIp

/-- The keys of call `n` are a pair. -/
def Paired (w : World) (n : ℕ) : Prop := ∃ p b, PairAt w n p b

/-! ### What leaves flows alone -/

/-- Everything but offload status, handle, counters, queue and NIC is kept. -/
structure KeepsFlows (w w' : World) : Prop where
  mode : w'.mode = w.mode
  port0 : w'.port0 = w.port0
  port1 : w'.port1 = w.port1
  flowHashMap : w'.flowHashMap = w.flowHashMap
  portPool : w'.portPool = w.portPool
  allocated : w'.allocated = w.allocated
  serial : w'.serial = w.serial
  tuple : ∀ k, (w'.keys k).tuple = (w.keys k).tuple
  modifyTuple : ∀ k, (w'.keys k).modifyTuple = (w.keys k).modifyTuple
  link : ∀ k, (w'.keys k).symmetricalFlowKey = (w.keys k).symmetricalFlowKey

namespace KeepsFlows

variable {w w' w'' : World}

theorem refl (w : World) : KeepsFlows w w :=
  ⟨rfl, rfl, rfl, rfl, rfl, rfl, rfl, fun _ => rfl, fun _ => rfl, fun _ => rfl⟩

theorem trans (h : KeepsFlows w w') (h' : KeepsFlows w' w'') : KeepsFlows w w'' where
  mode := h'.mode.trans h.mode
  port0 := h'.port0.trans h.port0
  port1 := h'.port1.trans h.port1
  flowHashMap := h'.flowHashMap.trans h.flowHashMap
  portPool := h'.portPool.trans h.portPool
  allocated := h'.allocated.trans h.allocated
  serial := h'.serial.trans h.serial
  tuple k := (h'.tuple k).trans (h.tuple k)
  modifyTuple k := (h'.modifyTuple k).trans (h.modifyTuple k)
  link k := (h'.link k).trans (h.link k)

/-- Writing status, handle or counters of a key. -/
theorem modifyKey (w : World) (k : KeyPtr) {f : SmtoFlowKey → SmtoFlowKey}
    (htuple : (f (w.keys k)).tuple = (w.keys k).tuple)
    (hmodify : (f (w.keys k)).modifyTuple = (w.keys k).modifyTuple)
    (hlink : (f (w.keys k)).symmetricalFlowKey = (w.keys k).symmetricalFlowKey) :
    KeepsFlows w (w.modifyKey k f) where
  mode := rfl
  port0 := rfl
  port1 := rfl
  flowHashMap := rfl
  portPool := rfl
  allocated := rfl
  serial := rfl
  tuple := w.modifyKey_keys_congr k f SmtoFlowKey.tuple htuple
  modifyTuple := w.modifyKey_keys_congr k f SmtoFlowKey.modifyTuple hmodify
  link := w.modifyKey_keys_congr k f SmtoFlowKey.symmetricalFlowKey hlink

/-- Changing the queue of the engine. -/
theorem setQueue (w : World) (ring : BoundedFifo KeyPtr) (burst : List KeyPtr) :
    KeepsFlows w { w with flowRulesRing := ring, burst := burst } :=
  ⟨rfl, rfl, rfl, rfl, rfl, rfl, rfl, fun _ => rfl, fun _ => rfl, fun _ => rfl⟩

/-- Changing the NIC. -/
theorem setNic (w : World) (nic : Nic) : KeepsFlows w { w with nic := nic } :=
  ⟨rfl, rfl, rfl, rfl, rfl, rfl, rfl, fun _ => rfl, fun _ => rfl, fun _ => rfl⟩

theorem pairAt (h : KeepsFlows w w') {n : ℕ} {p : UInt8} {b : NatBinding}
    (hp : PairAt w n p b) : PairAt w' n p b where
  outTuple := (h.tuple _).trans hp.outTuple
  outModify := (h.modifyTuple _).trans hp.outModify
  backTuple := (h.tuple _).trans hp.backTuple
  backModify := (h.modifyTuple _).trans hp.backModify
  outLink := (h.link _).trans hp.outLink
  backLink := (h.link _).trans hp.backLink
  publicAddr := hp.publicAddr

theorem paired (h : KeepsFlows w w') {n : ℕ} (hp : Paired w n) : Paired w' n := by
  obtain ⟨p, b, hp⟩ := hp
  exact ⟨p, b, h.pairAt hp⟩

end KeepsFlows

theorem keepsFlows_requestOffload (w : World) (k : KeyPtr) :
    KeepsFlows w (requestOffload w k) := by
  unfold requestOffload
  split
  · split
    · exact .refl w
    next ring _ => exact (KeepsFlows.setQueue w ring _).trans (.modifyKey _ k rfl rfl rfl)
  · exact .refl w

theorem keepsFlows_countPacket (w : World) (k : KeyPtr) (pktLen : UInt32) :
    KeepsFlows w (countPacket w k pktLen) := .modifyKey w k rfl rfl rfl

theorem keepsFlows_markNotOffload (w : World) (k : KeyPtr) :
    KeepsFlows w (markNotOffload w k) := .modifyKey w k rfl rfl rfl

theorem keepsFlows_markOffloadSuccess (w : World) (k : KeyPtr) (flow : FlowHandle) :
    KeepsFlows w (markOffloadSuccess w k flow) := .modifyKey w k rfl rfl rfl

theorem keepsFlows_offloadKey (w : World) (portId : UInt16) (k : KeyPtr) (ok : Bool) :
    KeepsFlows w (offloadKey w portId k ok).2 := by
  rcases offloadKey_cases w portId k ok with ⟨heq, -⟩ | ⟨-, pattern, heq⟩
  · rw [heq]
    exact keepsFlows_markNotOffload w k
  · rw [heq]
    exact (KeepsFlows.setNic w _).trans (keepsFlows_markOffloadSuccess _ k _)

theorem keepsFlows_createFlowLoopBody {w w' : World} {k : KeyPtr} {ok okSymmetrical : Bool}
    (h : createFlowLoopBody w k ok okSymmetrical = some w') : KeepsFlows w w' := by
  rcases createFlowLoopBody_cases h with ⟨rfl, -⟩ | ⟨-, pattern, symmetrical, -, rfl⟩
  · exact keepsFlows_markNotOffload w k
  · exact ((KeepsFlows.setNic w _).trans (keepsFlows_markOffloadSuccess _ k _)).trans
      (keepsFlows_offloadKey _ _ symmetrical okSymmetrical)

theorem keepsFlows_mergeCounter (w : World) (k : KeyPtr) (c : Option (UInt64 × UInt64)) :
    KeepsFlows w (mergeCounter w k c) := by
  unfold mergeCounter
  split
  · exact .refl w
  · exact .modifyKey w k rfl rfl rfl

theorem keepsFlows_destroyTimeoutFlow (w : World) (portId : UInt16) (k : KeyPtr)
    (flow : FlowHandle) (ok : Bool) :
    KeepsFlows w (destroyTimeoutFlow w portId k flow ok) := by
  unfold destroyTimeoutFlow
  dsimp only
  split
  · exact (KeepsFlows.setNic w _).trans (keepsFlows_markNotOffload _ k)
  · exact .setNic w _

theorem keepsFlows_deleteTimeoutFlow (w : World) (portId : UInt16) (report : AgedReport)
    (context : Option KeyPtr) : KeepsFlows w (deleteTimeoutFlow w portId report context).1 := by
  rcases deleteTimeoutFlow_cases w portId report context with
    ⟨heq, -⟩ | ⟨k, flow, -, -, heq⟩
  · rw [heq]
    exact .refl w
  · rw [heq]
    exact (keepsFlows_mergeCounter w k _).trans (keepsFlows_destroyTimeoutFlow _ _ k flow _)

theorem keepsFlows_deleteTimeoutBatch (w : World) (portId : UInt16)
    (batch : List (AgedReport × Option KeyPtr)) :
    KeepsFlows w (deleteTimeoutBatch w portId batch).1 := by
  induction batch generalizing w with
  | nil => exact .refl w
  | cons head rest ih =>
      exact (keepsFlows_deleteTimeoutFlow w portId head.1 head.2).trans (ih _)

theorem keepsFlows_deleteTimeoutFlows (w : World) (portId : UInt16)
    (aged : Option (List AgedReport)) : KeepsFlows w (deleteTimeoutFlows w portId aged).1 := by
  cases aged with
  | none => exact .refl w
  | some reports => exact keepsFlows_deleteTimeoutBatch w portId _

/-- **Only a new flow touches flows.**  An event opens a flow, or keeps them all. -/
theorem Stepped.opens_or_keepsFlows {w w' : World} {e : OffloadEvent} {os : List Obs}
    (h : Stepped w e w' os) :
    (∃ portId m env r, e = .packet portId m env ∧ OpensFlow w m ∧
        createFlow w m (getIpv4_5tuple m ipv4Mask) env = some r ∧ w' = r.world) ∨
      KeepsFlows w w' := by
  cases h with
  | @opened portId m env r hopen hr => exact Or.inl ⟨portId, m, env, r, rfl, hopen, hr, rfl⟩
  | ignored _ => exact Or.inr (.refl w)
  | known _ =>
      exact Or.inr ((keepsFlows_countPacket w _ _).trans (keepsFlows_requestOffload _ _))
  | dequeued _ => exact Or.inr (.setQueue w _ _)
  | @engine _ rest _ _ _ _ hbody =>
      exact Or.inr ((KeepsFlows.setQueue w _ rest).trans (keepsFlows_createFlowLoopBody hbody))
  | aged _ => exact Or.inr (keepsFlows_deleteTimeoutFlows w _ _)
  | traffic _ _ _ => exact Or.inr (.setNic w _)
  | timeout _ => exact Or.inr (.setNic w _)

/-! ### A new pair -/

/-- The binding a new flow gets: the opener's addressing, and the translated
source with the port taken from the pool. -/
def newBinding (a : Addressing (UInt32 × UInt16)) (portObject : ℕ) : NatBinding :=
  ⟨a, (rteCpuToBe32 srcIp, rteCpuToBe16 (UInt16.ofNat portObject))⟩

/-- The tuple replies to a new flow will carry: the key of the second insertion. -/
def replyTuple (w : World) (m : RteMbuf) : RdarmFiveTuple :=
  .ofAddressing m.proto (newBinding m.addressing (dequeuePortObject w.portPool).1).inLeg.key

/-- The second insertion is made under the reply tuple. -/
theorem newSymmetricalFlowKey_tuple (w : World) (m : RteMbuf) (env : PacketEnv) (k : KeyPtr) :
    (newSymmetricalFlowKey k (nextFlowKey w m (getIpv4_5tuple m ipv4Mask) env)).tuple =
      replyTuple w m := by
  rw [getIpv4_5tuple_eq]
  rfl

/-- **The two keys a call builds are a pair**, whether or not the second insertion
succeeds. -/
theorem pairAt_addSymmetricalFlow (w w₁ : World) (m : RteMbuf) (env : PacketEnv) (n : ℕ)
    (ok : Bool) :
    PairAt (addSymmetricalFlow w₁ n (nextFlowKey w m (getIpv4_5tuple m ipv4Mask) env) ok) n
      m.proto (newBinding m.addressing (dequeuePortObject w.portPool).1) := by
  have hne : KeyPtr.back n ≠ KeyPtr.out n := (KeyPtr.out_ne_back n n).symm
  rw [getIpv4_5tuple_eq]
  refine ⟨?_, ?_, ?_, ?_, ?_, ?_, rfl⟩ <;>
    simp only [addSymmetricalFlow, Function.update_self, Function.update_of_ne hne] <;> rfl

/-! ### The invariant -/

/-- **Everything in use is paired**: what the table stores, under its own tuple;
what waits for the engine; what owns a rule.  Addresses handed out are numbered
below the next call. -/
structure FlowInv (w : World) : Prop where
  stored : ∀ t k, w.flowHashMap.lookup t = some k →
    k.serial < w.serial ∧ (w.keys k).tuple = t ∧ Paired w k.serial
  queued : ∀ k ∈ w.pending, k.serial < w.serial ∧ Paired w k.serial
  owned : ∀ h k, w.nic.owner h = some k → k.serial < w.serial ∧ Paired w k.serial
  allocated : ∀ k ∈ w.allocated, k.serial < w.serial

/-- A paired key points to the other key of its call. -/
theorem Paired.link {w : World} {k : KeyPtr} (h : Paired w k.serial) :
    (w.keys k).symmetricalFlowKey = some k.partner := by
  obtain ⟨p, b, hp⟩ := h
  rcases k.eq_out_or_eq_back with hk | hk
  · rw [hk, KeyPtr.partner_out]
    exact hp.outLink
  · rw [hk, KeyPtr.partner_back]
    exact hp.backLink

theorem flowInv_initialWorld (mode : SmtoMode) (port0 port1 : UInt16)
    (portPool : BoundedFifo ℕ) (readSpec : FlowHandle → RteFlowItemL4 → RteFlowItemL4) :
    FlowInv (initialWorld mode port0 port1 portPool readSpec) where
  stored t k h := by
    rw [initialWorld, AList.lookup_empty] at h
    cases h
  queued k h := by
    simp [World.pending, initialWorld, rteRingInit] at h
  owned h k ho := by
    simp [initialWorld] at ho
  allocated k hk := by
    simp [initialWorld] at hk

/-- Events that keep flows keep the invariant, if what they put into use was in
use or in the table before. -/
theorem FlowInv.of_keepsFlows {w w' : World} (hinv : FlowInv w) (hkeep : KeepsFlows w w')
    (hqueue : ∀ k ∈ w'.pending, k ∈ w.pending ∨ ∃ t, w.flowHashMap.lookup t = some k)
    (hown : ∀ h k, w'.nic.owner h = some k →
      w.nic.owner h = some k ∨ k.serial < w.serial ∧ Paired w k.serial) : FlowInv w' where
  stored t k h := by
    rw [hkeep.flowHashMap] at h
    obtain ⟨hlt, htuple, hp⟩ := hinv.stored t k h
    exact ⟨hkeep.serial ▸ hlt, (hkeep.tuple k).trans htuple, hkeep.paired hp⟩
  queued k h := by
    rw [hkeep.serial]
    rcases hqueue k h with h | ⟨t, h⟩
    · obtain ⟨hlt, hp⟩ := hinv.queued k h
      exact ⟨hlt, hkeep.paired hp⟩
    · obtain ⟨hlt, -, hp⟩ := hinv.stored t k h
      exact ⟨hlt, hkeep.paired hp⟩
  owned h k ho := by
    rw [hkeep.serial]
    rcases hown h k ho with ho | ⟨hlt, hp⟩
    · obtain ⟨hlt, hp⟩ := hinv.owned h k ho
      exact ⟨hlt, hkeep.paired hp⟩
    · exact ⟨hlt, hkeep.paired hp⟩
  allocated k hk := by
    rw [hkeep.allocated] at hk
    exact hkeep.serial ▸ hinv.allocated k hk

/-- Opening a flow changes the keys of its own call only. -/
theorem keys_of_createFlow {w : World} {m : RteMbuf} {t : RdarmFiveTuple} {env : PacketEnv}
    {r : PacketResult} (h : createFlow w m t env = some r) {k : KeyPtr}
    (hk : k.serial ≠ w.serial) : r.world.keys k = w.keys k := by
  have hout : k ≠ KeyPtr.out w.serial := fun heq => hk (congrArg KeyPtr.serial heq)
  have hback : k ≠ KeyPtr.back w.serial := fun heq => hk (congrArg KeyPtr.serial heq)
  rcases (createFlow_cases h).2 with ⟨-, rfl⟩ | ⟨-, -, rfl⟩
  · exact Function.update_of_ne hout ..
  · simp only [addSymmetricalFlow, addFlow]
    rw [Function.update_of_ne hout, Function.update_of_ne hback, Function.update_of_ne hout]

/-- The counters, the queue and the NIC are not involved in opening a flow. -/
theorem frame_of_createFlow {w : World} {m : RteMbuf} {t : RdarmFiveTuple} {env : PacketEnv}
    {r : PacketResult} (h : createFlow w m t env = some r) :
    r.world.serial = w.serial + 1 ∧ r.world.nic = w.nic ∧ r.world.pending = w.pending ∧
      r.world.portPool = (dequeuePortObject w.portPool).2 := by
  rcases (createFlow_cases h).2 with ⟨-, rfl⟩ | ⟨-, -, rfl⟩ <;> exact ⟨rfl, rfl, rfl, rfl⟩

/-- Mode and ports are fixed at initialisation. -/
theorem config_of_stepped {w w' : World} {e : OffloadEvent} {os : List Obs}
    (h : Stepped w e w' os) : w'.mode = w.mode ∧ w'.port0 = w.port0 ∧ w'.port1 = w.port1 := by
  rcases h.opens_or_keepsFlows with ⟨_, _, _, _, -, -, hr, rfl⟩ | hkeep
  · rcases (createFlow_cases hr).2 with ⟨-, rfl⟩ | ⟨-, -, rfl⟩ <;> exact ⟨rfl, rfl, rfl⟩
  · exact ⟨hkeep.mode, hkeep.port0, hkeep.port1⟩

/-- Opening a flow allocates keys of its own call only. -/
theorem allocated_of_createFlow {w : World} {m : RteMbuf} {t : RdarmFiveTuple}
    {env : PacketEnv} {r : PacketResult} (h : createFlow w m t env = some r) :
    r.world.allocated =
      (if env.allocBack then [.back w.serial] else []) ++ .out w.serial :: w.allocated := by
  rcases (createFlow_cases h).2 with ⟨-, rfl⟩ | ⟨-, -, rfl⟩ <;> rfl

theorem serial_of_mem_allocated {w : World} {m : RteMbuf} {t : RdarmFiveTuple}
    {env : PacketEnv} {r : PacketResult} (h : createFlow w m t env = some r) {k : KeyPtr}
    (hk : k ∈ r.world.allocated) : k ∈ w.allocated ∨ k.serial = w.serial := by
  rw [allocated_of_createFlow h] at hk
  rcases List.mem_append.mp hk with hk | hk
  · split at hk
    · rw [List.mem_singleton.mp hk]
      exact Or.inr rfl
    · cases hk
  · rcases List.mem_cons.mp hk with rfl | hk
    · exact Or.inr rfl
    · exact Or.inl hk

/-- The keys of earlier calls stay paired when a flow is opened. -/
theorem paired_of_createFlow {w : World} {m : RteMbuf} {t : RdarmFiveTuple}
    {env : PacketEnv} {r : PacketResult} (h : createFlow w m t env = some r) {n : ℕ}
    (hn : n < w.serial) (hp : Paired w n) : Paired r.world n := by
  obtain ⟨p, b, hp⟩ := hp
  have hout : r.world.keys (.out n) = w.keys (.out n) := keys_of_createFlow h hn.ne
  have hback : r.world.keys (.back n) = w.keys (.back n) := keys_of_createFlow h hn.ne
  refine ⟨p, b, ?_⟩
  constructor
  · rw [hout]; exact hp.outTuple
  · rw [hout]; exact hp.outModify
  · rw [hback]; exact hp.backTuple
  · rw [hback]; exact hp.backModify
  · rw [hout]; exact hp.outLink
  · rw [hback]; exact hp.backLink
  · exact hp.publicAddr

/-- The table after a flow is opened: the second insertion is only made after a
successful first one. -/
theorem table_of_createFlow {w : World} {m : RteMbuf} {env : PacketEnv} {r : PacketResult}
    (h : createFlow w m (getIpv4_5tuple m ipv4Mask) env = some r) :
    r.world.flowHashMap =
      rteHashAddKeyData
        (rteHashAddKeyData w.flowHashMap (getIpv4_5tuple m ipv4Mask) (.out w.serial) env.addOut)
        (replyTuple w m) (.back w.serial) (env.addOut && env.addBack) := by
  rcases (createFlow_cases h).2 with ⟨hadd, rfl⟩ | ⟨hadd, -, rfl⟩
  · simp only [addFlow, hadd]
    rfl
  · rw [← newSymmetricalFlowKey_tuple w m env (.out w.serial), hadd, Bool.true_and]
    simp only [addSymmetricalFlow, addFlow, hadd]
    rfl

/-- What the table holds after a flow is opened, it held before, or it is one of
the two new entries. -/
theorem lookup_of_createFlow {w : World} {m : RteMbuf} {env : PacketEnv} {r : PacketResult}
    (h : createFlow w m (getIpv4_5tuple m ipv4Mask) env = some r) {t : RdarmFiveTuple}
    {k : KeyPtr} (hk : r.world.flowHashMap.lookup t = some k) :
    w.flowHashMap.lookup t = some k ∨
      env.addOut = true ∧
        (t = getIpv4_5tuple m ipv4Mask ∧ k = .out w.serial ∨
          t = replyTuple w m ∧ k = .back w.serial) := by
  rw [table_of_createFlow h, lookup_rteHashAddKeyData] at hk
  split at hk
  next hnew =>
    have hadd : env.addOut = true := (Bool.and_eq_true_iff.mp hnew.1).1
    exact Or.inr ⟨hadd, Or.inr ⟨hnew.2, (Option.some.inj hk).symm⟩⟩
  · rw [lookup_rteHashAddKeyData] at hk
    split at hk
    next hnew => exact Or.inr ⟨hnew.1, Or.inl ⟨hnew.2, (Option.some.inj hk).symm⟩⟩
    · exact Or.inl hk

/-- After a successful first insertion the keys of the call are the pair of the
frame. -/
theorem pairAt_createFlow {w : World} {m : RteMbuf} {env : PacketEnv} {r : PacketResult}
    (h : createFlow w m (getIpv4_5tuple m ipv4Mask) env = some r) (hadd : env.addOut = true) :
    PairAt r.world w.serial m.proto
      (newBinding m.addressing (dequeuePortObject w.portPool).1) := by
  rcases (createFlow_cases h).2 with ⟨hno, -⟩ | ⟨-, -, rfl⟩
  · rw [hadd] at hno
    cases hno
  · exact pairAt_addSymmetricalFlow w _ m env w.serial env.addBack

/-- **Opening a flow keeps the invariant.**  Old entries stay, or are overwritten
by the new pair; the new pair is complete before it is stored. -/
theorem flowInv_createFlow {w : World} {m : RteMbuf} {env : PacketEnv} {r : PacketResult}
    (hinv : FlowInv w) (h : createFlow w m (getIpv4_5tuple m ipv4Mask) env = some r) :
    FlowInv r.world := by
  obtain ⟨hserial, hnic, hpending, -⟩ := frame_of_createFlow h
  have hnext : w.serial < r.world.serial := by
    rw [hserial]
    exact Nat.lt_succ_self _
  have hold : ∀ k : KeyPtr, k.serial < w.serial ∧ Paired w k.serial →
      k.serial < r.world.serial ∧ Paired r.world k.serial :=
    fun k hk => ⟨hk.1.trans hnext, paired_of_createFlow h hk.1 hk.2⟩
  constructor
  · intro t k hk
    rcases lookup_of_createFlow h hk with hk | ⟨hadd, ⟨rfl, rfl⟩ | ⟨rfl, rfl⟩⟩
    · -- an entry that was there before
      obtain ⟨hlt, htuple, hp⟩ := hinv.stored t k hk
      refine ⟨(hold k ⟨hlt, hp⟩).1, ?_, (hold k ⟨hlt, hp⟩).2⟩
      rw [keys_of_createFlow h hlt.ne, htuple]
    · -- the out-direction key, under the frame's tuple
      have hpair := pairAt_createFlow h hadd
      refine ⟨hnext, ?_, ⟨_, _, hpair⟩⟩
      rw [getIpv4_5tuple_eq]
      exact hpair.outTuple
    · -- the in-direction key, under the reply tuple
      have hpair := pairAt_createFlow h hadd
      exact ⟨hnext, hpair.backTuple, ⟨_, _, hpair⟩⟩
  · intro k hk
    rw [hpending] at hk
    exact hold k (hinv.queued k hk)
  · intro h' k ho
    rw [hnic] at ho
    exact hold k (hinv.owned h' k ho)
  · intro k hk
    rcases serial_of_mem_allocated h hk with hk | hk
    · exact (hinv.allocated k hk).trans hnext
    · rw [hk]
      exact hnext

/-- What waits for the engine after a step waited before, or is stored. -/
theorem mem_pending_of_stepped {w w' : World} {e : OffloadEvent} {os : List Obs} {k : KeyPtr}
    (h : Stepped w e w' os) (hk : k ∈ w'.pending) :
    k ∈ w.pending ∨ ∃ t, w.flowHashMap.lookup t = some k := by
  cases h with
  | opened _ hr =>
      obtain ⟨-, -, hpending, -⟩ := frame_of_createFlow hr
      rw [hpending] at hk
      exact Or.inl hk
  | known hlookup =>
      rcases mem_pending_requestOffload hk with hk | rfl
      · exact Or.inl hk
      · exact Or.inr ⟨_, hlookup⟩
  | dequeued hburst =>
      rw [dequeueFlowRules_pending hburst] at hk
      exact Or.inl hk
  | engine hburst hbody =>
      rw [createFlowLoopBody_pending hbody] at hk
      simp only [World.pending, hburst, List.cons_append, List.mem_cons] at hk ⊢
      exact Or.inl (Or.inr hk)
  | aged _ =>
      rw [deleteTimeoutFlows_pending] at hk
      exact Or.inl hk
  | ignored _ => exact Or.inl hk
  | traffic _ _ _ => exact Or.inl hk
  | timeout _ => exact Or.inl hk

/-- A rule owned after a step was owned before, or it was created for a waiting key or
its partner. -/
theorem owner_of_stepped {w w' : World} {e : OffloadEvent} {os : List Obs} {k : KeyPtr}
    (h : Stepped w e w' os) {flow : FlowHandle} (ho : w'.nic.owner flow = some k) :
    w.nic.owner flow = some k ∨
      ∃ k' ∈ w.pending, k = k' ∨ (w.keys k').symmetricalFlowKey = some k := by
  cases h with
  | opened _ hr =>
      obtain ⟨-, hnic, -, -⟩ := frame_of_createFlow hr
      rw [hnic] at ho
      exact Or.inl ho
  | known _ =>
      rw [requestOffload_nic] at ho
      exact Or.inl ho
  | @engine k' rest _ _ _ hburst hbody =>
      have hk' : k' ∈ w.pending := by simp [World.pending, hburst]
      rcases owner_of_owner_createFlowLoopBody hbody ho with ho | heq
      · exact Or.inl ho
      · exact Or.inr ⟨k', hk', heq⟩
  | aged _ => exact Or.inl (owner_of_owner_deleteTimeoutFlows ho)
  | ignored _ => exact Or.inl ho
  | dequeued _ => exact Or.inl ho
  | traffic _ _ _ =>
      rw [Nic.owner_forward] at ho
      exact Or.inl ho
  | timeout _ =>
      rw [Nic.owner_timeOut] at ho
      exact Or.inl ho

/-- **The invariant is inductive.** -/
theorem flowInv_step {w w' : World} {e : OffloadEvent} {os : List Obs} (hinv : FlowInv w)
    (h : Stepped w e w' os) : FlowInv w' := by
  rcases h.opens_or_keepsFlows with ⟨portId, m, env, r, -, -, hr, rfl⟩ | hkeep
  · exact flowInv_createFlow hinv hr
  · refine hinv.of_keepsFlows hkeep (fun k hk => mem_pending_of_stepped h hk)
      fun flow k ho => ?_
    rcases owner_of_stepped h ho with ho | ⟨k', hk', rfl | hlink⟩
    · exact Or.inl ho
    · exact Or.inr (hinv.queued k hk')
    · -- the partner of a waiting key was allocated in the same call
      obtain ⟨hlt, hp⟩ := hinv.queued k' hk'
      rw [hp.link] at hlink
      obtain rfl := Option.some.inj hlink
      rw [KeyPtr.partner_serial]
      exact Or.inr ⟨hlt, hp⟩

theorem flowInv_of_init {w : World} (h : offloadMachine.Init w) : FlowInv w := by
  obtain ⟨mode, port0, port1, portPool, readSpec, -, -, rfl⟩ := h
  exact flowInv_initialWorld mode port0 port1 portPool readSpec

/-- The key the engine is about to process points to its partner. -/
theorem FlowInv.link_of_burst {w : World} {k : KeyPtr} {rest : List KeyPtr} (hinv : FlowInv w)
    (hburst : w.burst = k :: rest) : (w.keys k).symmetricalFlowKey = some k.partner := by
  have hk : k ∈ w.pending := by simp [World.pending, hburst]
  exact (hinv.queued k hk).2.link

/-- Every reachable state satisfies the invariant. -/
theorem flowInv_of_reachable {w : World} (h : offloadMachine.Reachable w) : FlowInv w :=
  h.state_invariant (fun _ hinit => flowInv_of_init hinit)
    fun hinv hstep => flowInv_step hinv (stepped_of_step hstep)

/-! ### The round trip -/

/-- **A paired key and its partner are mutual legs** of one protocol: the abstract
law behind the round trip, for either direction. -/
theorem Paired.mutual {w : World} {k : KeyPtr} (h : Paired w k.serial) :
    ∃ p l l', (w.keys k).tuple = .ofAddressing p l.key ∧
      (w.keys k).modifyTuple = .ofAddressing p l.out ∧
      (w.keys k.partner).tuple = .ofAddressing p l'.key ∧
      (w.keys k.partner).modifyTuple = .ofAddressing p l'.out ∧ Leg.Mutual l l' := by
  obtain ⟨p, b, hp⟩ := h
  have hmutual := b.outLeg_mutual_inLeg
  rcases k.eq_out_or_eq_back with hk | hk
  · rw [hk, KeyPtr.partner_out]
    exact ⟨p, b.outLeg, b.inLeg, hp.outTuple, hp.outModify, hp.backTuple, hp.backModify,
      hmutual⟩
  · rw [hk, KeyPtr.partner_back]
    exact ⟨p, b.inLeg, b.outLeg, hp.backTuple, hp.backModify, hp.outTuple, hp.outModify,
      hmutual.symm⟩

/-- Both keys of a pair are for one protocol. -/
theorem Paired.offloadable_partner {w : World} {k : KeyPtr} (h : Paired w k.serial)
    (hoff : Offloadable (w.keys k)) : Offloadable (w.keys k.partner) := by
  obtain ⟨p, l, l', hkey, -, hkey', -, -⟩ := h.mutual
  rw [Offloadable, hkey] at hoff
  rw [Offloadable, hkey']
  exact hoff

/-- **Pairing and round trip.**  Every stored key is stored under its own tuple and
linked to a partner that links back.  A frame of the key, rewritten and answered,
carries the sixteen bytes of the partner's tuple; rewritten by the partner, the
answer goes from the frame's destination to its source. -/
theorem pair_round_trip {w : World} (hw : offloadMachine.Reachable w) {t : RdarmFiveTuple}
    {k : KeyPtr} (hk : w.flowHashMap.lookup t = some k) :
    (w.keys k).tuple.toBytes = t.toBytes ∧
      ∃ partner, (w.keys k).symmetricalFlowKey = some partner ∧
        (w.keys partner).symmetricalFlowKey = some k ∧
        ∀ m : RteMbuf, getIpv4_5tuple m ipv4Mask = (w.keys k).tuple →
          (getIpv4_5tuple (modifyPacket m (w.keys k).modifyTuple).swapEndpoints
              ipv4Mask).toBytes = (w.keys partner).tuple.toBytes ∧
          getIpv4_5tuple (modifyPacket (modifyPacket m (w.keys k).modifyTuple).swapEndpoints
              (w.keys partner).modifyTuple) ipv4Mask = (w.keys k).tuple.swap := by
  obtain ⟨-, htuple, hp⟩ := (flowInv_of_reachable hw).stored t k hk
  have hp' : Paired w k.partner.serial := by rwa [KeyPtr.partner_serial]
  have hback := hp'.link
  rw [KeyPtr.partner_partner] at hback
  refine ⟨congrArg _ htuple, k.partner, hp.link, hback, fun m hm => ?_⟩
  obtain ⟨p, l, l', hkey, hout, hkey', hout', hmutual⟩ := hp.mutual
  -- a frame found under the key has its protocol
  have hproto : m.proto = p := by
    rw [getIpv4_5tuple_eq, hkey] at hm
    exact (RdarmFiveTuple.ofAddressing_inj.mp hm).1
  constructor
  · rw [getIpv4_5tuple_eq, swapEndpoints_proto, modifyPacket_proto, swapEndpoints_addressing,
      modifyPacket_addressing, hout, RdarmFiveTuple.addressing_ofAddressing, hkey', hproto,
      hmutual.key_eq]
  · rw [getIpv4_5tuple_eq, modifyPacket_proto, swapEndpoints_proto, modifyPacket_proto,
      modifyPacket_addressing, hout', RdarmFiveTuple.addressing_ofAddressing, hkey,
      RdarmFiveTuple.swap_ofAddressing, hproto, hmutual.out_eq]

/-- The round trip for the first flow of a system. -/
theorem pair_round_trip_oneFlow :
    ∃ partner, (oneFlowWorld.keys (.out 0)).symmetricalFlowKey = some partner ∧
      (oneFlowWorld.keys partner).symmetricalFlowKey = some (.out 0) ∧
      ∀ m : RteMbuf, getIpv4_5tuple m ipv4Mask = (oneFlowWorld.keys (.out 0)).tuple →
        (getIpv4_5tuple (modifyPacket m (oneFlowWorld.keys (.out 0)).modifyTuple).swapEndpoints
            ipv4Mask).toBytes = (oneFlowWorld.keys partner).tuple.toBytes ∧
        getIpv4_5tuple (modifyPacket
            (modifyPacket m (oneFlowWorld.keys (.out 0)).modifyTuple).swapEndpoints
            (oneFlowWorld.keys partner).modifyTuple) ipv4Mask =
          (oneFlowWorld.keys (.out 0)).tuple.swap := by
  have hk : oneFlowWorld.flowHashMap.lookup (.ofAddressing ipprotoUdp ⟨client, server⟩) =
      some (.out 0) := by decide +kernel
  exact (pair_round_trip reachable_oneFlowWorld hk).2

end SmartOffload
