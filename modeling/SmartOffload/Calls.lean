import SmartOffload.Interleaving

/-!
# A call of `packet_processing`, step by step

`packet_processing` cut at its operations on shared memory: each lookup, each
insertion, each operation on a ring and each write of `symmetrical_flow_key` is a
step (`callAdvance`).  Where a call stands is its `CallPc`; what the environment
decides in it is fixed when it starts.

A call that nobody interrupts is the call of `Worker.lean` (`advances_call`).
`workersMachine` lets any number of workers run calls, interleaved with each other
and with the flow engine.
-/

namespace SmartOffload

/-- Where a call stands: the operation that comes next. -/
inductive CallPc where
  /-- `rte_hash_lookup_data`. -/
  | lookingUp (m : RteMbuf) (env : PacketEnv)
  /-- The allocations and `rte_ring_dequeue(port_pool)`. -/
  | creating (m : RteMbuf) (env : PacketEnv)
  /-- `rte_hash_add_key_data` for the out-direction key of call `n`. -/
  | insertingOut (m : RteMbuf) (env : PacketEnv) (n : ℕ)
  /-- The in-direction key, with its link. -/
  | buildingBack (m : RteMbuf) (env : PacketEnv) (n : ℕ)
  /-- `rte_hash_add_key_data` for the in-direction key. -/
  | insertingBack (m : RteMbuf) (env : PacketEnv) (n : ℕ)
  /-- The link of the out-direction key. -/
  | linking (m : RteMbuf) (env : PacketEnv) (n : ℕ)
  /-- The counters of a known flow. -/
  | counting (m : RteMbuf) (k : KeyPtr)
  /-- `rte_ring_enqueue(flow_rules_ring)`. -/
  | enqueueing (m : RteMbuf) (k : KeyPtr)
  /-- `is_offload = OFFLOADING`. -/
  | marking (m : RteMbuf) (k : KeyPtr)
  /-- The call is over: its result, and the frame as it left it. -/
  | returned (ret : SmtoErrorCode) (m : RteMbuf)

/-- Both allocations, a port from the pool, and the out-direction key. -/
def startFlow (w : World) (m : RteMbuf) (env : PacketEnv) : World :=
  { w with
    serial := w.serial + 1
    allocated := (if env.allocBack then [.back w.serial] else []) ++ .out w.serial :: w.allocated
    portPool := (dequeuePortObject w.portPool).2
    keys := Function.update w.keys (.out w.serial)
      (nextFlowKey w m (getIpv4_5tuple m ipv4Mask) env) }

/-- `rte_hash_add_key_data` for a flow key, under its own tuple. -/
def insertKey (w : World) (k : KeyPtr) (ok : Bool) : World :=
  { w with flowHashMap := rteHashAddKeyData w.flowHashMap (w.keys k).tuple k ok }

/-- The in-direction key of call `n`, linked to the out-direction key. -/
def buildBack (w : World) (n : ℕ) : World :=
  { w with
    keys := Function.update w.keys (.back n)
      (newSymmetricalFlowKey (.out n) (w.keys (.out n))) }

/-- `flow_key->symmetrical_flow_key = symmetrical_flow_key`. -/
def linkOut (w : World) (n : ℕ) : World :=
  w.modifyKey (.out n) fun k => { k with symmetricalFlowKey := some (.back n) }

section

variable (w : World) (n : ℕ)

@[simp] theorem startFlow_keys_self (m : RteMbuf) (env : PacketEnv) :
    (startFlow w m env).keys (.out w.serial) =
      nextFlowKey w m (getIpv4_5tuple m ipv4Mask) env := Function.update_self ..

@[simp] theorem addFlow_keys_self (flowKey : SmtoFlowKey) (env : PacketEnv) :
    (addFlow w flowKey env).keys (.out w.serial) = flowKey := Function.update_self ..

@[simp] theorem buildBack_keys_self :
    (buildBack w n).keys (.back n) = newSymmetricalFlowKey (.out n) (w.keys (.out n)) :=
  Function.update_self ..

@[simp] theorem linkOut_keys_self :
    (linkOut w n).keys (.out n) =
      { w.keys (.out n) with symmetricalFlowKey := some (.back n) } := Function.update_self ..

@[simp] theorem insertKey_keys (k : KeyPtr) (ok : Bool) : (insertKey w k ok).keys = w.keys := rfl

variable {w n} {k : KeyPtr}

theorem startFlow_keys_of_ne {m : RteMbuf} {env : PacketEnv} (h : k ≠ .out w.serial) :
    (startFlow w m env).keys k = w.keys k := Function.update_of_ne h ..

theorem buildBack_keys_of_ne (h : k ≠ .back n) : (buildBack w n).keys k = w.keys k :=
  Function.update_of_ne h ..

theorem linkOut_keys_of_ne (h : k ≠ .out n) : (linkOut w n).keys k = w.keys k :=
  Function.update_of_ne h ..

end

theorem keepsFlows_markOffloading (w : World) (k : KeyPtr) :
    KeepsFlows w (markOffloading w k) := .modifyKey w k rfl rfl rfl

/-- The end of a successful call: the frame is rewritten. -/
def finishCall (w : World) (m : RteMbuf) (k : KeyPtr) : CallPc :=
  .returned .success (modifyPacket m (w.keys k).modifyTuple)

/-- One atomic step of a call; `none` where it dereferences NULL, and when it is over. -/
def callAdvance (w : World) : CallPc → Option (World × CallPc)
  | .lookingUp m env =>
      if supportedPacketType m.packetType then
        match rteHashLookupData w.flowHashMap (getIpv4_5tuple m ipv4Mask) with
        | .ok flowKey => some (w, .counting m flowKey)
        | .error ret =>
            if ret = enoent then some (w, .creating m env)
            else some (w, .returned .hashMapOperation m)
      else some (w, .returned .unsupportedPacketType m)
  | .creating m env =>
      if env.allocOut then some (startFlow w m env, .insertingOut m env w.serial) else none
  | .insertingOut m env n =>
      some (insertKey w (.out n) env.addOut,
        if env.addOut then .buildingBack m env n else .returned .hashMapOperation m)
  | .buildingBack m env n =>
      if env.allocBack then some (buildBack w n, .insertingBack m env n) else none
  | .insertingBack m env n => some (insertKey w (.back n) env.addBack, .linking m env n)
  | .linking m env n =>
      let w' := linkOut w n
      some (w', if env.addBack then finishCall w' m (.out n) else .returned .hashMapOperation m)
  | .counting m k =>
      let w' := countPacket w k m.pktLen
      some (w', if wantsOffload (w'.keys k) then .enqueueing m k else finishCall w' m k)
  | .enqueueing m k =>
      match w.flowRulesRing.enqueue k with
      | none => some (w, finishCall w m k)
      | some ring => some ({ w with flowRulesRing := ring }, .marking m k)
  | .marking m k =>
      let w' := markOffloading w k
      some (w', finishCall w' m k)
  | .returned _ _ => none

/-- **What one atomic step can do**, by cases. -/
inductive Advanced (w : World) : CallPc → World → CallPc → Prop where
  | rejected {m : RteMbuf} {env : PacketEnv} (hno : supportedPacketType m.packetType = false) :
      Advanced w (.lookingUp m env) w (.returned .unsupportedPacketType m)
  | missed {m : RteMbuf} {env : PacketEnv} (hopen : OpensFlow w m) :
      Advanced w (.lookingUp m env) w (.creating m env)
  | found {m : RteMbuf} {env : PacketEnv} {k : KeyPtr}
      (hs : supportedPacketType m.packetType = true)
      (hk : w.flowHashMap.lookup (getIpv4_5tuple m ipv4Mask) = some k) :
      Advanced w (.lookingUp m env) w (.counting m k)
  | created {m : RteMbuf} {env : PacketEnv} (halloc : env.allocOut = true) :
      Advanced w (.creating m env) (startFlow w m env) (.insertingOut m env w.serial)
  | insertedOut {m : RteMbuf} {env : PacketEnv} {n : ℕ} :
      Advanced w (.insertingOut m env n) (insertKey w (.out n) env.addOut)
        (if env.addOut then .buildingBack m env n else .returned .hashMapOperation m)
  | builtBack {m : RteMbuf} {env : PacketEnv} {n : ℕ} (halloc : env.allocBack = true) :
      Advanced w (.buildingBack m env n) (buildBack w n) (.insertingBack m env n)
  | insertedBack {m : RteMbuf} {env : PacketEnv} {n : ℕ} :
      Advanced w (.insertingBack m env n) (insertKey w (.back n) env.addBack)
        (.linking m env n)
  | linked {m : RteMbuf} {env : PacketEnv} {n : ℕ} :
      Advanced w (.linking m env n) (linkOut w n)
        (if env.addBack then finishCall (linkOut w n) m (.out n)
          else .returned .hashMapOperation m)
  | counted {m : RteMbuf} {k : KeyPtr} :
      Advanced w (.counting m k) (countPacket w k m.pktLen)
        (if wantsOffload ((countPacket w k m.pktLen).keys k) then .enqueueing m k
          else finishCall (countPacket w k m.pktLen) m k)
  | refused {m : RteMbuf} {k : KeyPtr} (henq : w.flowRulesRing.enqueue k = none) :
      Advanced w (.enqueueing m k) w (finishCall w m k)
  | enqueued {m : RteMbuf} {k : KeyPtr} {ring : BoundedFifo KeyPtr}
      (henq : w.flowRulesRing.enqueue k = some ring) :
      Advanced w (.enqueueing m k) { w with flowRulesRing := ring } (.marking m k)
  | marked {m : RteMbuf} {k : KeyPtr} :
      Advanced w (.marking m k) (markOffloading w k) (finishCall (markOffloading w k) m k)

/-- Every atomic step is one of the cases. -/
theorem advanced_of_callAdvance {w w' : World} {pc pc' : CallPc}
    (h : callAdvance w pc = some (w', pc')) : Advanced w pc w' pc' := by
  cases pc with
  | lookingUp m env =>
      simp only [callAdvance] at h
      cases hs : supportedPacketType m.packetType with
      | false =>
          rw [hs] at h
          obtain ⟨rfl, rfl⟩ := Prod.mk.inj (Option.some.inj h)
          exact .rejected hs
      | true =>
          rw [hs] at h
          cases hk : w.flowHashMap.lookup (getIpv4_5tuple m ipv4Mask) with
          | none =>
              simp only [rteHashLookupData, hk, if_true] at h
              obtain ⟨rfl, rfl⟩ := Prod.mk.inj (Option.some.inj h)
              exact .missed ⟨hs, AList.lookup_eq_none.mp hk⟩
          | some k =>
              simp only [rteHashLookupData, hk, if_true] at h
              obtain ⟨rfl, rfl⟩ := Prod.mk.inj (Option.some.inj h)
              exact .found hs hk
  | creating m env =>
      simp only [callAdvance] at h
      split at h
      next halloc =>
        obtain ⟨rfl, rfl⟩ := Prod.mk.inj (Option.some.inj h)
        exact .created halloc
      · cases h
  | insertingOut m env n =>
      obtain ⟨rfl, rfl⟩ := Prod.mk.inj (Option.some.inj h)
      exact .insertedOut
  | buildingBack m env n =>
      simp only [callAdvance] at h
      split at h
      next halloc =>
        obtain ⟨rfl, rfl⟩ := Prod.mk.inj (Option.some.inj h)
        exact .builtBack halloc
      · cases h
  | insertingBack m env n =>
      obtain ⟨rfl, rfl⟩ := Prod.mk.inj (Option.some.inj h)
      exact .insertedBack
  | linking m env n =>
      obtain ⟨rfl, rfl⟩ := Prod.mk.inj (Option.some.inj h)
      exact .linked
  | counting m k =>
      obtain ⟨rfl, rfl⟩ := Prod.mk.inj (Option.some.inj h)
      exact .counted
  | enqueueing m k =>
      simp only [callAdvance] at h
      split at h
      next henq =>
        obtain ⟨rfl, rfl⟩ := Prod.mk.inj (Option.some.inj h)
        exact .refused henq
      next ring henq =>
        obtain ⟨rfl, rfl⟩ := Prod.mk.inj (Option.some.inj h)
        exact .enqueued henq
  | marking m k =>
      obtain ⟨rfl, rfl⟩ := Prod.mk.inj (Option.some.inj h)
      exact .marked
  | returned ret m => cases h

/-! ### What a call is doing -/

/-- The key a call has inserted and not linked yet. -/
def CallPc.publishing : CallPc → Option KeyPtr
  | .buildingBack _ _ n | .insertingBack _ _ n | .linking _ _ n => some (.out n)
  | _ => none

/-- The flow a call has started and not finished. -/
def CallPc.opening : CallPc → Option ℕ
  | .insertingOut _ _ n | .buildingBack _ _ n | .insertingBack _ _ n | .linking _ _ n => some n
  | _ => none

/-- The key of a known flow a call is busy with. -/
def CallPc.known : CallPc → Option KeyPtr
  | .counting _ k | .enqueueing _ k | .marking _ k => some k
  | _ => none

@[simp] theorem publishing_finishCall (w : World) (m : RteMbuf) (k : KeyPtr) :
    (finishCall w m k).publishing = none := rfl

@[simp] theorem opening_finishCall (w : World) (m : RteMbuf) (k : KeyPtr) :
    (finishCall w m k).opening = none := rfl

@[simp] theorem known_finishCall (w : World) (m : RteMbuf) (k : KeyPtr) :
    (finishCall w m k).known = none := rfl

/-! ### What a step leaves alone -/

section

variable {w w' : World} {pc pc' : CallPc} (h : Advanced w pc w' pc')
include h

theorem Advanced.serial_le : w.serial ≤ w'.serial := by
  cases h with
  | created _ => exact Nat.le_succ _
  | _ => exact le_refl _

/-- Workers leave what the engine dequeued alone. -/
theorem Advanced.burst : w'.burst = w.burst := by
  cases h <;> rfl

/-- Only a call that takes a port changes the pool. -/
theorem Advanced.portPool : w'.portPool = w.portPool ∨ ∃ m env, pc = .creating m env ∧
    w' = startFlow w m env ∧ pc' = .insertingOut m env w.serial := by
  cases h with
  | created _ => exact Or.inr ⟨_, _, rfl, rfl, rfl⟩
  | _ => exact Or.inl rfl

/-- An out-direction key in memory keeps its rewritten tuple. -/
theorem Advanced.modifyTuple {n : ℕ} (hn : n < w.serial) :
    (w'.keys (.out n)).modifyTuple = (w.keys (.out n)).modifyTuple := by
  cases h with
  | created _ =>
      have hne : KeyPtr.out n ≠ .out w.serial :=
        fun heq => hn.ne (congrArg KeyPtr.serial heq)
      rw [startFlow_keys_of_ne hne]
  | builtBack _ => rw [buildBack_keys_of_ne (KeyPtr.out_ne_back _ _)]
  | @linked _ _ n' =>
      by_cases heq : KeyPtr.out n = .out n'
      · rw [heq, linkOut_keys_self]
      · rw [linkOut_keys_of_ne heq]
  | counted => exact (keepsFlows_countPacket w _ _).modifyTuple _
  | marked => exact (keepsFlows_markOffloading w _).modifyTuple _
  | _ => rfl

/-- A call of a known flow keeps flows, and ends with the rewrite of its key. -/
theorem Advanced.known {k : KeyPtr} (hk : pc.known = some k) :
    KeepsFlows w w' ∧ (pc'.known = some k ∨ ∃ m, pc' = finishCall w' m k) := by
  cases h with
  | counted =>
      obtain rfl := Option.some.inj hk
      refine ⟨keepsFlows_countPacket w _ _, ?_⟩
      split
      · exact Or.inl rfl
      · exact Or.inr ⟨_, rfl⟩
  | refused _ =>
      obtain rfl := Option.some.inj hk
      exact ⟨.refl w, Or.inr ⟨_, rfl⟩⟩
  | enqueued _ =>
      obtain rfl := Option.some.inj hk
      exact ⟨.setQueue w _ _, Or.inl rfl⟩
  | marked =>
      obtain rfl := Option.some.inj hk
      exact ⟨keepsFlows_markOffloading w _, Or.inr ⟨_, rfl⟩⟩
  | _ => cases hk

end

/-! ### A call by itself -/

/-- One step of a call nobody interrupts. -/
def CallStep (a b : World × CallPc) : Prop := callAdvance a.1 a.2 = some b

/-- The steps of a call nobody interrupts. -/
abbrev Advances : World × CallPc → World × CallPc → Prop := Relation.ReflTransGen CallStep

/-- A call that is over stays where it is. -/
theorem eq_of_advances_returned {w : World} {ret : SmtoErrorCode} {m : RteMbuf}
    {x : World × CallPc} (h : Advances (w, .returned ret m) x) : x = (w, .returned ret m) := by
  rcases h.cases_head with heq | ⟨y, hstep, -⟩
  · exact heq.symm
  · cases hstep

/-- A call that is not over goes on with its next step. -/
theorem advanced_of_advances {w a : World} {pc : CallPc} {ret : SmtoErrorCode} {m : RteMbuf}
    (h : Advances (w, pc) (a, .returned ret m)) (hpc : ∀ ret m, pc ≠ .returned ret m) :
    ∃ w' pc', Advanced w pc w' pc' ∧ Advances (w', pc') (a, .returned ret m) := by
  rcases h.cases_head with heq | ⟨⟨w', pc'⟩, hstep, hrest⟩
  · exact absurd (congrArg Prod.snd heq) (hpc ret m)
  · exact ⟨w', pc', advanced_of_callAdvance hstep, hrest⟩

/-- The first two steps are everything up to the first insertion. -/
theorem insertKey_startFlow (w : World) (m : RteMbuf) (env : PacketEnv) :
    insertKey (startFlow w m env) (.out w.serial) env.addOut =
      addFlow w (nextFlowKey w m (getIpv4_5tuple m ipv4Mask) env) env := by
  simp only [insertKey, startFlow, addFlow, Function.update_self]

/-- The last three are everything after it. -/
theorem linkOut_insertKey_buildBack (w : World) (n : ℕ) (ok : Bool) :
    linkOut (insertKey (buildBack w n) (.back n) ok) n =
      addSymmetricalFlow w n (w.keys (.out n)) ok := by
  simp only [linkOut, insertKey, buildBack, addSymmetricalFlow, World.modifyKey,
    Function.update_self, Function.update_of_ne (KeyPtr.out_ne_back n n)]

/-- The end of a call that opens a flow. -/
theorem createFlow_of_advances {w a : World} {m m' : RteMbuf} {env : PacketEnv}
    {ret : SmtoErrorCode} (h : Advances (w, .creating m env) (a, .returned ret m')) :
    ∃ adds, createFlow w m (getIpv4_5tuple m ipv4Mask) env = some ⟨ret, m', a, adds⟩ := by
  obtain ⟨w₁, pc₁, hstep₁, h⟩ := advanced_of_advances h (by simp)
  cases hstep₁ with
  | created halloc =>
  obtain ⟨w₂, pc₂, hstep₂, h⟩ := advanced_of_advances h (by simp)
  cases hstep₂ with
  | insertedOut =>
  rw [insertKey_startFlow] at h
  have hout := addFlow_keys_self w (nextFlowKey w m (getIpv4_5tuple m ipv4Mask) env) env
  cases hadd : env.addOut with
  | false =>
      simp only [hadd] at h
      obtain ⟨rfl, rfl, rfl⟩ : a = _ ∧ ret = _ ∧ m' = _ := by
        simpa using eq_of_advances_returned h
      exact ⟨_, by simp [createFlow, halloc, hadd]; rfl⟩
  | true =>
      simp only [hadd, if_true] at h
      obtain ⟨w₃, pc₃, hstep₃, h⟩ := advanced_of_advances h (by simp)
      cases hstep₃ with
      | builtBack hback =>
      obtain ⟨w₄, pc₄, hstep₄, h⟩ := advanced_of_advances h (by simp)
      cases hstep₄ with
      | insertedBack =>
      obtain ⟨w₅, pc₅, hstep₅, h⟩ := advanced_of_advances h (by simp)
      cases hstep₅ with
      | linked =>
      rw [linkOut_insertKey_buildBack, hout] at h
      cases hadd' : env.addBack with
      | false =>
          simp only [hadd'] at h
          obtain ⟨rfl, rfl, rfl⟩ : a = _ ∧ ret = _ ∧ m' = _ := by
            simpa using eq_of_advances_returned h
          exact ⟨_, by simp [createFlow, halloc, hadd, hback, hadd']; rfl⟩
      | true =>
          simp only [hadd', if_true, finishCall] at h
          obtain ⟨rfl, rfl, rfl⟩ : a = _ ∧ ret = _ ∧ m' = _ := by
            simpa using eq_of_advances_returned h
          exact ⟨_, by simp [createFlow, halloc, hadd, hback, hadd', addSymmetricalFlow]; rfl⟩

/-- **A call nobody interrupts opens its flow** as `createFlow` does. -/
theorem advances_of_createFlow {w : World} {m : RteMbuf} {env : PacketEnv} {r : PacketResult}
    (h : createFlow w m (getIpv4_5tuple m ipv4Mask) env = some r) :
    Advances (w, .creating m env) (r.world, .returned r.ret r.mbuf) := by
  obtain ⟨halloc, hcase⟩ := createFlow_cases h
  have hcreated : CallStep (w, .creating m env)
      (startFlow w m env, .insertingOut m env w.serial) := by
    simp [CallStep, callAdvance, halloc]
  have hinserted : CallStep (startFlow w m env, .insertingOut m env w.serial)
      (addFlow w (nextFlowKey w m (getIpv4_5tuple m ipv4Mask) env) env,
        if env.addOut then .buildingBack m env w.serial
        else .returned .hashMapOperation m) := by
    simp [CallStep, callAdvance, insertKey_startFlow]
  refine .head hcreated (.head hinserted ?_)
  generalize hw₁ : addFlow w (nextFlowKey w m (getIpv4_5tuple m ipv4Mask) env) env = w₁ at *
  have hout : w₁.keys (.out w.serial) = nextFlowKey w m (getIpv4_5tuple m ipv4Mask) env := by
    rw [← hw₁, addFlow_keys_self]
  rcases hcase with ⟨hadd, rfl⟩ | ⟨hadd, hback, rfl⟩
  · rw [hadd]
    exact .refl
  · have hbuilt : CallStep (w₁, .buildingBack m env w.serial)
        (buildBack w₁ w.serial, .insertingBack m env w.serial) := by
      simp [CallStep, callAdvance, hback]
    have hinserted' : CallStep (buildBack w₁ w.serial, .insertingBack m env w.serial)
        (insertKey (buildBack w₁ w.serial) (.back w.serial) env.addBack,
          .linking m env w.serial) := rfl
    rw [if_pos hadd]
    refine .head hbuilt (.head hinserted' (.single ?_))
    simp only [CallStep, callAdvance, linkOut_insertKey_buildBack, hout, finishCall]
    cases env.addBack <;> simp [addSymmetricalFlow]

/-- **A call nobody interrupts counts a frame** as `knownFlow` does. -/
theorem advances_known (w : World) (m : RteMbuf) (k : KeyPtr) :
    Advances (w, .counting m k)
      ((knownFlow w m k).world, .returned .success (knownFlow w m k).mbuf) := by
  have hcounted : CallStep (w, .counting m k) (countPacket w k m.pktLen,
      if wantsOffload ((countPacket w k m.pktLen).keys k) then .enqueueing m k
      else finishCall (countPacket w k m.pktLen) m k) := rfl
  refine .head hcounted ?_
  simp only [knownFlow]
  generalize countPacket w k m.pktLen = w₁
  unfold requestOffload
  split
  next hwants =>
    split
    next henq =>
      exact .single (by simp [CallStep, callAdvance, henq, finishCall])
    next ring henq =>
      have hmarked : CallStep ({ w₁ with flowRulesRing := ring }, .marking m k)
          (markOffloading { w₁ with flowRulesRing := ring } k,
            finishCall (markOffloading { w₁ with flowRulesRing := ring } k) m k) := rfl
      exact .head (b := ({ w₁ with flowRulesRing := ring }, .marking m k))
        (by simp [CallStep, callAdvance, henq]) (.single hmarked)
  · exact .refl

/-- **A call nobody interrupts is a call of `packet_processing`.** -/
theorem advances_of_packetProcessing {w : World} {m : RteMbuf} {env : PacketEnv}
    {r : PacketResult} (h : packetProcessing w m env = some r) :
    Advances (w, .lookingUp m env) (r.world, .returned r.ret r.mbuf) := by
  rcases packetProcessing_cases w m env with ⟨heq, hno⟩ | ⟨heq, hopen⟩ | ⟨k, heq, hs, hk⟩
  · rw [heq] at h
    obtain rfl := Option.some.inj h
    exact .single (by simp [CallStep, callAdvance, hno])
  · rw [heq] at h
    refine .head (b := (w, .creating m env)) ?_ (advances_of_createFlow h)
    simp [CallStep, callAdvance, hopen.1, rteHashLookupData, hopen.lookup]
  · rw [heq] at h
    obtain rfl := Option.some.inj h
    refine .head (b := (w, .counting m k)) ?_ (advances_known w m k)
    simp [CallStep, callAdvance, hs, rteHashLookupData, hk]

/-! ### Workers and engine -/

/-- A step of the flow engine. -/
inductive EngineEvent where
  | dequeueBurst
  | create (ok : Bool)
  | resolve
  deriving DecidableEq, Repr

/-- The same step where engine and worker are threads. -/
def EngineEvent.toThreadEvent : EngineEvent → ThreadEvent
  | .dequeueBurst => .dequeueBurst
  | .create ok => .create ok
  | .resolve => .resolve

/-- A step of `create_flow_loop`. -/
def engineStep (w : World) (pc : EnginePc) (e : EngineEvent) : Option (World × EnginePc) :=
  match threadStep ⟨w, .idle, pc⟩ e.toThreadEvent with
  | none => none
  | some (t, _) => some (t.world, t.engine)

/-- The shared state, the calls of the workers, and the engine. -/
structure Workers (ι : Type) where
  world : World
  calls : ι → CallPc
  engine : EnginePc

/-- One thing that happens. -/
inductive WorkersEvent (ι : Type) where
  /-- A worker starts a call. -/
  | call (i : ι) (m : RteMbuf) (env : PacketEnv)
  /-- A worker takes one step. -/
  | advance (i : ι)
  /-- The engine takes one step. -/
  | engine (e : EngineEvent)

variable {ι : Type} [DecidableEq ι]

/-- One atomic step of one of the threads. -/
def workersStep (s : Workers ι) : WorkersEvent ι → Option (Workers ι × List Empty)
  | .call i m env =>
      match s.calls i with
      | .returned _ _ =>
          some ({ s with calls := Function.update s.calls i (.lookingUp m env) }, [])
      | _ => none
  | .advance i =>
      match callAdvance s.world (s.calls i) with
      | none => none
      | some (w', pc') =>
          some ({ s with world := w', calls := Function.update s.calls i pc' }, [])
  | .engine e =>
      match engineStep s.world s.engine e with
      | none => none
      | some (w', pc') => some ({ s with world := w', engine := pc' }, [])

/-- **Any number of workers and the flow engine**, over the state `init_smto` leaves
behind. -/
def workersMachine (ι : Type) [DecidableEq ι] :
    Machine (Workers ι) (WorkersEvent ι) Empty where
  Init s := offloadMachine.Init s.world ∧ (∀ i, ∃ ret m, s.calls i = .returned ret m) ∧
    s.engine = .polling
  step := workersStep

/-- **What one atomic step can do**, by cases. -/
inductive WorkersStepped (s : Workers ι) : WorkersEvent ι → Workers ι → Prop where
  | called {i : ι} {m : RteMbuf} {env : PacketEnv} {ret : SmtoErrorCode} {m' : RteMbuf}
      (hidle : s.calls i = .returned ret m') :
      WorkersStepped s (.call i m env)
        { s with calls := Function.update s.calls i (.lookingUp m env) }
  | advanced {i : ι} {w' : World} {pc' : CallPc}
      (hstep : Advanced s.world (s.calls i) w' pc') :
      WorkersStepped s (.advance i)
        { s with world := w', calls := Function.update s.calls i pc' }
  | engine {e : EngineEvent} {w' : World} {pc' : EnginePc}
      (hstep : engineStep s.world s.engine e = some (w', pc')) :
      WorkersStepped s (.engine e) { s with world := w', engine := pc' }

/-- Every step is one of the cases. -/
theorem workersStepped_of_step {s s' : Workers ι} {e : WorkersEvent ι} {os : List Empty}
    (h : workersStep s e = some (s', os)) : WorkersStepped s e s' := by
  cases e with
  | call i m env =>
      simp only [workersStep] at h
      split at h
      next hidle =>
        obtain ⟨rfl, -⟩ := Prod.mk.inj (Option.some.inj h)
        exact .called hidle
      · cases h
  | advance i =>
      simp only [workersStep] at h
      split at h
      · cases h
      next w' pc' hstep =>
        obtain ⟨rfl, -⟩ := Prod.mk.inj (Option.some.inj h)
        exact .advanced (advanced_of_callAdvance hstep)
  | engine e =>
      simp only [workersStep] at h
      split at h
      · cases h
      next w' pc' hstep =>
        obtain ⟨rfl, -⟩ := Prod.mk.inj (Option.some.inj h)
        exact .engine hstep

end SmartOffload
