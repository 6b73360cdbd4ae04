import SmartOffload.Calls
import SmartOffload.PortExclusivity

/-!
# One flow, two workers

Both ports have workers, and two of them can meet the same new flow.  The lookup and
the insertion are two operations of a call, and nothing makes a worker look again
before it inserts.  So two calls can both miss, both take a port and both enter a
pair; the second one replaces the entry of the first, and the connection is split
over two source ports.

`run_twoCalls` follows the two calls through every order of their steps: as long as
nobody looks up between the other one's lookup and its insertion, one of them opens
the flow and the other one finds it (`OneOpener`); otherwise both open it
(`TwoOpeners`), and stay two.
-/

namespace SmartOffload

/-! ### The steps of an opening call, up to what flows do not depend on -/

section

variable {α : Type} {field : SmtoFlowKey → α} {f g : KeyPtr → SmtoFlowKey}

/-- Fields that agree before a write of agreeing fields agree after it. -/
theorem field_update_congr (h : ∀ k, field (g k) = field (f k)) (p : KeyPtr)
    {x y : SmtoFlowKey} (hxy : field y = field x) (k : KeyPtr) :
    field (Function.update g p y k) = field (Function.update f p x k) := by
  by_cases hk : k = p
  · rw [hk, Function.update_self, Function.update_self, hxy]
  · rw [Function.update_of_ne hk, Function.update_of_ne hk, h]

end

namespace KeepsFlows

variable {a b : World} (h : KeepsFlows a b)
include h

theorem startFlow (m : RteMbuf) (env : PacketEnv) :
    KeepsFlows (startFlow a m env) (startFlow b m env) where
  mode := h.mode
  port0 := h.port0
  port1 := h.port1
  flowHashMap := h.flowHashMap
  portPool := congrArg (fun pool => (dequeuePortObject pool).2) h.portPool
  allocated := by simp only [SmartOffload.startFlow, h.serial, h.allocated]
  serial := congrArg Nat.succ h.serial
  tuple k := by
    simp only [SmartOffload.startFlow, nextFlowKey, h.serial, h.portPool]
    exact field_update_congr h.tuple _ rfl k
  modifyTuple k := by
    simp only [SmartOffload.startFlow, nextFlowKey, h.serial, h.portPool]
    exact field_update_congr h.modifyTuple _ rfl k
  link k := by
    simp only [SmartOffload.startFlow, nextFlowKey, h.serial, h.portPool]
    exact field_update_congr h.link _ rfl k

theorem insertKey (k : KeyPtr) (ok : Bool) :
    KeepsFlows (insertKey a k ok) (insertKey b k ok) where
  mode := h.mode
  port0 := h.port0
  port1 := h.port1
  flowHashMap := by simp only [SmartOffload.insertKey, h.flowHashMap, h.tuple]
  portPool := h.portPool
  allocated := h.allocated
  serial := h.serial
  tuple := h.tuple
  modifyTuple := h.modifyTuple
  link := h.link

theorem buildBack (n : ℕ) : KeepsFlows (buildBack a n) (buildBack b n) := by
  have hkey : newSymmetricalFlowKey (.out n) (b.keys (.out n)) =
      newSymmetricalFlowKey (.out n) (a.keys (.out n)) := by
    simp only [newSymmetricalFlowKey, h.tuple, h.modifyTuple]
  exact ⟨h.mode, h.port0, h.port1, h.flowHashMap, h.portPool, h.allocated, h.serial,
    field_update_congr h.tuple _ (by rw [hkey]),
    field_update_congr h.modifyTuple _ (by rw [hkey]),
    field_update_congr h.link _ (by rw [hkey])⟩

theorem linkOut (n : ℕ) : KeepsFlows (linkOut a n) (linkOut b n) :=
  ⟨h.mode, h.port0, h.port1, h.flowHashMap, h.portPool, h.allocated, h.serial,
    field_update_congr h.tuple _ (h.tuple _), field_update_congr h.modifyTuple _ (h.modifyTuple _),
    field_update_congr h.link _ rfl⟩

end KeepsFlows

/-! ### A call that opens a flow -/

/-- **How far a call has come** with opening its flow, when nothing has failed: the
shared state as it would be without anybody else, and where the call stands. -/
inductive Opening (w : World) (m : RteMbuf) (env : PacketEnv) : World → CallPc → Prop where
  | creating : Opening w m env w (.creating m env)
  | insertingOut (halloc : env.allocOut = true) :
      Opening w m env (startFlow w m env) (.insertingOut m env w.serial)
  | buildingBack (halloc : env.allocOut = true) (hadd : env.addOut = true) :
      Opening w m env (addFlow w (nextFlowKey w m (getIpv4_5tuple m ipv4Mask) env) env)
        (.buildingBack m env w.serial)
  | insertingBack (halloc : env.allocOut = true) (hadd : env.addOut = true)
      (hback : env.allocBack = true) :
      Opening w m env
        (buildBack (addFlow w (nextFlowKey w m (getIpv4_5tuple m ipv4Mask) env) env) w.serial)
        (.insertingBack m env w.serial)
  | linking (halloc : env.allocOut = true) (hadd : env.addOut = true)
      (hback : env.allocBack = true) :
      Opening w m env
        (insertKey
          (buildBack (addFlow w (nextFlowKey w m (getIpv4_5tuple m ipv4Mask) env) env) w.serial)
          (.back w.serial) env.addBack)
        (.linking m env w.serial)
  | returned (hadd : env.addOut = true) (hadd' : env.addBack = true) :
      Opening w m env
        (addSymmetricalFlow (addFlow w (nextFlowKey w m (getIpv4_5tuple m ipv4Mask) env) env)
          w.serial (nextFlowKey w m (getIpv4_5tuple m ipv4Mask) env) env.addBack)
        (.returned .success
          (modifyPacket m (nextFlowKey w m (getIpv4_5tuple m ipv4Mask) env).modifyTuple))

/-- A call is between its lookup and its first insertion. -/
def CallPc.claiming : CallPc → Bool
  | .creating _ _ | .insertingOut _ _ _ => true
  | _ => false

/-- A call is about to look its flow up. -/
def CallPc.atLookup : CallPc → Bool
  | .lookingUp _ _ => true
  | _ => false

theorem CallPc.not_atLookup_of_known {pc : CallPc} {k : KeyPtr} (h : pc.known = some k) :
    pc.atLookup = false := by
  cases pc with
  | lookingUp _ _ => cases h
  | _ => rfl

/-- The translated source a number of the pool stands for. -/
def natSource (v : ℕ) : UInt32 × UInt16 := (rteCpuToBe32 srcIp, portOfNumber v)

/-- A call that failed. -/
def CallPc.failed (pc : CallPc) : Prop := ∃ ret m, pc = .returned ret m ∧ ret ≠ .success

theorem CallPc.not_failed_of_success {pc : CallPc} {m : RteMbuf} (h : pc = .returned .success m) :
    ¬ pc.failed := by
  rintro ⟨ret, m', hpc, hret⟩
  rw [h] at hpc
  cases hpc
  exact hret rfl

namespace Opening

variable {w a b b' : World} {m : RteMbuf} {env : PacketEnv} {pc pc' : CallPc}

/-- **The step lemma**: whatever others do to counters, status and queue, the call goes
on as it would alone, or fails. -/
theorem step (h : Opening w m env a pc) (hkeep : KeepsFlows a b)
    (hstep : Advanced b pc b' pc') :
    pc'.failed ∨ ∃ a', Opening w m env a' pc' ∧ KeepsFlows a' b' := by
  cases h with
  | creating =>
      cases hstep with
      | created halloc =>
          rw [hkeep.serial]
          exact Or.inr ⟨_, .insertingOut halloc, hkeep.startFlow m env⟩
  | insertingOut halloc =>
      cases hstep with
      | insertedOut =>
          cases hadd : env.addOut with
          | false => exact Or.inl ⟨_, _, rfl, by simp⟩
          | true =>
              refine Or.inr ⟨_, .buildingBack halloc hadd, ?_⟩
              rw [← insertKey_startFlow, hadd]
              exact hkeep.insertKey _ _
  | buildingBack halloc hadd =>
      cases hstep with
      | builtBack hback =>
          exact Or.inr ⟨_, .insertingBack halloc hadd hback, hkeep.buildBack _⟩
  | insertingBack halloc hadd hback =>
      cases hstep with
      | insertedBack => exact Or.inr ⟨_, .linking halloc hadd hback, hkeep.insertKey _ _⟩
  | linking halloc hadd hback =>
      cases hstep with
      | linked =>
          cases hadd' : env.addBack with
          | false => exact Or.inl ⟨_, _, rfl, by simp⟩
          | true =>
              have hkeep' := hkeep.linkOut w.serial
              rw [linkOut_insertKey_buildBack, addFlow_keys_self] at hkeep'
              have hmodify := hkeep'.modifyTuple (.out w.serial)
              rw [show (addSymmetricalFlow _ w.serial _ _).keys (.out w.serial) = _ from
                Function.update_self ..] at hmodify
              rw [if_pos rfl, finishCall, hmodify]
              exact Or.inr ⟨_, .returned hadd hadd', hkeep'⟩
  | returned _ _ => cases hstep

/-- Up to the first insertion the table is as it was. -/
theorem table_of_claiming (h : Opening w m env a pc) (hpc : pc.claiming = true) :
    a.flowHashMap = w.flowHashMap := by
  cases h with
  | creating => rfl
  | insertingOut _ => rfl
  | _ => cases hpc

/-- From the first insertion on the flow's tuple leads to a key: to the call's
out-direction key, unless the second insertion is under the same tuple. -/
theorem lookup_of_not_claiming (h : Opening w m env a pc) (hpc : pc.claiming = false) :
    ∃ k, a.flowHashMap.lookup (getIpv4_5tuple m ipv4Mask) = some k ∧
      (replyTuple w m ≠ getIpv4_5tuple m ipv4Mask → k = .out w.serial) := by
  have hfirst : ∀ {a : World}, env.addOut = true →
      a.flowHashMap =
        (addFlow w (nextFlowKey w m (getIpv4_5tuple m ipv4Mask) env) env).flowHashMap →
      a.flowHashMap.lookup (getIpv4_5tuple m ipv4Mask) = some (.out w.serial) := by
    intro a hadd htable
    rw [htable]
    exact (lookup_rteHashAddKeyData ..).trans (if_pos ⟨hadd, rfl⟩)
  have hsecond : ∀ {a : World},
      a.flowHashMap = rteHashAddKeyData
        (addFlow w (nextFlowKey w m (getIpv4_5tuple m ipv4Mask) env) env).flowHashMap
        (replyTuple w m) (.back w.serial) env.addBack → env.addOut = true →
      ∃ k, a.flowHashMap.lookup (getIpv4_5tuple m ipv4Mask) = some k ∧
        (replyTuple w m ≠ getIpv4_5tuple m ipv4Mask → k = .out w.serial) := by
    intro a htable hadd
    rw [htable, lookup_rteHashAddKeyData]
    split
    next hsame => exact ⟨_, rfl, fun hne => absurd hsame.2.symm hne⟩
    · exact ⟨_, hfirst hadd rfl, fun _ => rfl⟩
  cases h with
  | creating => cases hpc
  | insertingOut _ => cases hpc
  | buildingBack _ hadd => exact ⟨_, hfirst hadd rfl, fun _ => rfl⟩
  | insertingBack _ hadd _ => exact ⟨_, hfirst hadd rfl, fun _ => rfl⟩
  | linking _ hadd _ =>
      refine hsecond ?_ hadd
      rw [insertKey, buildBack_keys_self, addFlow_keys_self, newSymmetricalFlowKey_tuple]
      rfl
  | returned hadd _ =>
      refine hsecond ?_ hadd
      rw [← newSymmetricalFlowKey_tuple w m env (.out w.serial)]
      rfl

theorem not_atLookup (h : Opening w m env a pc) : pc.atLookup = false := by
  cases h <;> rfl

/-- The end of a call that opened its flow. -/
theorem of_returned {ret : SmtoErrorCode} {m' : RteMbuf}
    (h : Opening w m env a (.returned ret m')) :
    (env.addOut = true ∧ env.addBack = true) ∧
      m' = modifyPacket m (nextFlowKey w m (getIpv4_5tuple m ipv4Mask) env).modifyTuple ∧
      a = addSymmetricalFlow
        (addFlow w (nextFlowKey w m (getIpv4_5tuple m ipv4Mask) env) env) w.serial
        (nextFlowKey w m (getIpv4_5tuple m ipv4Mask) env) env.addBack := by
  cases h with
  | returned hadd hadd' => exact ⟨⟨hadd, hadd'⟩, rfl, rfl⟩

/-- What is in the table then. -/
theorem lookup_of_returned {ret : SmtoErrorCode} {m' : RteMbuf}
    (h : Opening w m env a (.returned ret m')) (t : RdarmFiveTuple) :
    a.flowHashMap.lookup t =
      if t = replyTuple w m then some (.back w.serial)
      else if t = getIpv4_5tuple m ipv4Mask then some (.out w.serial)
      else w.flowHashMap.lookup t := by
  obtain ⟨⟨hadd, hadd'⟩, -, rfl⟩ := h.of_returned
  have htable : (addSymmetricalFlow
      (addFlow w (nextFlowKey w m (getIpv4_5tuple m ipv4Mask) env) env) w.serial
      (nextFlowKey w m (getIpv4_5tuple m ipv4Mask) env) env.addBack).flowHashMap =
        rteHashAddKeyData (rteHashAddKeyData w.flowHashMap (getIpv4_5tuple m ipv4Mask)
          (.out w.serial) env.addOut) (replyTuple w m) (.back w.serial) env.addBack := by
    rw [← newSymmetricalFlowKey_tuple w m env (.out w.serial)]
    rfl
  rw [htable, lookup_rteHashAddKeyData, lookup_rteHashAddKeyData]
  simp only [hadd, hadd', true_and]

/-- Once the call has taken its port, its out-direction key rewrites to it. -/
theorem source (h : Opening w m env a pc) (hpc : ∀ m env, pc ≠ .creating m env) :
    w.serial < a.serial ∧ (a.keys (.out w.serial)).modifyTuple.addressing.src =
      natSource (dequeuePortObject w.portPool).1 := by
  have hkey : (nextFlowKey w m (getIpv4_5tuple m ipv4Mask) env).modifyTuple.addressing.src =
      natSource (dequeuePortObject w.portPool).1 := rfl
  have hne : KeyPtr.out w.serial ≠ .back w.serial := KeyPtr.out_ne_back _ _
  rw [← hkey]
  cases h with
  | creating => exact absurd rfl (hpc m env)
  | insertingOut _ => exact ⟨Nat.lt_succ_self _, by rw [startFlow_keys_self]⟩
  | buildingBack _ _ => exact ⟨Nat.lt_succ_self _, by rw [addFlow_keys_self]⟩
  | insertingBack _ _ _ =>
      exact ⟨Nat.lt_succ_self _, by rw [buildBack_keys_of_ne hne, addFlow_keys_self]⟩
  | linking _ _ _ =>
      exact ⟨Nat.lt_succ_self _, by
        rw [insertKey_keys, buildBack_keys_of_ne hne, addFlow_keys_self]⟩
  | returned _ _ =>
      exact ⟨Nat.lt_succ_self _, by
        rw [addSymmetricalFlow]
        simp only [Function.update_self]⟩

end Opening

/-! ### Two calls -/

/-- The call has taken the number `v` for its flow: it is entering a key with that
source, or has rewritten its frame to it. -/
def Holds (w : World) (v : ℕ) (pc : CallPc) : Prop :=
  (∃ n, pc.opening = some n ∧ n < w.serial ∧
      (w.keys (.out n)).modifyTuple.addressing.src = natSource v) ∨
    ∃ ret m, pc = .returned ret m ∧ (ret = .success → m.addressing.src = natSource v)

namespace Holds

variable {w w' : World} {v : ℕ} {pc pc' pc₁ pc₁' : CallPc}

/-- The call's own steps. -/
theorem step (hholds : Holds w v pc) (h : Advanced w pc w' pc') : Holds w' v pc' := by
  rcases hholds with ⟨n, hn, hlt, hsrc⟩ | ⟨ret, m, rfl, -⟩
  · rw [← h.modifyTuple hlt] at hsrc
    have hlt' := hlt.trans_le h.serial_le
    cases h with
    | insertedOut =>
        split
        · exact Or.inl ⟨n, hn, hlt', hsrc⟩
        · exact Or.inr ⟨_, _, rfl, fun hret => by cases hret⟩
    | builtBack _ => exact Or.inl ⟨n, hn, hlt', hsrc⟩
    | insertedBack => exact Or.inl ⟨n, hn, hlt', hsrc⟩
    | linked =>
        obtain rfl := Option.some.inj hn
        split
        · refine Or.inr ⟨_, _, rfl, fun _ => ?_⟩
          rw [modifyPacket_addressing]
          exact hsrc
        · exact Or.inr ⟨_, _, rfl, fun hret => by cases hret⟩
    | _ => cases hn
  · cases h

/-- The steps of others. -/
theorem frame (hholds : Holds w v pc) (h : Advanced w pc₁ w' pc₁') : Holds w' v pc := by
  refine hholds.imp_left fun ⟨n, hn, hlt, hsrc⟩ => ⟨n, hn, hlt.trans_le h.serial_le, ?_⟩
  rw [h.modifyTuple hlt, hsrc]

theorem not_creating (hholds : Holds w v pc) {m : RteMbuf} {env : PacketEnv} :
    pc ≠ .creating m env := by
  rintro rfl
  rcases hholds with ⟨n, hn, -⟩ | ⟨ret, m, hpc, -⟩
  · cases hn
  · cases hpc

theorem source_of_success {m : RteMbuf} (hholds : Holds w v (.returned .success m)) :
    m.addressing.src = natSource v := by
  rcases hholds with ⟨n, hn, -⟩ | ⟨ret, m', hpc, hsrc⟩
  · cases hn
  · obtain ⟨rfl, rfl⟩ := CallPc.returned.inj hpc
    exact hsrc rfl

/-- Taking the head of the pool. -/
theorem startFlow (w : World) (m : RteMbuf) (env : PacketEnv) :
    Holds (startFlow w m env) (dequeuePortObject w.portPool).1
      (.insertingOut m env w.serial) := by
  refine Or.inl ⟨w.serial, rfl, Nat.lt_succ_self _, ?_⟩
  rw [startFlow_keys_self]
  rfl

end Holds

section

variable (w : World) (m : Bool → RteMbuf) (env : Bool → PacketEnv)

/-- Two workers about to look the same flow up. -/
def twoCalls : Workers Bool := ⟨w, fun i => .lookingUp (m i) (env i), .polling⟩

/-- **Both calls open the flow**, in the state `w'`; `i` is the first one to take a
port. -/
inductive TwoOpeners (w' : World) (calls : Bool → CallPc) : Prop where
  | none (hpool : w'.portPool = w.portPool) (hboth : ∀ i, ∃ m env, calls i = .creating m env)
  | one (i : Bool) (hpool : w'.portPool = (dequeuePortObject w.portPool).2)
      (hfirst : Holds w' (dequeuePortObject w.portPool).1 (calls i))
      (hsecond : ∃ m env, calls (!i) = .creating m env)
  | two (i : Bool)
      (hpool : w'.portPool = (dequeuePortObject (dequeuePortObject w.portPool).2).2)
      (hfirst : Holds w' (dequeuePortObject w.portPool).1 (calls i))
      (hsecond : Holds w' (dequeuePortObject (dequeuePortObject w.portPool).2).1 (calls (!i)))

/-- A call has found the flow that another call opened in `w`, in the state `w'`. -/
def Served (w' : World) (m : RteMbuf) (pc : CallPc) : Prop :=
  (w.serial < w'.serial ∧ (w'.keys (.out w.serial)).modifyTuple.addressing.src =
      natSource (dequeuePortObject w.portPool).1) ∧
    ((∃ k, pc.known = some k ∧
        (replyTuple w m ≠ getIpv4_5tuple m ipv4Mask → k = .out w.serial)) ∨
      ∃ m', pc = .returned .success m' ∧ (replyTuple w m ≠ getIpv4_5tuple m ipv4Mask →
        m'.addressing.src = natSource (dequeuePortObject w.portPool).1))

/-- **One call opens the flow**; the other one has not looked it up, or has found it. -/
structure OneOpener (w' : World) (calls : Bool → CallPc) (i : Bool) : Prop where
  opening : ∃ a, Opening w (m i) (env i) a (calls i) ∧ KeepsFlows a w'
  other : calls (!i) = .lookingUp (m !i) (env !i) ∨ Served w w' (m i) (calls (!i))

end

/-- The guard: nobody looks up between the other one's lookup and its insertion. -/
def LookupSettled (s : Workers Bool) : WorkersEvent Bool → Prop
  | .advance i => (s.calls i).atLookup = true → (s.calls (!i)).claiming = false
  | _ => True

section

variable {w w₁ w₂ : World} {calls : Bool → CallPc} {i j : Bool} {pc' : CallPc}
  {m : Bool → RteMbuf} {env : Bool → PacketEnv}

theorem eq_or_eq_not (i j : Bool) : j = i ∨ j = !i := by
  cases i <;> cases j <;> decide

/-- The call that does not step stands still. -/
@[simp] theorem update_calls_not (calls : Bool → CallPc) (j : Bool) (pc' : CallPc) :
    Function.update calls j pc' (!j) = calls (!j) :=
  Function.update_of_ne (Bool.not_ne_self j) ..

@[simp] theorem update_calls_not' (calls : Bool → CallPc) (i : Bool) (pc' : CallPc) :
    Function.update calls (!i) pc' i = calls i :=
  Function.update_of_ne (Bool.not_ne_self i).symm ..

/-- A call that holds its port leaves the pool alone. -/
theorem Holds.portPool {v : ℕ} {pc : CallPc} (hholds : Holds w₁ v pc)
    (hstep : Advanced w₁ pc w₂ pc') : w₂.portPool = w₁.portPool :=
  hstep.portPool.resolve_right fun ⟨_, _, hpc, _⟩ => hholds.not_creating hpc

/-- **Two openers stay two.** -/
theorem TwoOpeners.step (h : TwoOpeners w w₁ calls) (hstep : Advanced w₁ (calls j) w₂ pc') :
    TwoOpeners w w₂ (Function.update calls j pc') := by
  cases h with
  | none hpool hboth =>
      obtain ⟨m, env, hj⟩ := hboth j
      rw [hj] at hstep
      cases hstep with
      | created _ =>
          have hfirst := Holds.startFlow w₁ m env
          rw [hpool] at hfirst
          refine .one j (by rw [← hpool]; rfl) ?_ ?_
          · rwa [Function.update_self]
          · rw [update_calls_not]
            exact hboth (!j)
  | one i hpool hfirst hsecond =>
      rcases eq_or_eq_not i j with rfl | rfl
      · refine .one j ((hfirst.portPool hstep).trans hpool) ?_ ?_
        · rw [Function.update_self]
          exact hfirst.step hstep
        · rwa [update_calls_not]
      · have hframe := hfirst.frame hstep
        obtain ⟨m, env, hj⟩ := hsecond
        rw [hj] at hstep
        cases hstep with
        | created _ =>
            have hsecond := Holds.startFlow w₁ m env
            rw [hpool] at hsecond
            refine .two i (by rw [← hpool]; rfl) ?_ ?_
            · rwa [update_calls_not']
            · rwa [Function.update_self]
  | two i hpool hfirst hsecond =>
      rcases eq_or_eq_not i j with rfl | rfl
      · refine .two j ((hfirst.portPool hstep).trans hpool) ?_ ?_
        · rw [Function.update_self]
          exact hfirst.step hstep
        · rw [update_calls_not]
          exact hsecond.frame hstep
      · refine .two i ((hsecond.portPool hstep).trans hpool) ?_ ?_
        · rw [update_calls_not']
          exact hfirst.frame hstep
        · rw [Function.update_self]
          exact hsecond.step hstep

/-- The call that found the flow goes on to the rewrite of the opener's key. -/
theorem Served.step {m : RteMbuf} {pc : CallPc} (h : Served w w₁ m pc)
    (hstep : Advanced w₁ pc w₂ pc') : KeepsFlows w₁ w₂ ∧ Served w w₂ m pc' := by
  obtain ⟨⟨hlt, hsrc⟩, ⟨k, hk, hout⟩ | ⟨m', rfl, -⟩⟩ := h
  · obtain ⟨hkeep, hpc⟩ := hstep.known hk
    have hsrc' : (w₂.keys (.out w.serial)).modifyTuple.addressing.src = _ :=
      (congrArg (fun t => t.addressing.src) (hkeep.modifyTuple _)).trans hsrc
    refine ⟨hkeep, ⟨hlt.trans_le hstep.serial_le, hsrc'⟩, ?_⟩
    rcases hpc with hpc | ⟨m', hpc⟩
    · exact Or.inl ⟨k, hpc, hout⟩
    · refine Or.inr ⟨_, hpc, fun hne => ?_⟩
      rw [hout hne, modifyPacket_addressing, hsrc']
  · cases hstep

theorem Served.frame {m : RteMbuf} {pc pc₁ : CallPc} (h : Served w w₁ m pc)
    (hstep : Advanced w₁ pc₁ w₂ pc') : Served w w₂ m pc := by
  obtain ⟨⟨hlt, hsrc⟩, hpc⟩ := h
  refine ⟨⟨hlt.trans_le hstep.serial_le, ?_⟩, hpc⟩
  rw [hstep.modifyTuple hlt, hsrc]

variable (hopen : ∀ i, OpensFlow w (m i))
  (htuple : ∀ i, getIpv4_5tuple (m i) ipv4Mask = getIpv4_5tuple (m !i) ipv4Mask)
include hopen

/-- The first lookup finds nothing. -/
theorem oneOpener_of_start (hstep : Advanced w (.lookingUp (m j) (env j)) w₂ pc') :
    OneOpener w m env w₂
      (Function.update (fun i => .lookingUp (m i) (env i)) j pc') j := by
  cases hstep with
  | rejected hno =>
      rw [(hopen j).1] at hno
      cases hno
  | found _ hk => exact absurd (hopen j) (not_opensFlow_of_lookup hk)
  | missed _ =>
      refine ⟨⟨w, ?_, .refl w⟩, Or.inl ?_⟩
      · rw [Function.update_self]
        exact .creating
      · rw [update_calls_not]

section

variable {a : World} (hopening : Opening w (m i) (env i) a (calls i)) (hkeep : KeepsFlows a w₁)
  (hstep : Advanced w₁ (.lookingUp (m !i) (env !i)) w₂ pc')
include hopening hkeep hstep

/-- The other call looks up before the flow is in the table: it opens the flow, too. -/
theorem twoOpeners_of_missed (hclaim : (calls i).claiming = true) :
    TwoOpeners w w₂ (Function.update calls (!i) pc') := by
  have htable := hkeep.flowHashMap.trans (hopening.table_of_claiming hclaim)
  cases hstep with
  | rejected hno =>
      rw [(hopen (!i)).1] at hno
      cases hno
  | found _ hk =>
      rw [htable] at hk
      exact absurd (hopen (!i)) (not_opensFlow_of_lookup hk)
  | missed _ =>
      have hsource := hopening.source
      rw [← hkeep.serial, ← hkeep.modifyTuple] at hsource
      generalize hpc : calls i = pc at hopening
      cases hopening with
      | creating =>
          refine .none hkeep.portPool fun j => ?_
          rcases eq_or_eq_not i j with rfl | rfl
          · exact ⟨_, _, by rw [update_calls_not', hpc]⟩
          · exact ⟨_, _, Function.update_self ..⟩
      | insertingOut _ =>
          refine .one i hkeep.portPool (Or.inl ⟨w.serial, ?_, ?_⟩) ⟨_, _, Function.update_self ..⟩
          · rw [update_calls_not', hpc]
            rfl
          · apply hsource
            intro m env hcreating
            rw [hpc] at hcreating
            cases hcreating
      | _ =>
          rw [hpc] at hclaim
          cases hclaim

include htuple

/-- The other call looks up after that: it finds it. -/
theorem oneOpener_of_found (hclaim : (calls i).claiming = false) :
    OneOpener w m env w₂ (Function.update calls (!i) pc') i := by
  obtain ⟨k, hk, hout⟩ := hopening.lookup_of_not_claiming hclaim
  rw [← hkeep.flowHashMap, htuple i] at hk
  cases hstep with
  | rejected hno =>
      rw [(hopen (!i)).1] at hno
      cases hno
  | missed hmiss => exact absurd hmiss (not_opensFlow_of_lookup hk)
  | found _ hk' =>
      rw [hk] at hk'
      obtain rfl := Option.some.inj hk'
      have hsource := hopening.source
      rw [← hkeep.serial, ← hkeep.modifyTuple] at hsource
      refine ⟨⟨a, ?_, hkeep⟩, Or.inr ?_⟩
      · rwa [update_calls_not']
      · rw [Function.update_self]
        refine ⟨hsource ?_, Or.inl ⟨k, rfl, hout⟩⟩
        intro m env hpc
        rw [hpc] at hclaim
        cases hclaim

end

include htuple

/-- **What becomes of one opener**: it fails, or it stays the only one, or the other call
looks up before the flow is in the table. -/
theorem OneOpener.step (h : OneOpener w m env w₁ calls i)
    (hstep : Advanced w₁ (calls j) w₂ pc') :
    ((calls j).atLookup = true → (calls (!j)).claiming = false) ∧
        (pc'.failed ∨ OneOpener w m env w₂ (Function.update calls j pc') i) ∨
      ¬ ((calls j).atLookup = true → (calls (!j)).claiming = false) ∧
        TwoOpeners w w₂ (Function.update calls j pc') := by
  obtain ⟨⟨a, hopening, hkeep⟩, hother⟩ := h
  rcases eq_or_eq_not i j with rfl | rfl
  · -- the opener's own step
    refine Or.inl ⟨?_, (hopening.step hkeep hstep).imp_right fun ⟨a', hopening', hkeep'⟩ => ?_⟩
    · rw [hopening.not_atLookup]
      exact fun hno => by cases hno
    · refine ⟨⟨a', ?_, hkeep'⟩, ?_⟩
      · rwa [Function.update_self]
      · rw [update_calls_not]
        exact hother.imp_right fun hserved => hserved.frame hstep
  · rw [Bool.not_not]
    rcases hother with hlooking | hserved
    · rw [hlooking] at hstep ⊢
      cases hclaim : (calls i).claiming with
      | false =>
          exact Or.inl ⟨fun _ => rfl,
            Or.inr (oneOpener_of_found hopen htuple hopening hkeep hstep hclaim)⟩
      | true =>
          exact Or.inr ⟨fun hguard => Bool.noConfusion (hguard rfl),
            twoOpeners_of_missed hopen hopening hkeep hstep hclaim⟩
    · -- the other call has found the flow
      obtain ⟨hkeep', hserved'⟩ := hserved.step hstep
      refine Or.inl ⟨fun hlookup => ?_, Or.inr ⟨⟨a, ?_, hkeep.trans hkeep'⟩, Or.inr ?_⟩⟩
      · obtain ⟨-, ⟨k, hk, -⟩ | ⟨m', hret, -⟩⟩ := hserved
        · rw [CallPc.not_atLookup_of_known hk] at hlookup
          cases hlookup
        · rw [hret] at hlookup
          cases hlookup
      · rwa [update_calls_not']
      · rwa [Function.update_self]

end

/-! ### Every order of the steps -/

section

variable (w : World) (m : Bool → RteMbuf) (env : Bool → PacketEnv)

/-- A call has failed, or nobody has looked up yet, or one call opens the flow. -/
def Settled (s : Workers Bool) : Prop :=
  (∃ i, (s.calls i).failed) ∨ s = twoCalls w m env ∨
    ∃ i, OneOpener w m env s.world s.calls i

variable {w m env} {s s' : Workers Bool} {j : Bool} {os : List Empty}
  (hopen : ∀ i, OpensFlow w (m i))
  (htuple : ∀ i, getIpv4_5tuple (m i) ipv4Mask = getIpv4_5tuple (m !i) ipv4Mask)
include hopen htuple

/-- **The step lemma**: what is settled stays so exactly when the step meets the guard,
and otherwise both calls open the flow. -/
theorem settled_step (h : Settled w m env s) (hstep : WorkersStepped s (.advance j) s') :
    LookupSettled s (.advance j) ∧ Settled w m env s' ∨
      ¬ LookupSettled s (.advance j) ∧ TwoOpeners w s'.world s'.calls := by
  cases hstep with
  | @advanced _ w' pc' hadvanced =>
      rcases h with ⟨i, hfailed⟩ | rfl | ⟨i, hone⟩
      · obtain ⟨ret, m', hi, hret⟩ := hfailed
        rcases eq_or_eq_not i j with rfl | rfl
        · rw [hi] at hadvanced
          cases hadvanced
        · refine Or.inl ⟨fun _ => ?_, Or.inl ⟨i, ret, m', ?_, hret⟩⟩
          · rw [Bool.not_not, hi]
            rfl
          · exact (update_calls_not' _ _ _).trans hi
      · exact Or.inl ⟨fun _ => rfl, Or.inr (Or.inr ⟨j, oneOpener_of_start hopen hadvanced⟩)⟩
      · refine (hone.step hopen htuple hadvanced).imp_left (And.imp_right ?_)
        rintro (hfailed | hone')
        · rw [← Function.update_self j pc' s.calls] at hfailed
          exact Or.inl ⟨j, hfailed⟩
        · exact Or.inr (Or.inr ⟨i, hone'⟩)

/-- A guarded run stays settled. -/
theorem settled_of_lookupSettled {es : List (WorkersEvent Bool)} {tr : List Empty}
    (h : (workersMachine Bool).RunWhile LookupSettled (twoCalls w m env) es tr s)
    (hes : ∀ e ∈ es, ∃ j, e = .advance j) : Settled w m env s := by
  induction h with
  | nil => exact Or.inr (Or.inl rfl)
  | @snoc es tr s s' e os _ hguard hstep ih =>
      obtain ⟨j, rfl⟩ := hes e (by simp)
      have hsettled := ih fun e he => hes e (List.mem_append_left _ he)
      rcases settled_step hopen htuple hsettled (workersStepped_of_step hstep) with
        ⟨-, h⟩ | ⟨hno, -⟩
      · exact h
      · exact absurd hguard hno

/-- A run that leaves the guard ends with two openers. -/
theorem lookupSettled_or_twoOpeners {es : List (WorkersEvent Bool)} {tr : List Empty}
    (h : (workersMachine Bool).Run (twoCalls w m env) es tr s)
    (hes : ∀ e ∈ es, ∃ j, e = .advance j) :
    (workersMachine Bool).RunWhile LookupSettled (twoCalls w m env) es tr s ∨
      TwoOpeners w s.world s.calls := by
  induction h with
  | nil => exact Or.inl .nil
  | @snoc es tr s s' e os _ _ hstep ih =>
      have hes' : ∀ e ∈ es, ∃ j, e = .advance j := fun e he => hes e (List.mem_append_left _ he)
      obtain ⟨j, rfl⟩ := hes e (by simp)
      have hstepped : WorkersStepped s (.advance j) s' := workersStepped_of_step hstep
      rcases ih hes' with hguard | htwo
      · have hsettled := settled_of_lookupSettled hopen htuple hguard hes'
        rcases settled_step hopen htuple hsettled hstepped with ⟨hsettled', -⟩ | ⟨-, htwo⟩
        · exact Or.inl (hguard.snoc hsettled' hstep)
        · exact Or.inr htwo
      · cases hstepped with
        | advanced hadvanced => exact Or.inr (htwo.step hadvanced)

end

/-! ### One flow -/

/-- **One flow**, of two calls that started in `w` on frames of tuple `t`: the table has
one pair for it and nothing else that is new, one number has left the pool, and both
frames leave from the source it stands for. -/
structure OneFlow (w : World) (t : RdarmFiveTuple) (s : Workers Bool) : Prop where
  pair : ∃ n p b, PairAt s.world n p b ∧ s.world.flowHashMap.lookup t = some (.out n) ∧
    s.world.flowHashMap.lookup (s.world.keys (.back n)).tuple = some (.back n) ∧
    ∀ t' k, s.world.flowHashMap.lookup t' = some k →
      w.flowHashMap.lookup t' = some k ∨ k = .out n ∨ k = .back n
  source : ∃ v, w.portPool.items = v :: s.world.portPool.items ∧
    ∀ i m', s.calls i = .returned .success m' → m'.addressing.src = natSource v

section

variable {w w' : World} {calls : Bool → CallPc} {engine : EnginePc} {i : Bool}
  {m : Bool → RteMbuf} {env : Bool → PacketEnv}
  (hret : ∀ i, ∃ m', calls i = .returned .success m')
include hret

/-- One opener makes one flow, if there is a port for it and replies have another
tuple. -/
theorem OneOpener.oneFlow (h : OneOpener w m env w' calls i) (hpool : w.portPool.items ≠ [])
    (hne : replyTuple w (m i) ≠ getIpv4_5tuple (m i) ipv4Mask) :
    OneFlow w (getIpv4_5tuple (m i) ipv4Mask) ⟨w', calls, engine⟩ := by
  obtain ⟨⟨a, hopening, hkeep⟩, hother⟩ := h
  obtain ⟨mi, hmi⟩ := hret i
  obtain ⟨mj, hmj⟩ := hret (!i)
  rw [hmi] at hopening
  have hlookup : ∀ t, w'.flowHashMap.lookup t = _ := fun t =>
    (congrArg (AList.lookup t) hkeep.flowHashMap).trans (hopening.lookup_of_returned t)
  obtain ⟨-, rfl, rfl⟩ := hopening.of_returned
  have hpair := hkeep.pairAt (pairAt_addSymmetricalFlow w _ (m i) (env i) w.serial
    (env i).addBack)
  obtain ⟨v, rest, hitems⟩ := List.exists_cons_of_ne_nil hpool
  have hv : (dequeuePortObject w.portPool).1 = v := dequeuePortObject_of_head (by rw [hitems]; rfl)
  refine ⟨⟨w.serial, _, _, hpair, ?_, ?_, ?_⟩, v, ?_, ?_⟩
  · rw [hlookup, if_neg hne.symm, if_pos rfl]
  · have hreply : (w'.keys (.back w.serial)).tuple = replyTuple w (m i) := hpair.backTuple
    rw [hreply, hlookup, if_pos rfl]
  · intro t' k hk
    rw [hlookup] at hk
    split at hk
    · exact Or.inr (Or.inr (Option.some.inj hk).symm)
    · split at hk
      · exact Or.inr (Or.inl (Option.some.inj hk).symm)
      · exact Or.inl hk
  · have hrest : w'.portPool.items = w.portPool.items.tail :=
      (congrArg BoundedFifo.items hkeep.portPool).trans (dequeuePortObject_items w.portPool)
    rw [hrest, hitems, List.tail_cons]
  · intro j m' hm'
    rw [← hv]
    rcases eq_or_eq_not i j with rfl | rfl
    · obtain ⟨-, rfl⟩ := CallPc.returned.inj (hmi.symm.trans hm')
      rw [modifyPacket_addressing]
      rfl
    · rcases hother with hlooking | ⟨-, ⟨k, hk, -⟩ | ⟨m'', hm'', hsrc⟩⟩
      · cases hlooking.symm.trans hmj
      · rw [hmj] at hk
        cases hk
      · obtain ⟨-, rfl⟩ := CallPc.returned.inj (hm''.symm.trans hm')
        exact hsrc hne

/-- Where the reply has the tuple of the frame there is only one entry. -/
theorem OneOpener.replyTuple_ne (h : OneOpener w m env w' calls i)
    (hone : OneFlow w (getIpv4_5tuple (m i) ipv4Mask) ⟨w', calls, engine⟩) :
    replyTuple w (m i) ≠ getIpv4_5tuple (m i) ipv4Mask := by
  intro heq
  obtain ⟨⟨a, hopening, hkeep⟩, -⟩ := h
  obtain ⟨mi, hmi⟩ := hret i
  rw [hmi] at hopening
  obtain ⟨n, p, b, -, hk, -⟩ := hone.pair
  dsimp only at hk
  rw [hkeep.flowHashMap, hopening.lookup_of_returned, if_pos heq.symm] at hk
  exact KeyPtr.out_ne_back _ _ (Option.some.inj hk).symm

/-- **Two openers make no single flow**: two numbers are gone, or the pool ran out
between them. -/
theorem TwoOpeners.not_oneFlow (h : TwoOpeners w w' calls) {t : RdarmFiveTuple}
    (hlast : ∀ v, w.portPool.items = [v] → natSource v ≠ natSource 0) :
    ¬ OneFlow w t ⟨w', calls, engine⟩ := by
  rintro ⟨-, v, hitems, hsrc⟩
  cases h with
  | none _ hboth =>
      obtain ⟨m, env, hcreating⟩ := hboth true
      obtain ⟨m', hm'⟩ := hret true
      cases hcreating.symm.trans hm'
  | one i _ _ hsecond =>
      obtain ⟨m, env, hcreating⟩ := hsecond
      obtain ⟨m', hm'⟩ := hret (!i)
      cases hcreating.symm.trans hm'
  | two i hpool hfirst hsecond =>
      have hrest : w'.portPool.items = w.portPool.items.tail.tail := by
        rw [hpool, dequeuePortObject_items, dequeuePortObject_items]
      dsimp only at hitems
      rw [hrest] at hitems
      cases hl : w.portPool.items with
      | nil =>
          rw [hl] at hitems
          cases hitems
      | cons v₁ l =>
          cases l with
          | cons v₂ l =>
              -- two numbers are gone
              rw [hl] at hitems
              have := congrArg List.length hitems
              simp at this
          | nil =>
              -- the second call found the pool empty, and took port 0
              obtain ⟨m₁, hm₁⟩ := hret i
              obtain ⟨m₂, hm₂⟩ := hret (!i)
              rw [hm₁] at hfirst
              rw [hm₂] at hsecond
              have hhead : (dequeuePortObject w.portPool).1 = v₁ :=
                dequeuePortObject_of_head (by rw [hl]; rfl)
              have hzero : (dequeuePortObject (dequeuePortObject w.portPool).2).1 = 0 :=
                dequeuePortObject_of_nil (by rw [dequeuePortObject_items, hl, List.tail_cons])
              apply hlast v₁ hl
              rw [← hhead, ← hzero, ← hfirst.source_of_success, ← hsecond.source_of_success,
                hsrc i m₁ hm₁, hsrc (!i) m₂ hm₂]

end

/-- The pool only loses numbers. -/
theorem portPool_suffix_of_reachable {w : World} (hw : offloadMachine.Reachable w) :
    w.portPool.items <:+ initialPortPool.items := by
  refine hw.state_invariant (P := fun w => w.portPool.items <:+ initialPortPool.items)
    (fun w hinit => ?_) fun {w e w' os} hsuffix hstep => ?_
  · obtain ⟨mode, port0, port1, readSpec, -, rfl⟩ := init_iff.mp hinit
    exact List.suffix_rfl
  · rcases (stepped_of_step hstep).opens_or_keepsFlows with ⟨_, _, _, _, -, -, hr, rfl⟩ | hkeep
    · obtain ⟨-, -, -, hpool⟩ := frame_of_createFlow hr
      rw [hpool, dequeuePortObject_items]
      exact (List.tail_suffix _).trans hsuffix
    · rwa [hkeep.portPool]

/-- The last number of the pool is not written as port 0. -/
theorem natSource_last_ne {w : World} (hw : offloadMachine.Reachable w) {v : ℕ}
    (hlast : w.portPool.items = [v]) : natSource v ≠ natSource 0 := by
  have hsuffix := portPool_suffix_of_reachable hw
  rw [hlast] at hsuffix
  obtain ⟨front, hfront⟩ := hsuffix
  have hv : v = maxHashEntries - 1 := by
    have hend := congrArg List.getLast? hfront
    rw [List.getLast?_append, initialPortPool, List.getLast?_range', if_neg (by decide)] at hend
    exact (Option.some.inj hend).trans (Nat.add_sub_cancel_left 1 _)
  subst hv
  decide +kernel

/-- Frames of one tuple get their replies under one tuple. -/
theorem replyTuple_congr {w : World} {m m' : RteMbuf}
    (h : getIpv4_5tuple m ipv4Mask = getIpv4_5tuple m' ipv4Mask) :
    replyTuple w m = replyTuple w m' := by
  rw [getIpv4_5tuple_eq, getIpv4_5tuple_eq, RdarmFiveTuple.ofAddressing_inj] at h
  rw [replyTuple, replyTuple, h.1, h.2]

/-- **When two workers share one flow.**  Two calls that start in any reachable state on
frames of one tuple that is not in the table, interleaved in any order, both successful:
they make one flow exactly when the pool is not empty, replies have another tuple, and
neither call looks up between the other one's lookup and its first insertion. -/
theorem oneFlow_iff {w : World} (hw : offloadMachine.Reachable w) {m : Bool → RteMbuf}
    {env : Bool → PacketEnv} {t : RdarmFiveTuple} (hopen : ∀ i, OpensFlow w (m i))
    (htuple : ∀ i, getIpv4_5tuple (m i) ipv4Mask = t) {order : List Bool} {tr : List Empty}
    {s : Workers Bool}
    (hrun : (workersMachine Bool).Run (twoCalls w m env) (order.map .advance) tr s)
    (hret : ∀ i, ∃ m', s.calls i = .returned .success m') :
    OneFlow w t s ↔ w.portPool.items ≠ [] ∧ replyTuple w (m false) ≠ t ∧
      (workersMachine Bool).RunWhile LookupSettled (twoCalls w m env) (order.map .advance)
        tr s := by
  have hes : ∀ e ∈ order.map (WorkersEvent.advance (ι := Bool)), ∃ j, e = .advance j := by
    intro e he
    obtain ⟨j, -, rfl⟩ := List.mem_map.mp he
    exact ⟨j, rfl⟩
  have hsame : ∀ i, getIpv4_5tuple (m i) ipv4Mask = getIpv4_5tuple (m !i) ipv4Mask :=
    fun i => (htuple i).trans (htuple (!i)).symm
  have hreply : ∀ i, replyTuple w (m i) = replyTuple w (m false) :=
    fun i => replyTuple_congr ((htuple i).trans (htuple false).symm)
  -- a guarded run has one opener at its end
  have hopener : (workersMachine Bool).RunWhile LookupSettled (twoCalls w m env)
      (order.map .advance) tr s → ∃ i, OneOpener w m env s.world s.calls i := by
    intro hguard
    rcases settled_of_lookupSettled hopen hsame hguard hes with ⟨i, hfailed⟩ | rfl | hone
    · obtain ⟨m', hm'⟩ := hret i
      exact absurd hfailed (CallPc.not_failed_of_success hm')
    · obtain ⟨m', hm'⟩ := hret true
      cases hm'
    · exact hone
  constructor
  · intro hone
    have hguard : (workersMachine Bool).RunWhile LookupSettled (twoCalls w m env)
        (order.map .advance) tr s := by
      refine (lookupSettled_or_twoOpeners hopen hsame hrun hes).resolve_right fun htwo => ?_
      exact htwo.not_oneFlow hret (fun v hv => natSource_last_ne hw hv) hone
    obtain ⟨i, hi⟩ := hopener hguard
    obtain ⟨v, hv, -⟩ := hone.source
    refine ⟨by rw [hv]; exact List.cons_ne_nil _ _, ?_, hguard⟩
    rw [← hreply i, ← htuple i]
    rw [← htuple i] at hone
    exact hi.replyTuple_ne hret hone
  · rintro ⟨hpool, hne, hguard⟩
    obtain ⟨i, hi⟩ := hopener hguard
    rw [← hreply i, ← htuple i] at hne
    rw [← htuple i]
    exact hi.oneFlow hret hpool hne

/-! ### Two orders -/

instance (s : Workers Bool) : DecidablePred (LookupSettled s)
  | .advance i => inferInstanceAs (Decidable
      ((s.calls i).atLookup = true → (s.calls (!i)).claiming = false))
  | .call _ _ _ => inferInstanceAs (Decidable True)
  | .engine _ => inferInstanceAs (Decidable True)

/-- Two workers with the first frame of one flow. -/
def sameFlowCalls : Workers Bool :=
  twoCalls initialDouble (fun _ => udpFrame 100 ⟨client, server⟩) fun _ => .allSucceed

theorem reachable_initialDouble : offloadMachine.Reachable initialDouble :=
  ⟨_, [], [], init_initialDouble, .nil _⟩

theorem opensFlow_initialDouble (i : Bool) : OpensFlow initialDouble
    ((fun _ => udpFrame 100 ⟨client, server⟩ : Bool → RteMbuf) i) := by
  decide +revert +kernel

/-- The result of a call that is over, and the source its frame leaves from. -/
def CallPc.outcome : CallPc → Option (SmtoErrorCode × UInt32 × UInt16)
  | .returned ret m => some (ret, m.addressing.src)
  | _ => none

theorem CallPc.of_outcome {pc : CallPc} {src : UInt32 × UInt16}
    (h : pc.outcome = some (.success, src)) :
    ∃ m', pc = .returned .success m' ∧ m'.addressing.src = src := by
  cases pc with
  | returned ret m =>
      obtain ⟨rfl, rfl⟩ := Prod.mk.inj (Option.some.inj h)
      exact ⟨m, rfl, rfl⟩
  | _ => cases h

/-- One call after the other. -/
def inTurn : List Bool := List.replicate 6 false ++ List.replicate 2 true

theorem inTurn_isSome : ((workersMachine Bool).exec sameFlowCalls
    (inTurn.map .advance)).isSome = true := by decide +kernel

/-- The second worker uses the flow of the first. -/
theorem oneFlow_inTurn :
    ∃ tr s, (workersMachine Bool).Run sameFlowCalls (inTurn.map .advance) tr s ∧
      OneFlow initialDouble (getIpv4_5tuple (udpFrame 100 ⟨client, server⟩) ipv4Mask) s := by
  have hrun := Machine.run_exec_get inTurn_isSome
  have hout : ∀ i, ((((workersMachine Bool).exec sameFlowCalls (inTurn.map .advance)).get
      inTurn_isSome).1.calls i).outcome = some (.success, natSource 1) := by decide +kernel
  refine ⟨_, _, hrun, ?_⟩
  refine (oneFlow_iff reachable_initialDouble opensFlow_initialDouble (fun _ => rfl) hrun
    fun i => ?_).mpr ⟨by decide +kernel, by decide +kernel, hrun.runWhile (by decide +kernel)⟩
  obtain ⟨m', hm', -⟩ := CallPc.of_outcome (hout i)
  exact ⟨m', hm'⟩

/-- Both workers look up before either of them inserts. -/
def bothMiss : List Bool :=
  [false, true] ++ List.replicate 5 false ++ List.replicate 5 true

theorem bothMiss_isSome : ((workersMachine Bool).exec sameFlowCalls
    (bothMiss.map .advance)).isSome = true := by decide +kernel

/-- **One connection gets two source ports**, the numbers 1 and 2 of the pool. -/
theorem not_oneFlow_bothMiss :
    ∃ tr s, offloadMachine.Reachable initialDouble ∧
      (workersMachine Bool).Run sameFlowCalls (bothMiss.map .advance) tr s ∧
      (∃ m', s.calls false = .returned .success m' ∧ m'.addressing.src = natSource 1) ∧
      (∃ m', s.calls true = .returned .success m' ∧ m'.addressing.src = natSource 2) ∧
      ¬ OneFlow initialDouble (getIpv4_5tuple (udpFrame 100 ⟨client, server⟩) ipv4Mask) s := by
  have hfirst : ((((workersMachine Bool).exec sameFlowCalls (bothMiss.map .advance)).get
      bothMiss_isSome).1.calls false).outcome = some (.success, natSource 1) := by
    decide +kernel
  have hsecond : ((((workersMachine Bool).exec sameFlowCalls (bothMiss.map .advance)).get
      bothMiss_isSome).1.calls true).outcome = some (.success, natSource 2) := by
    decide +kernel
  have hfalse := CallPc.of_outcome hfirst
  have htrue := CallPc.of_outcome hsecond
  refine ⟨_, _, reachable_initialDouble, Machine.run_exec_get bothMiss_isSome, hfalse, htrue,
    fun hone => ?_⟩
  obtain ⟨v, -, hsrc⟩ := hone.source
  obtain ⟨m₁, hm₁, hsrc₁⟩ := hfalse
  obtain ⟨m₂, hm₂, hsrc₂⟩ := htrue
  have hsame : natSource 1 = natSource 2 := by
    rw [← hsrc₁, ← hsrc₂, hsrc false m₁ hm₁, hsrc true m₂ hm₂]
  exact absurd hsame (by decide +kernel)

end SmartOffload
