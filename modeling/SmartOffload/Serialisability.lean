import SmartOffload.Calls
import SmartOffload.Lib.Simulation
import Mathlib.Data.Fintype.Basic

/-!
# Calls on known flows are serialisable

Workers run `packet_processing` at the same time, over one ring and one table.  While every
frame belongs to a known flow and no flow is handled by two workers at once, which is what
the receive-side scaling on the tuple is for, this makes no difference: over every
interleaving the calls leave the shared state, and their frames, as if they were made one
after the other (`serialisable_of_solo`).

The order is that of their last effect on others: a call counts as made when it enqueues its
key, or at its last step if it has nothing to enqueue.  What a call has done before that
point, or has left to do after it, is to its own key alone; `CallPc.Lags` says how the key in
memory differs from the key of the serial run meanwhile.
-/

namespace SmartOffload

variable {ι : Type} [DecidableEq ι]

/-! ### One call after the other -/

/-- A finished call: the frame it was given, its result, and the frame as it left it. -/
structure FinishedCall where
  frame : RteMbuf
  ret : SmtoErrorCode
  mbuf : RteMbuf

/-- **A serial run**: calls of `packet_processing` one after the other, each by a worker. -/
inductive Serial (w : World) : List (ι × FinishedCall) → World → Prop where
  | nil : Serial w [] w
  | snoc {calls : List (ι × FinishedCall)} {w' : World} (h : Serial w calls w') (i : ι)
      {m : RteMbuf} {env : PacketEnv} {r : PacketResult}
      (hr : packetProcessing w' m env = some r) :
      Serial w (calls ++ [(i, ⟨m, r.ret, r.mbuf⟩)]) r.world

/-- The calls of one worker. -/
def callsOf (i : ι) (calls : List (ι × FinishedCall)) : List FinishedCall :=
  (calls.filter fun c => c.1 = i).map Prod.snd

theorem callsOf_snoc_self (i : ι) (calls : List (ι × FinishedCall)) (c : FinishedCall) :
    callsOf i (calls ++ [(i, c)]) = callsOf i calls ++ [c] := by
  simp [callsOf]

theorem callsOf_snoc_of_ne {i j : ι} (hne : j ≠ i) (calls : List (ι × FinishedCall))
    (c : FinishedCall) : callsOf i (calls ++ [(j, c)]) = callsOf i calls := by
  simp [callsOf, hne]

/-! ### What workers show -/

/-- A call starts with a frame, or ends with a result and the frame as it left it. -/
inductive CallObs (ι : Type) where
  | started (i : ι) (m : RteMbuf)
  | finished (i : ι) (ret : SmtoErrorCode) (m : RteMbuf)

/-- What a step shows of the calls. -/
def callTraffic (s : Workers ι) : WorkersEvent ι → List (CallObs ι)
  | .call i m _ => [.started i m]
  | .advance i =>
      match callAdvance s.world (s.calls i) with
      | some (_, .returned ret m) => [.finished i ret m]
      | _ => []
  | .engine _ => []

/-- The workers, seen at their calls. -/
def callsMachine (ι : Type) [DecidableEq ι] : Machine (Workers ι) (WorkersEvent ι) (CallObs ι) :=
  (workersMachine ι).viewed callTraffic

/-- The frames a worker has been given. -/
def startedBy (i : ι) (tr : List (CallObs ι)) : List RteMbuf :=
  tr.filterMap fun
    | .started j m => if j = i then some m else none
    | .finished _ _ _ => none

/-- The results of a worker. -/
def finishedBy (i : ι) (tr : List (CallObs ι)) : List (SmtoErrorCode × RteMbuf) :=
  tr.filterMap fun
    | .started _ _ => none
    | .finished j ret m => if j = i then some (ret, m) else none

/-- The guard: only workers move, a looked-up frame belongs to a known flow, and no other
worker is busy with that flow. -/
def Solo (s : Workers ι) : WorkersEvent ι → Prop
  | .call _ _ _ => True
  | .advance i =>
      match s.calls i with
      | .lookingUp m _ => supportedPacketType m.packetType = true →
          ∃ k ∈ s.world.flowHashMap.lookup (getIpv4_5tuple m ipv4Mask),
            ∀ j, (s.calls j).known ≠ some k
      | _ => True
  | .engine _ => False

/-! ### Before and after a call counts as made -/

/-- The frame of a call that does not count as made yet. -/
def CallPc.unmade : CallPc → Option RteMbuf
  | .lookingUp m _ | .counting m _ | .enqueueing m _ => some m
  | _ => none

/-- The result a call is about to return when it counts as made already. -/
def CallPc.due (w : World) : CallPc → Option (SmtoErrorCode × RteMbuf)
  | .marking m k => some (.success, modifyPacket m (w.keys k).modifyTuple)
  | _ => none

/-- The result of a call that counts as made: the one it has returned, or is about to. -/
def CallPc.ended (w : World) : CallPc → Option (SmtoErrorCode × RteMbuf)
  | .marking m k => some (.success, modifyPacket m (w.keys k).modifyTuple)
  | .returned ret m => some (ret, m)
  | _ => none

/-- A key, accounted for a frame. -/
def SmtoFlowKey.counted (x : SmtoFlowKey) (pktLen : UInt32) : SmtoFlowKey :=
  { x with packetAmount := x.packetAmount + 1, flowSize := x.flowSize + pktLen }

/-- How the key `x` in memory and the key `y` of the serial run differ, as far as a call has
come. -/
def CallPc.Lags (x y : SmtoFlowKey) : CallPc → Prop
  | .enqueueing m _ => x = y.counted m.pktLen ∧ wantsOffload x = true
  | .marking _ _ => y = { x with isOffload := .offloading }
  | _ => y = x

/-- A call of a known flow, with the frame and the flow it has looked up. -/
def CallPc.Found (h : FlowTable) : CallPc → Prop
  | .lookingUp _ _ | .returned _ _ => True
  | .counting m k | .enqueueing m k | .marking m k =>
      supportedPacketType m.packetType = true ∧
        h.lookup (getIpv4_5tuple m ipv4Mask) = some k
  | _ => False

/-- **The shared state and the serial one**: alike but for the keys that calls are busy
with, each of which is the business of one call. -/
structure Linearised (w : World) (calls : ι → CallPc) (t : World) : Prop where
  rest : t = { w with keys := t.keys }
  found : ∀ i, (calls i).Found w.flowHashMap
  busy : ∀ i k, (calls i).known = some k → (calls i).Lags (w.keys k) (t.keys k)
  free : ∀ k, (∀ i, (calls i).known ≠ some k) → t.keys k = w.keys k
  alone : ∀ i j k, (calls i).known = some k → (calls j).known = some k → i = j

section

variable {w w' t t' : World} {calls : ι → CallPc} {i : ι} {pc : CallPc} {k : KeyPtr}

/-- A call that is busy with no key may be replaced by another such call. -/
theorem Linearised.idle (h : Linearised w calls t) (hold : (calls i).known = none)
    (hnew : pc.known = none) (hfound : pc.Found w.flowHashMap) :
    Linearised w (Function.update calls i pc) t := by
  have hknown : ∀ j, (Function.update calls i pc j).known = (calls j).known := by
    intro j
    by_cases hj : j = i
    · rw [hj, Function.update_self, hnew, hold]
    · rw [Function.update_of_ne hj]
  refine ⟨h.rest, fun j => ?_, fun j k hk => ?_, fun k hk => ?_, fun j j' k hk hk' => ?_⟩
  · by_cases hj : j = i
    · rw [hj, Function.update_self]
      exact hfound
    · rw [Function.update_of_ne hj]
      exact h.found j
  · have hj : j ≠ i := by
      rintro rfl
      rw [hknown, hold] at hk
      cases hk
    rw [Function.update_of_ne hj] at hk ⊢
    exact h.busy j k hk
  · exact h.free k fun j => by rw [← hknown]; exact hk j
  · rw [hknown] at hk hk'
    exact h.alone j j' k hk hk'

/-- **A call takes a step on its key**, or takes the key up: if only this key is touched, and
it lags as it then should. -/
theorem Linearised.advance (h : Linearised w calls t)
    (hbusy : ∀ j, (calls j).known = some k → j = i)
    (hknown : ∀ k', (calls i).known = some k' → k' = k)
    (hrest : t' = { w' with keys := t'.keys }) (htable : w'.flowHashMap = w.flowHashMap)
    (hkeys : ∀ k', k' ≠ k → w'.keys k' = w.keys k')
    (hkeys' : ∀ k', k' ≠ k → t'.keys k' = t.keys k')
    (hfound : pc.Found w'.flowHashMap) (hpc : ∀ k', pc.known = some k' → k' = k)
    (hlags : pc.Lags (w'.keys k) (t'.keys k)) (hdone : pc.known = none → t'.keys k = w'.keys k) :
    Linearised w' (Function.update calls i pc) t' := by
  refine ⟨hrest, fun j => ?_, fun j k' hk' => ?_, fun k' hk' => ?_, fun j j' k' hk hk' => ?_⟩
  · by_cases hj : j = i
    · rw [hj, Function.update_self]
      exact hfound
    · rw [Function.update_of_ne hj, htable]
      exact h.found j
  · by_cases hj : j = i
    · rw [hj, Function.update_self] at hk' ⊢
      rw [hpc k' hk']
      exact hlags
    · rw [Function.update_of_ne hj] at hk' ⊢
      have hne : k' ≠ k := by
        rintro rfl
        exact hj (hbusy j hk')
      rw [hkeys k' hne, hkeys' k' hne]
      exact h.busy j k' hk'
  · by_cases hkk : k' = k
    · subst hkk
      apply hdone
      by_contra hsome
      obtain ⟨k'', hk''⟩ := Option.ne_none_iff_exists'.mp hsome
      refine hk' i ?_
      rw [Function.update_self, hk'', hpc k'' hk'']
    · rw [hkeys k' hkk, hkeys' k' hkk]
      refine h.free k' fun j hj => ?_
      by_cases hji : j = i
      · rw [hji] at hj
        exact hkk (hknown k' hj)
      · refine hk' j ?_
        rw [Function.update_of_ne hji]
        exact hj
  · by_cases hj : j = i
    · by_cases hj' : j' = i
      · rw [hj, hj']
      · rw [hj, Function.update_self] at hk
        rw [Function.update_of_ne hj'] at hk'
        rw [hpc k' hk] at hk'
        exact absurd (hbusy j' hk') hj'
    · rw [Function.update_of_ne hj] at hk
      by_cases hj' : j' = i
      · rw [hj', Function.update_self] at hk'
        rw [hpc k' hk'] at hk
        exact absurd (hbusy j hk) hj
      · rw [Function.update_of_ne hj'] at hk'
        exact h.alone j j' k' hk hk'

omit [DecidableEq ι] in
/-- The serial run finds the flow that the call has found. -/
theorem Linearised.packetProcessing {m : RteMbuf} (h : Linearised w calls t)
    (hs : supportedPacketType m.packetType = true)
    (hk : w.flowHashMap.lookup (getIpv4_5tuple m ipv4Mask) = some k) :
    SmartOffload.packetProcessing t m .allSucceed = some (knownFlow t m k) := by
  apply packetProcessing_known hs
  rw [h.rest]
  exact hk

end

/-! ### What a request for offload does, by its outcome -/

section

variable {w : World} {k : KeyPtr}

theorem requestOffload_of_not_wants (h : wantsOffload (w.keys k) = false) :
    requestOffload w k = w := by
  rw [requestOffload, h]
  rfl

theorem requestOffload_of_refused (h : w.flowRulesRing.enqueue k = none) :
    requestOffload w k = w := by
  unfold requestOffload
  rw [h]
  split <;> rfl

theorem requestOffload_of_enqueue {ring : BoundedFifo KeyPtr}
    (hwants : wantsOffload (w.keys k) = true) (h : w.flowRulesRing.enqueue k = some ring) :
    requestOffload w k = markOffloading { w with flowRulesRing := ring } k := by
  rw [requestOffload, if_pos hwants, h]

/-- What a call about a known flow returns is its key's translation. -/
theorem result_knownFlow {m : RteMbuf} {x : SmtoFlowKey}
    (h : ((knownFlow w m k).world.keys k).modifyTuple = x.modifyTuple) :
    some (SmtoErrorCode.success, modifyPacket m x.modifyTuple) =
      some ((knownFlow w m k).ret, (knownFlow w m k).mbuf) := by
  rw [← h]
  rfl

@[simp] theorem countPacket_keys_self (w : World) (k : KeyPtr) (pktLen : UInt32) :
    (countPacket w k pktLen).keys k = (w.keys k).counted pktLen := w.modifyKey_keys_self ..

end

/-! ### One step -/

section

variable {w w' t : World} {calls : ι → CallPc} {i : ι} {pc' : CallPc}

/-- **The step lemma.**  Either the call counts as made with this step, and the serial run
makes it whole; or the serial run stays where it is. -/
theorem linearised_advanced (h : Linearised w calls t)
    (hsolo : ∀ m env, calls i = .lookingUp m env → supportedPacketType m.packetType = true →
      ∃ k, w.flowHashMap.lookup (getIpv4_5tuple m ipv4Mask) = some k ∧
        ∀ j, (calls j).known ≠ some k)
    (hadv : Advanced w (calls i) w' pc') :
    KeepsFlows w w' ∧
      ((∃ m r, packetProcessing t m .allSucceed = some r ∧
          Linearised w' (Function.update calls i pc') r.world ∧
          (calls i).unmade = some m ∧ pc'.unmade = none ∧ (calls i).due w = none ∧
            pc'.ended w' = some (r.ret, r.mbuf)) ∨
        Linearised w' (Function.update calls i pc') t ∧
          pc'.unmade = (calls i).unmade ∧ pc'.ended w' = (calls i).due w) := by
  -- the serial state is the shared one with other keys
  obtain ⟨keys, rfl⟩ : ∃ keys, t = { w with keys := keys } := ⟨t.keys, h.rest⟩
  have hfound := h.found i
  have hlags := h.busy i
  have halone : ∀ {k}, (calls i).known = some k → ∀ j, (calls j).known = some k → j = i :=
    fun hk j hj => h.alone j i _ hj hk
  generalize hpc : calls i = pc at hadv hfound hlags halone
  cases hadv with
  | @rejected m env hno =>
      refine ⟨.refl w, Or.inl ⟨m, _, packetProcessing_unsupported hno, ?_, rfl, rfl, rfl, rfl⟩⟩
      exact h.idle (by rw [hpc]; rfl) rfl trivial
  | @missed m env hopen =>
      obtain ⟨k, hk, -⟩ := hsolo m env hpc hopen.1
      rw [hopen.lookup] at hk
      cases hk
  | @found m env k hs hk =>
      obtain ⟨k', hk', hnone⟩ := hsolo m env hpc hs
      rw [hk] at hk'
      obtain rfl := Option.some.inj hk'
      refine ⟨.refl w, Or.inr ⟨?_, rfl, rfl⟩⟩
      exact h.advance (k := k) (fun j hj => absurd hj (hnone j))
        (fun k' hk' => by rw [hpc] at hk'; cases hk') h.rest rfl
        (fun _ _ => rfl) (fun _ _ => rfl) ⟨hs, hk⟩ (fun k' hk' => (Option.some.inj hk').symm)
        (h.free k hnone) (fun hno => by cases hno)
  | @counted m k =>
      obtain ⟨hs, hk⟩ := hfound
      have hsame : keys k = w.keys k := hlags k rfl
      have hself : ∀ k', (calls i).known = some k' → k' = k :=
        fun k' hk' => by rw [hpc] at hk'; exact (Option.some.inj hk').symm
      have hcount : (countPacket { w with keys := keys } k m.pktLen).keys k =
          (countPacket w k m.pktLen).keys k := by
        rw [countPacket_keys_self, countPacket_keys_self]
        exact congrArg (·.counted m.pktLen) hsame
      refine ⟨keepsFlows_countPacket w k m.pktLen, ?_⟩
      split
      next hwants =>
        refine Or.inr ⟨?_, rfl, rfl⟩
        exact h.advance (halone rfl) hself rfl rfl
          (fun k' hne => w.modifyKey_keys_of_ne k _ hne) (fun _ _ => rfl) ⟨hs, hk⟩
          (fun k' hk' => (Option.some.inj hk').symm)
          ⟨(countPacket_keys_self ..).trans (congrArg (·.counted m.pktLen) hsame.symm), hwants⟩
          (fun hno => by cases hno)
      next hwants =>
        have hworld : (knownFlow { w with keys := keys } m k).world =
            countPacket { w with keys := keys } k m.pktLen := by
          apply requestOffload_of_not_wants
          rw [hcount]
          simpa using hwants
        refine Or.inl ⟨m, _, h.packetProcessing hs hk, ?_, rfl, rfl, rfl, ?_⟩
        · rw [hworld]
          exact h.advance (halone rfl) hself rfl rfl
            (fun k' hne => w.modifyKey_keys_of_ne k _ hne)
            (fun k' hne => World.modifyKey_keys_of_ne { w with keys := keys } k _ hne) trivial
            (fun k' hk' => by cases hk') hcount (fun _ => hcount)
        · exact result_knownFlow (by rw [hworld, hcount])
  | @refused m k henq =>
      obtain ⟨hs, hk⟩ := hfound
      obtain ⟨hcounted, -⟩ := hlags k rfl
      have hself : ∀ k', (calls i).known = some k' → k' = k :=
        fun k' hk' => by rw [hpc] at hk'; exact (Option.some.inj hk').symm
      have hcount : (countPacket { w with keys := keys } k m.pktLen).keys k = w.keys k := by
        rw [countPacket_keys_self]
        exact hcounted.symm
      have hworld : (knownFlow { w with keys := keys } m k).world =
          countPacket { w with keys := keys } k m.pktLen := requestOffload_of_refused henq
      refine ⟨.refl w, Or.inl ⟨m, _, h.packetProcessing hs hk, ?_, rfl, rfl, rfl, ?_⟩⟩
      · rw [hworld]
        exact h.advance (halone rfl) hself rfl rfl (fun _ _ => rfl)
          (fun k' hne => World.modifyKey_keys_of_ne { w with keys := keys } k _ hne) trivial
          (fun k' hk' => by cases hk') hcount (fun _ => hcount)
      · exact result_knownFlow (by rw [hworld, hcount])
  | @enqueued m k ring henq =>
      obtain ⟨hs, hk⟩ := hfound
      obtain ⟨hcounted, hwants⟩ := hlags k rfl
      have hself : ∀ k', (calls i).known = some k' → k' = k :=
        fun k' hk' => by rw [hpc] at hk'; exact (Option.some.inj hk').symm
      have hcount : (countPacket { w with keys := keys } k m.pktLen).keys k = w.keys k := by
        rw [countPacket_keys_self]
        exact hcounted.symm
      generalize hw₁ : countPacket { w with keys := keys } k m.pktLen = w₁ at hcount
      have hrest : w₁ = { w with keys := w₁.keys } := by rw [← hw₁]; rfl
      have hworld : (knownFlow { w with keys := keys } m k).world =
          markOffloading { w₁ with flowRulesRing := ring } k := by
        show requestOffload (countPacket { w with keys := keys } k m.pktLen) k = _
        rw [hw₁]
        exact requestOffload_of_enqueue (by rw [hcount, hwants]) (by rw [hrest]; exact henq)
      have hmarked : (knownFlow { w with keys := keys } m k).world.keys k =
          { w.keys k with isOffload := .offloading } := by
        rw [hworld, markOffloading_keys_self]
        exact congrArg (fun x : SmtoFlowKey => { x with isOffload := .offloading }) hcount
      refine ⟨.setQueue w ring w.burst, Or.inl ⟨m, _, h.packetProcessing hs hk, ?_, rfl, rfl, rfl,
        result_knownFlow (by rw [hmarked])⟩⟩
      refine h.advance (halone rfl) hself ?_ rfl (fun _ _ => rfl) (fun k' hne => ?_) ⟨hs, hk⟩
        (fun k' hk' => (Option.some.inj hk').symm) hmarked (fun hno => by cases hno)
      · rw [hworld, hrest]
        rfl
      · rw [hworld, markOffloading_keys_of_ne _ hne]
        show w₁.keys k' = keys k'
        rw [← hw₁]
        exact World.modifyKey_keys_of_ne { w with keys := keys } k _ hne
  | @marked m k =>
      obtain ⟨hs, hk⟩ := hfound
      have hself : ∀ k', (calls i).known = some k' → k' = k :=
        fun k' hk' => by rw [hpc] at hk'; exact (Option.some.inj hk').symm
      have hsame : keys k = (markOffloading w k).keys k := by
        rw [markOffloading_keys_self]
        exact hlags k rfl
      refine ⟨keepsFlows_markOffloading w k, Or.inr ⟨?_, rfl, ?_⟩⟩
      · exact h.advance (halone rfl) hself rfl rfl
          (fun k' hne => markOffloading_keys_of_ne w hne) (fun _ _ => rfl) trivial
          (fun k' hk' => by cases hk') hsame (fun _ => hsame)
      · show some (_, modifyPacket m ((markOffloading w k).keys k).modifyTuple) = some (_, _)
        rw [markOffloading_keys_self]
  | created _ => exact hfound.elim
  | insertedOut => exact hfound.elim
  | builtBack _ => exact hfound.elim
  | insertedBack => exact hfound.elim
  | linked => exact hfound.elim

end

/-! ### Runs -/

@[simp] theorem startedBy_append (i : ι) (tr tr' : List (CallObs ι)) :
    startedBy i (tr ++ tr') = startedBy i tr ++ startedBy i tr' := List.filterMap_append

@[simp] theorem finishedBy_append (i : ι) (tr tr' : List (CallObs ι)) :
    finishedBy i (tr ++ tr') = finishedBy i tr ++ finishedBy i tr' := List.filterMap_append

/-- A finished call, as its worker shows it. -/
def FinishedCall.result (c : FinishedCall) : SmtoErrorCode × RteMbuf := (c.ret, c.mbuf)

/-- **The invariant**: the calls that count as made are a serial run, each worker's in the
order it made them, and its results are theirs. -/
structure SerialSoFar (w₀ : World) (s : Workers ι) (tr : List (CallObs ι)) : Prop where
  serial : ∃ (calls : List (ι × FinishedCall)) (t : World),
    Serial w₀ calls t ∧ Linearised s.world s.calls t ∧ ∀ i,
      startedBy i tr = (callsOf i calls).map FinishedCall.frame ++ (s.calls i).unmade.toList ∧
        (callsOf i calls).map FinishedCall.result =
          finishedBy i tr ++ ((s.calls i).due s.world).toList

/-- What a step of worker `i` shows to worker `j`. -/
theorem callTraffic_advance {s : Workers ι} {i : ι} {w' : World} {pc' : CallPc}
    (h : callAdvance s.world (s.calls i) = some (w', pc')) (j : ι) :
    startedBy j (callTraffic s (.advance i)) = [] ∧
      (j ≠ i → finishedBy j (callTraffic s (.advance i)) = []) ∧
        finishedBy i (callTraffic s (.advance i)) ++ (pc'.due w').toList =
          (pc'.ended w').toList := by
  simp only [callTraffic, h]
  cases pc' with
  | returned ret m =>
      refine ⟨rfl, fun hj => ?_, ?_⟩
      · simp [finishedBy, hj.symm]
      · simp [finishedBy, CallPc.due, CallPc.ended]
  | marking m k => exact ⟨rfl, fun _ => rfl, rfl⟩
  | _ => exact ⟨rfl, fun _ => rfl, rfl⟩

/-- Other workers are due what they were due. -/
theorem due_congr {w w' : World} (h : KeepsFlows w w') (pc : CallPc) :
    pc.due w' = pc.due w := by
  cases pc with
  | marking m k => simp only [CallPc.due, h.modifyTuple]
  | _ => rfl

/-- A worker that is idle starts a call. -/
theorem serialSoFar_call {w₀ : World} {s : Workers ι} {tr : List (CallObs ι)}
    (h : SerialSoFar w₀ s tr) {i : ι} (m : RteMbuf) (env : PacketEnv) {ret : SmtoErrorCode}
    {m' : RteMbuf} (hidle : s.calls i = .returned ret m') :
    SerialSoFar w₀ { s with calls := Function.update s.calls i (.lookingUp m env) }
      (tr ++ [.started i m]) := by
  obtain ⟨calls, t, hserial, hlin, hcalls⟩ := h
  refine ⟨calls, t, hserial, hlin.idle (by rw [hidle]; rfl) rfl trivial, fun j => ?_⟩
  obtain ⟨hstarted, hfinished⟩ := hcalls j
  rw [startedBy_append, finishedBy_append, hstarted, hfinished]
  by_cases hj : j = i
  · subst hj
    simp only [Function.update_self, hidle]
    constructor
    · simp [startedBy, CallPc.unmade]
    · simp [finishedBy, CallPc.due]
  · simp only [Function.update_of_ne hj]
    constructor
    · simp [startedBy, Ne.symm hj]
    · simp [finishedBy]

/-- A worker takes a step. -/
theorem serialSoFar_advance {w₀ : World} {s : Workers ι} {tr : List (CallObs ι)}
    (h : SerialSoFar w₀ s tr) {i : ι} (hsolo : Solo s (.advance i)) {w' : World}
    {pc' : CallPc} (hstep : callAdvance s.world (s.calls i) = some (w', pc')) :
    SerialSoFar w₀ { s with world := w', calls := Function.update s.calls i pc' }
      (tr ++ callTraffic s (.advance i)) := by
  obtain ⟨calls, t, hserial, hlin, hcalls⟩ := h
  have hsolo' : ∀ m env, s.calls i = .lookingUp m env →
      supportedPacketType m.packetType = true →
        ∃ k, s.world.flowHashMap.lookup (getIpv4_5tuple m ipv4Mask) = some k ∧
          ∀ j, (s.calls j).known ≠ some k := by
    intro m env hpc hs
    simp only [Solo, hpc] at hsolo
    exact hsolo hs
  obtain ⟨hkeep, hcase⟩ := linearised_advanced hlin hsolo' (advanced_of_callAdvance hstep)
  have hothers : ∀ j, j ≠ i →
      startedBy j (tr ++ callTraffic s (.advance i)) = startedBy j tr ∧
        finishedBy j (tr ++ callTraffic s (.advance i)) = finishedBy j tr := by
    intro j hj
    obtain ⟨hstarted, hfinished, -⟩ := callTraffic_advance hstep j
    rw [startedBy_append, finishedBy_append, hstarted, hfinished hj, List.append_nil,
      List.append_nil]
    exact ⟨rfl, rfl⟩
  obtain ⟨hself, -, hshown⟩ := callTraffic_advance hstep i
  obtain ⟨hstarted, hresults⟩ := hcalls i
  rcases hcase with ⟨m, r, hr, hlin', hunmade, hmade, hdue, houtcome⟩ | ⟨hlin', hunmade, houtcome⟩
  · -- the call counts as made: one more call of the serial run
    refine ⟨calls ++ [(i, ⟨m, r.ret, r.mbuf⟩)], r.world, hserial.snoc i hr, hlin', fun j => ?_⟩
    by_cases hj : j = i
    · subst hj
      rw [startedBy_append, finishedBy_append, hself, callsOf_snoc_self]
      simp only [Function.update_self]
      rw [hmade, List.append_assoc, hshown, houtcome, hstarted, hunmade]
      rw [hdue] at hresults
      constructor
      · simp
      · simpa [FinishedCall.result] using hresults
    · obtain ⟨hstartedJ, hresultsJ⟩ := hcalls j
      rw [(hothers j hj).1, (hothers j hj).2, callsOf_snoc_of_ne (Ne.symm hj)]
      simp only [Function.update_of_ne hj]
      exact ⟨hstartedJ, by rw [due_congr hkeep]; exact hresultsJ⟩
  · refine ⟨calls, t, hserial, hlin', fun j => ?_⟩
    by_cases hj : j = i
    · subst hj
      rw [startedBy_append, finishedBy_append, hself, List.append_nil]
      simp only [Function.update_self]
      rw [hunmade, List.append_assoc, hshown, houtcome]
      exact ⟨hstarted, hresults⟩
    · obtain ⟨hstartedJ, hresultsJ⟩ := hcalls j
      rw [(hothers j hj).1, (hothers j hj).2]
      simp only [Function.update_of_ne hj]
      exact ⟨hstartedJ, by rw [due_congr hkeep]; exact hresultsJ⟩

omit [DecidableEq ι] in
/-- The two states are one when no call is under way. -/
theorem Linearised.eq_of_idle {w t : World} {calls : ι → CallPc} (h : Linearised w calls t)
    (hidle : ∀ i, ∃ ret m, calls i = .returned ret m) : t = w := by
  have hkeys : t.keys = w.keys := by
    funext k
    refine h.free k fun i hk => ?_
    obtain ⟨ret, m, hi⟩ := hidle i
    rw [hi] at hk
    cases hk
  rw [h.rest, hkeys]

/-- **Calls on known flows are serialisable.**  From any state in which no call is under way,
over any interleaving of any number of workers in which every looked-up frame belongs to a
known flow that no other worker is busy with, to a state in which no call is under way: the
shared state is that of a serial run, in which every worker makes the calls it has made, in
its order and with the results it has got. -/
theorem serialisable_of_solo {s₀ s : Workers ι} {es : List (WorkersEvent ι)}
    {tr : List (CallObs ι)} (hstart : ∀ i, ∃ ret m, s₀.calls i = .returned ret m)
    (hrun : (callsMachine ι).RunWhile Solo s₀ es tr s)
    (hend : ∀ i, ∃ ret m, s.calls i = .returned ret m) :
    ∃ calls, Serial s₀.world calls s.world ∧ ∀ i,
      startedBy i tr = (callsOf i calls).map FinishedCall.frame ∧
        finishedBy i tr = (callsOf i calls).map FinishedCall.result := by
  have hinv : SerialSoFar s₀.world s tr := by
    refine hrun.invariant (P := SerialSoFar s₀.world) ?_ ?_
    · refine ⟨[], s₀.world, .nil, ⟨rfl, fun i => ?_, fun i k hk => ?_, fun _ _ => rfl,
        fun i _ k hk => ?_⟩, fun i => ?_⟩ <;> obtain ⟨ret, m, hi⟩ := hstart i
      · rw [hi]
        trivial
      · rw [hi] at hk
        cases hk
      · rw [hi] at hk
        cases hk
      · rw [hi]
        exact ⟨rfl, rfl⟩
    · intro s tr e s' os h hsolo hstep
      obtain ⟨⟨os', hstep'⟩, rfl⟩ := Machine.step_viewed_eq_some_iff.mp hstep
      cases e with
      | call i m env =>
          simp only [workersMachine, workersStep] at hstep'
          split at hstep'
          next ret m' hidle =>
            obtain ⟨rfl, -⟩ := Prod.mk.inj (Option.some.inj hstep')
            exact serialSoFar_call h m env hidle
          · cases hstep'
      | advance i =>
          simp only [workersMachine, workersStep] at hstep'
          split at hstep'
          · cases hstep'
          next w' pc' hadv =>
            obtain ⟨rfl, -⟩ := Prod.mk.inj (Option.some.inj hstep')
            exact serialSoFar_advance h hsolo hadv
      | engine e => exact hsolo.elim
  obtain ⟨calls, t, hserial, hlin, hcalls⟩ := hinv
  rw [hlin.eq_of_idle hend] at hserial
  refine ⟨calls, hserial, fun i => ?_⟩
  obtain ⟨hstarted, hresults⟩ := hcalls i
  obtain ⟨ret, m, hi⟩ := hend i
  rw [hi] at hstarted hresults
  exact ⟨by rw [hstarted]; exact List.append_nil _,
    by rw [hresults]; exact (List.append_nil _).symm⟩

instance decidableSolo [Fintype ι] (s : Workers ι) : DecidablePred (Solo s)
  | .call _ _ _ => inferInstanceAs (Decidable True)
  | .advance i =>
      match h : s.calls i with
      | .lookingUp m _ => decidable_of_iff (supportedPacketType m.packetType = true →
          ∃ k ∈ s.world.flowHashMap.lookup (getIpv4_5tuple m ipv4Mask),
            ∀ j, (s.calls j).known ≠ some k) (by simp only [Solo, h])
      | .creating _ _ => .isTrue (by simp only [Solo, h])
      | .insertingOut _ _ _ => .isTrue (by simp only [Solo, h])
      | .buildingBack _ _ _ => .isTrue (by simp only [Solo, h])
      | .insertingBack _ _ _ => .isTrue (by simp only [Solo, h])
      | .linking _ _ _ => .isTrue (by simp only [Solo, h])
      | .counting _ _ => .isTrue (by simp only [Solo, h])
      | .enqueueing _ _ => .isTrue (by simp only [Solo, h])
      | .marking _ _ => .isTrue (by simp only [Solo, h])
      | .returned _ _ => .isTrue (by simp only [Solo, h])
  | .engine _ => inferInstanceAs (Decidable False)

/-- One flow, of which both directions are one frame short of being offloaded. -/
def nearlyWaiting : List OffloadEvent :=
  List.replicate 4 (.udp client server) ++
    List.replicate 4 (.udp server (endpoint 5 1 1 1 1))

theorem nearlyWaiting_isSome : (offloadMachine.exec initialSingle nearlyWaiting).isSome = true := by
  decide +kernel

/-- Two idle workers. -/
def twoWorkers : Workers Bool where
  world := ((offloadMachine.exec initialSingle nearlyWaiting).get nearlyWaiting_isSome).1
  calls := fun _ => .returned .success (udpFrame 100 ⟨client, server⟩)
  engine := .polling

/-- A frame of each direction: both are counted, and the second worker enqueues first. -/
def crossedEvents : List (WorkersEvent Bool) :=
  [.call false (udpFrame 100 ⟨client, server⟩) .allSucceed,
    .call true (udpFrame 200 ⟨server, endpoint 5 1 1 1 1⟩) .allSucceed,
    .advance false, .advance true, .advance false, .advance true, .advance true,
    .advance false, .advance false, .advance true]

theorem crossedRun_isSome :
    ((callsMachine Bool).exec twoWorkers crossedEvents).isSome = true := by decide +kernel

/-- Whether a call is over. -/
def CallPc.over : CallPc → Bool
  | .returned _ _ => true
  | _ => false

theorem CallPc.returned_of_over : ∀ {pc : CallPc}, pc.over = true → ∃ ret m, pc = .returned ret m
  | .returned ret m, _ => ⟨ret, m, rfl⟩

theorem serialisable_crossedEvents :
    ∃ tr s calls, (callsMachine Bool).Run twoWorkers crossedEvents tr s ∧
      Serial twoWorkers.world calls s.world ∧ ∀ i,
        startedBy i tr = (callsOf i calls).map FinishedCall.frame ∧
          finishedBy i tr = (callsOf i calls).map FinishedCall.result := by
  have hrun := Machine.run_exec_get crossedRun_isSome
  have hidle : ∀ i, ∃ ret m, (((callsMachine Bool).exec twoWorkers crossedEvents).get
      crossedRun_isSome).1.calls i = .returned ret m := fun i =>
    CallPc.returned_of_over (by revert i; decide +kernel)
  obtain ⟨calls, hserial⟩ := serialisable_of_solo (fun _ => ⟨_, _, rfl⟩)
    (hrun.runWhile (by decide +kernel)) hidle
  exact ⟨_, _, calls, hrun, hserial⟩

end SmartOffload
