import SmartOffload.Lib.Simulation
import SmartOffload.Lib.Translator
import SmartOffload.ProcessLoop

/-!
# The system translates addresses

What all of this is for: seen through the frames that come in and go out, every run of the
system is a run of the source address translator of `Lib.Translator` (`run_translator`),
and so is what a `process_loop` sends (`processLoop_translator`).  A state is a translator
by its table and its pool (`translatorOf`); which key has which rule, what waits for the
engine and what the counters say is nothing a frame shows.

A frame is seen through a `Reading`.  The worker's is right about frames that have their
headers where the worker looks, without tags and options, and the results are about such
frames.

`conversation` is the consequence for two hosts: once a first frame has opened a flow,
frames leave as it did and replies find back, as long as no later flow takes one of the two
tuples.
-/

namespace SmartOffload

/-- Endpoints of the translator: address and port as stored. -/
abbrev NatTranslator := Translator UInt8 (UInt32 × UInt16)

/-- The public endpoints the pool is filled for. -/
def natPool : List (UInt32 × UInt16) := (List.range' 1 (maxHashEntries - 1)).map natSource

/-- **The translator a state is**: what the table stores for a tuple, and the pool. -/
def translatorOf (w : World) : NatTranslator where
  legs p a := (w.flowHashMap.lookup (.ofAddressing p a)).map fun k =>
    (w.keys k).modifyTuple.addressing
  pool := w.portPool.items.map natSource

/-- How the protocol and the addressing of a frame are read. -/
structure Reading where
  proto : RteMbuf → UInt8
  addressing : RteMbuf → Addressing (UInt32 × UInt16)

/-- As an outsider reads them, in the frame's own headers. -/
def ownReading : Reading := ⟨RteMbuf.ownProto, RteMbuf.ownAddressing⟩

/-- As the worker reads them in the frames it is for, at fixed offsets. -/
def workerReading : Reading where
  proto m := if supportedPacketType m.packetType then m.proto else m.ownProto
  addressing m := if supportedPacketType m.packetType then m.addressing else m.ownAddressing

/-- **A reading agrees with the worker's** about a frame, and about what the worker may
make of it. -/
structure Reading.Agrees (R : Reading) (m : RteMbuf) : Prop where
  proto : R.proto m = m.proto
  addressing : R.addressing m = m.addressing
  modified : ∀ t, R.addressing (modifyPacket m t) = t.addressing

/-- About every frame the worker is for. -/
def OffloadEvent.ReadAlike (R : Reading) : OffloadEvent → Prop
  | .packet _ m _ => supportedPacketType m.packetType = true → R.Agrees m
  | _ => True

/-- A frame that the worker is for has its headers where the worker looks. -/
def OffloadEvent.FixedLayout : OffloadEvent → Prop
  | .packet _ m _ => supportedPacketType m.packetType = true → m.FixedLayout
  | _ => True

instance : DecidablePred OffloadEvent.FixedLayout
  | .packet _ _ _ => inferInstanceAs (Decidable (_ → _))
  | .dequeueBurst => inferInstanceAs (Decidable True)
  | .flowEngine _ _ => inferInstanceAs (Decidable True)
  | .ageing _ _ => inferInstanceAs (Decidable True)
  | .traffic _ _ _ => inferInstanceAs (Decidable True)
  | .timeout _ => inferInstanceAs (Decidable True)

theorem agrees_ownReading {m : RteMbuf} (h : m.FixedLayout) : ownReading.Agrees m where
  proto := ownProto_of_fixedLayout h
  addressing := ownAddressing_of_fixedLayout h
  modified := ownAddressing_modifyPacket h

theorem agrees_workerReading {m : RteMbuf} (hs : supportedPacketType m.packetType = true) :
    workerReading.Agrees m where
  proto := if_pos hs
  addressing := if_pos hs
  modified t := (if_pos hs).trans (modifyPacket_addressing m t)

theorem OffloadEvent.FixedLayout.readAlike {e : OffloadEvent} (h : e.FixedLayout) :
    e.ReadAlike ownReading := by
  cases e with
  | packet portId m env => exact fun hs => agrees_ownReading (h hs)
  | _ => trivial

theorem readAlike_workerReading (e : OffloadEvent) : e.ReadAlike workerReading := by
  cases e with
  | packet portId m env => exact agrees_workerReading
  | _ => trivial

/-- What is seen of an event: the frame, before and after the call. -/
def forwardedFrames (R : Reading) (w : World) :
    OffloadEvent → List (Forwarded UInt8 (UInt32 × UInt16))
  | .packet _ m env =>
      match packetProcessing w m env with
      | none => []
      | some r => [⟨supportedPacketType m.packetType, R.proto m, R.addressing m,
          R.addressing r.mbuf⟩]
  | _ => []

/-- **The system, seen from outside.** -/
def forwardingMachine (R : Reading) :
    Machine World OffloadEvent (Forwarded UInt8 (UInt32 × UInt16)) :=
  offloadMachine.viewed (forwardedFrames R)

/-- How much of a new flow the two insertions of its call record. -/
def PacketEnv.recorded (env : PacketEnv) : Recorded :=
  if env.addOut then if env.addBack then .both else .outOnly else .neither

/-- What an event is for the translator; everything but frames is none of its business. -/
def translatorEvent (R : Reading) (w : World) :
    OffloadEvent → Option (TranslatorEvent UInt8 (UInt32 × UInt16))
  | .packet _ m env =>
      if supportedPacketType m.packetType then
        if getIpv4_5tuple m ipv4Mask ∈ w.flowHashMap then
          some (.translate (R.proto m) (R.addressing m))
        else some (.connect (R.proto m) (R.addressing m) env.recorded)
      else some (.pass (R.proto m) (R.addressing m))
  | _ => none

/-! ### One event -/

/-- Events that keep flows keep the translator. -/
theorem KeepsFlows.translatorOf {w w' : World} (h : KeepsFlows w w') :
    translatorOf w' = translatorOf w := by
  simp only [SmartOffload.translatorOf, h.flowHashMap, h.modifyTuple, h.portPool]

/-- Counting a frame keeps flows. -/
theorem keepsFlows_knownFlow (w : World) (m : RteMbuf) (k : KeyPtr) :
    KeepsFlows w (knownFlow w m k).world :=
  (keepsFlows_countPacket w k m.pktLen).trans (keepsFlows_requestOffload _ k)

/-- A frame of a known flow leaves as the key says. -/
theorem addressing_knownFlow (w : World) (m : RteMbuf) (k : KeyPtr) :
    (knownFlow w m k).mbuf.addressing = (w.keys k).modifyTuple.addressing := by
  rw [← (keepsFlows_knownFlow w m k).modifyTuple k]
  exact modifyPacket_addressing ..

/-- A key in the table is a leg. -/
theorem legs_translatorOf (w : World) (m : RteMbuf) :
    (translatorOf w).legs m.proto m.addressing =
      (w.flowHashMap.lookup (getIpv4_5tuple m ipv4Mask)).map fun k =>
        (w.keys k).modifyTuple.addressing := by
  rw [getIpv4_5tuple_eq]
  rfl

/-- The binding of a new flow is the one the translator would give. -/
theorem nextBinding_translatorOf (w : World) (a : Addressing (UInt32 × UInt16)) :
    (translatorOf w).nextBinding (natSource 0) a =
      newBinding a (dequeuePortObject w.portPool).1 := by
  have hhead : (w.portPool.items.map natSource).headD (natSource 0) =
      natSource (dequeuePortObject w.portPool).1 := by
    cases hitems : w.portPool.items with
    | nil => rw [dequeuePortObject_of_nil hitems, List.map_nil, List.headD_nil]
    | cons v rest =>
        rw [dequeuePortObject_of_head (by rw [hitems, List.head?_cons]), List.map_cons,
          List.headD_cons]
  rw [Translator.nextBinding, translatorOf, hhead]
  rfl

/-- What the keys already stored rewrite to is not touched when a flow is opened. -/
theorem map_modifyTuple_createFlow {w : World} {m : RteMbuf} {env : PacketEnv}
    {r : PacketResult} (hinv : FlowInv w)
    (h : createFlow w m (getIpv4_5tuple m ipv4Mask) env = some r) (t : RdarmFiveTuple) :
    (w.flowHashMap.lookup t).map (fun k => (r.world.keys k).modifyTuple.addressing) =
      (w.flowHashMap.lookup t).map fun k => (w.keys k).modifyTuple.addressing :=
  Option.map_congr fun k hk => by
    rw [keys_of_createFlow h (hinv.stored t k hk).1.ne]

/-- The legs after a flow is opened. -/
theorem legs_createFlow {w : World} {m : RteMbuf} {env : PacketEnv} {r : PacketResult}
    (hinv : FlowInv w) (h : createFlow w m (getIpv4_5tuple m ipv4Mask) env = some r)
    {b : NatBinding} (hb : newBinding m.addressing (dequeuePortObject w.portPool).1 = b)
    (p : UInt8) (a : Addressing (UInt32 × UInt16)) :
    (translatorOf r.world).legs p a =
      ((translatorOf w).connected m.proto b env.recorded).legs p a := by
  have hout : RdarmFiveTuple.ofAddressing p a = getIpv4_5tuple m ipv4Mask ↔
      p = m.proto ∧ a = b.outLeg.key := by
    rw [getIpv4_5tuple_eq, RdarmFiveTuple.ofAddressing_inj, ← hb]
    rfl
  have hreply : RdarmFiveTuple.ofAddressing p a = replyTuple w m ↔
      p = m.proto ∧ a = b.inLeg.key := by
    rw [replyTuple, hb, RdarmFiveTuple.ofAddressing_inj]
  show (r.world.flowHashMap.lookup (.ofAddressing p a)).map _ = _
  rw [table_of_createFlow h, lookup_rteHashAddKeyData, lookup_rteHashAddKeyData]
  simp only [hreply, hout]
  cases hadd : env.addOut with
  | false =>
      simp only [PacketEnv.recorded, hadd, Bool.false_and, Bool.false_eq_true, false_and,
        if_false]
      exact map_modifyTuple_createFlow hinv h _
  | true =>
      have hpair := pairAt_createFlow h hadd
      rw [hb] at hpair
      have hmodifyBack := congrArg RdarmFiveTuple.addressing hpair.backModify
      have hmodifyOut := congrArg RdarmFiveTuple.addressing hpair.outModify
      cases hadd' : env.addBack with
      | false =>
          simp only [PacketEnv.recorded, hadd, hadd', Translator.connected,
            Translator.legs_record, Bool.and_false, if_true, Bool.false_eq_true, if_false,
            false_and, true_and]
          split
          · rw [Option.map_some, hmodifyOut, RdarmFiveTuple.addressing_ofAddressing]
          · exact map_modifyTuple_createFlow hinv h _
      | true =>
          simp only [PacketEnv.recorded, hadd, hadd', Translator.connected,
            Translator.legs_record, Bool.and_true, if_true, true_and]
          split
          · rw [Option.map_some, hmodifyBack, RdarmFiveTuple.addressing_ofAddressing]
          · split
            · rw [Option.map_some, hmodifyOut, RdarmFiveTuple.addressing_ofAddressing]
            · exact map_modifyTuple_createFlow hinv h _

/-- **Opening a flow connects**, as far as its insertions succeed. -/
theorem translatorOf_createFlow {w : World} {m : RteMbuf} {env : PacketEnv}
    {r : PacketResult} (hinv : FlowInv w)
    (h : createFlow w m (getIpv4_5tuple m ipv4Mask) env = some r) :
    translatorOf r.world = (translatorOf w).connected m.proto
      (newBinding m.addressing (dequeuePortObject w.portPool).1) env.recorded := by
  obtain ⟨-, -, -, hpool⟩ := frame_of_createFlow h
  refine Translator.ext ?_ ?_
  · funext p a
    exact legs_createFlow hinv h rfl p a
  · rw [Translator.pool_connected, translatorOf, hpool, dequeuePortObject_items, List.map_tail]
    rfl

/-- The frame that opens a flow, as it leaves. -/
theorem addressing_of_createFlow {w : World} {m : RteMbuf} {env : PacketEnv}
    {r : PacketResult} (h : createFlow w m (getIpv4_5tuple m ipv4Mask) env = some r) :
    r.mbuf.addressing = Translator.connectedSent
      (newBinding m.addressing (dequeuePortObject w.portPool).1) env.recorded := by
  rcases (createFlow_cases h).2 with ⟨hadd, rfl⟩ | ⟨hadd, -, rfl⟩
  · simp [PacketEnv.recorded, hadd, Translator.connectedSent, newBinding]
  · cases hadd' : env.addBack with
    | false => simp [PacketEnv.recorded, hadd, hadd', Translator.connectedSent, newBinding]
    | true =>
        simp only [PacketEnv.recorded, hadd, hadd', if_true, modifyPacket_addressing,
          getIpv4_5tuple_eq]
        rfl

/-- What a call gives to see. -/
theorem forwardedFrames_packet {w : World} {portId : UInt16} {m : RteMbuf} {env : PacketEnv}
    {r : PacketResult} (h : packetProcessing w m env = some r) (R : Reading) :
    forwardedFrames R w (.packet portId m env) =
      [⟨supportedPacketType m.packetType, R.proto m, R.addressing m, R.addressing r.mbuf⟩] := by
  simp only [forwardedFrames, h]

/-- A call leaves a frame as it is, or rewrites it. -/
theorem mbuf_packetProcessing_cases {w : World} {m : RteMbuf} {env : PacketEnv}
    {r : PacketResult} (h : packetProcessing w m env = some r) :
    r.mbuf = m ∨ ∃ t, r.mbuf = modifyPacket m t := by
  rcases packetProcessing_cases w m env with ⟨heq, -⟩ | ⟨heq, -⟩ | ⟨k, heq, -⟩ <;> rw [heq] at h
  · exact Or.inl (by rw [← Option.some.inj h])
  · rcases (createFlow_cases h).2 with ⟨-, rfl⟩ | ⟨-, -, rfl⟩
    · exact Or.inl rfl
    · cases env.addBack with
      | true => exact Or.inr ⟨_, rfl⟩
      | false => exact Or.inl rfl
  · exact Or.inr ⟨_, by rw [← Option.some.inj h]; rfl⟩

/-- A reading that agrees about a frame agrees about it after its call. -/
theorem Reading.Agrees.sent {R : Reading} {w : World} {m : RteMbuf} {env : PacketEnv}
    {r : PacketResult} (hR : R.Agrees m) (h : packetProcessing w m env = some r) :
    R.addressing r.mbuf = r.mbuf.addressing := by
  rcases mbuf_packetProcessing_cases h with heq | ⟨t, heq⟩ <;> rw [heq]
  · exact hR.addressing
  · rw [hR.modified, modifyPacket_addressing]

/-- **The step lemma**: a frame is an event of the translator. -/
theorem step_translator {R : Reading} {w : World} {portId : UInt16} {m : RteMbuf}
    {env : PacketEnv} {r : PacketResult} {e : TranslatorEvent UInt8 (UInt32 × UInt16)}
    (hinv : FlowInv w) (hR : supportedPacketType m.packetType = true → R.Agrees m)
    (h : packetProcessing w m env = some r)
    (he : translatorEvent R w (.packet portId m env) = some e) :
    Translator.step (natSource 0) (translatorOf w) e =
      some (translatorOf r.world, [⟨supportedPacketType m.packetType, R.proto m,
        R.addressing m, R.addressing r.mbuf⟩]) := by
  rcases packetProcessing_cases w m env with ⟨heq, hno⟩ | ⟨heq, hopen⟩ | ⟨k, heq, hs, hk⟩
  · rw [heq] at h
    obtain rfl := Option.some.inj h
    simp only [translatorEvent, hno, Bool.false_eq_true, if_false, Option.some.injEq] at he
    rw [← he, hno]
    rfl
  · have hagrees := hR hopen.1
    rw [hagrees.sent h, hagrees.proto, hagrees.addressing]
    rw [heq] at h
    simp only [translatorEvent, hopen.1, hopen.2, if_true, if_false, Option.some.injEq] at he
    rw [← he, hagrees.proto, hagrees.addressing, hopen.1, translatorOf_createFlow hinv h,
      addressing_of_createFlow h, ← nextBinding_translatorOf w m.addressing]
    have hnone : (translatorOf w).legs m.proto m.addressing = none := by
      rw [legs_translatorOf, hopen.lookup, Option.map_none]
    simp only [Translator.step, hnone]
  · have hagrees := hR hs
    rw [hagrees.sent h, hagrees.proto, hagrees.addressing]
    rw [heq] at h
    obtain rfl := Option.some.inj h
    have hmem : getIpv4_5tuple m ipv4Mask ∈ w.flowHashMap :=
      AList.lookup_isSome.mp (by rw [hk]; rfl)
    simp only [translatorEvent, hs, hmem, if_true, Option.some.injEq] at he
    have hleg : (translatorOf w).legs m.proto m.addressing =
        some (w.keys k).modifyTuple.addressing := by
      rw [legs_translatorOf, hk, Option.map_some]
    rw [← he, hagrees.proto, hagrees.addressing, hs, (keepsFlows_knownFlow w m k).translatorOf,
      addressing_knownFlow]
    simp only [Translator.step, hleg]

/-- Whatever is not a frame is nothing the translator sees. -/
theorem keepsFlows_of_translatorEvent {R : Reading} {w w' : World} {e : OffloadEvent}
    {os : List Obs} (h : Stepped w e w' os) (he : translatorEvent R w e = none) :
    KeepsFlows w w' := by
  rcases h.opens_or_keepsFlows with ⟨portId, m, env, r, rfl, hopen, -, -⟩ | hkeep
  · simp [translatorEvent, hopen.1, hopen.2] at he
  · exact hkeep

/-- **The simulation**, for any way to read the frames that agrees with the worker's. -/
def translation (R : Reading) : Simulation (forwardingMachine R) (fun _ e => e.ReadAlike R)
    (Translator.machine natPool (natSource 0)) where
  Rel w t := FlowInv w ∧ translatorOf w = t
  event := translatorEvent R
  stutter := by
    rintro w t e w' os ⟨hinv, rfl⟩ - hstep he
    obtain ⟨⟨os', hstep'⟩, rfl⟩ := Machine.step_viewed_eq_some_iff.mp hstep
    have hs := stepped_of_step hstep'
    refine ⟨?_, flowInv_step hinv hs, (keepsFlows_of_translatorEvent hs he).translatorOf⟩
    cases e with
    | packet portId m env =>
        simp only [translatorEvent] at he
        split at he
        · split at he <;> cases he
        · cases he
    | dequeueBurst => rfl
    | flowEngine _ _ => rfl
    | ageing _ _ => rfl
    | traffic _ _ _ => rfl
    | timeout _ => rfl
  simulate := by
    rintro w t e w' os d ⟨hinv, rfl⟩ hR hstep hd
    obtain ⟨⟨os', hstep'⟩, rfl⟩ := Machine.step_viewed_eq_some_iff.mp hstep
    have hinv' := flowInv_step hinv (stepped_of_step hstep')
    cases e with
    | packet portId m env =>
        cases hr : packetProcessing w m env with
        | none => simp [offloadMachine, offloadStep, hr] at hstep'
        | some r =>
            simp only [offloadMachine, offloadStep, hr, Option.some.injEq,
              Prod.mk.injEq] at hstep'
            obtain ⟨rfl, -⟩ := hstep'
            rw [forwardedFrames_packet hr]
            exact ⟨_, step_translator hinv hR hr hd, hinv', rfl⟩
    | dequeueBurst => cases hd
    | flowEngine _ _ => cases hd
    | ageing _ _ => cases hd
    | traffic _ _ _ => cases hd
    | timeout _ => cases hd

/-- The system starts as the translator does. -/
theorem translatorOf_of_init {w : World} (h : offloadMachine.Init w) :
    (Translator.machine natPool (natSource 0)).Init (translatorOf w) := by
  obtain ⟨mode, port0, port1, readSpec, -, rfl⟩ := init_iff.mp h
  refine Translator.ext ?_ rfl
  funext p a
  show ((∅ : FlowTable).lookup (.ofAddressing p a)).map
    (fun _ => SmtoFlowKey.zeroed.modifyTuple.addressing) = none
  rw [AList.lookup_empty, Option.map_none]

/-- Whatever reading agrees with the worker's. -/
theorem run_translator_of_readAlike {R : Reading} {w₀ w : World} {es : List OffloadEvent}
    {tr : List (Forwarded UInt8 (UInt32 × UInt16))} (hinit : offloadMachine.Init w₀)
    (hrun : (forwardingMachine R).RunWhile (fun _ e => e.ReadAlike R) w₀ es tr w) :
    ∃ t₀ ds, (Translator.machine natPool (natSource 0)).Init t₀ ∧
      (Translator.machine natPool (natSource 0)).Run t₀ ds tr (translatorOf w) := by
  obtain ⟨ds, t, hrun', -, rfl⟩ := (translation R).run hrun ⟨flowInv_of_init hinit, rfl⟩
  exact ⟨translatorOf w₀, ds, translatorOf_of_init hinit, hrun'⟩

/-- **The system translates addresses.**  Every run of the system on frames that have their
headers where the worker looks, shown as frames that come in and go out with what stands in
their own headers, is a run of the translator, from its start. -/
theorem run_translator {w₀ w : World} {es : List OffloadEvent}
    {tr : List (Forwarded UInt8 (UInt32 × UInt16))} (hinit : offloadMachine.Init w₀)
    (hrun : (forwardingMachine ownReading).RunWhile (fun _ e => e.FixedLayout) w₀ es tr w) :
    ∃ t₀ ds, (Translator.machine natPool (natSource 0)).Init t₀ ∧
      (Translator.machine natPool (natSource 0)).Run t₀ ds tr (translatorOf w) :=
  run_translator_of_readAlike hinit (hrun.mono fun _ _ h => h.readAlike)

/-- One flow is opened: the translator connects once. -/
theorem run_translator_oneFlow :
    ∃ tr t₀ ds, (Translator.machine natPool (natSource 0)).Init t₀ ∧
      (Translator.machine natPool (natSource 0)).Run t₀ ds tr (translatorOf oneFlowWorld) := by
  have hlayout := run_oneFlowWorld.runWhile (G := fun _ e => e.FixedLayout) (by decide +kernel)
  obtain ⟨tr, hrun⟩ := hlayout.exists_viewed (forwardedFrames ownReading)
  exact ⟨tr, run_translator init_initialSingle hrun⟩

/-! ### What a worker sends -/

/-- A frame a worker hands to `rte_eth_tx_burst`, as the outsider sees it. -/
def LoopObs.forwarded : LoopObs → Option (Forwarded UInt8 (UInt32 × UInt16))
  | .offered packet => some ⟨supportedPacketType packet.received.packetType,
      packet.received.ownProto, packet.received.ownAddressing,
      packet.mbuf.frame.ownAddressing⟩
  | _ => none

/-- The outsider sees of a frame what the worker reads, if its headers are where the worker
looks. -/
theorem forwardedFrames_workerReading {w : World} {portId : UInt16} {m : RteMbuf}
    {env : PacketEnv} {r : PacketResult} (h : packetProcessing w m env = some r)
    (hlayout : supportedPacketType m.packetType = true → m.FixedLayout) :
    forwardedFrames workerReading w (.packet portId m env) =
      [⟨supportedPacketType m.packetType, m.ownProto, m.ownAddressing,
        r.mbuf.ownAddressing⟩] := by
  rw [forwardedFrames_packet h]
  by_cases hs : supportedPacketType m.packetType = true
  · have hworker := agrees_workerReading hs
    have hown := agrees_ownReading (hlayout hs)
    rw [hworker.proto, hworker.addressing, hworker.sent h, ← hown.proto, ← hown.addressing,
      ← hown.sent h]
    rfl
  · rw [packetProcessing_unsupported (Bool.eq_false_of_not_eq_true hs)] at h
    obtain rfl := Option.some.inj h
    simp only [workerReading, hs, if_false, Bool.false_eq_true]

/-- A burst is a run of the system, in which its frames are seen among those of the other
threads. -/
theorem run_of_processPackets {calls : ℕ → CallInput} {slots : List (Option Mbuf)} :
    ∀ {w w' : World} {i : ℕ} {done : List Processed},
      (∀ m, some m ∈ slots → supportedPacketType m.frame.packetType = true →
        m.frame.FixedLayout) →
      processPackets w calls i slots = some (w', done) →
        ∃ es tr, (forwardingMachine workerReading).Run w es tr w' ∧
          ((done.map LoopObs.offered).filterMap LoopObs.forwarded).Sublist tr := by
  induction slots with
  | nil =>
      intro w w' i done _ h
      obtain ⟨rfl, rfl⟩ := Prod.mk.inj (Option.some.inj h)
      exact ⟨[], [], .nil _, .slnil⟩
  | cons slot rest ih =>
      intro w w' i done hlayout h
      cases slot with
      | none => cases h
      | some m =>
          simp only [processPackets] at h
          split at h
          · cases h
          next w₁ os hothers =>
            split at h
            · cases h
            next r hr =>
              split at h
              · cases h
              next w₂ done' hrest =>
                obtain ⟨rfl, rfl⟩ := Prod.mk.inj (Option.some.inj h)
                -- what the other threads do, the call itself, and the rest of the burst
                obtain ⟨tr₁, hrun₁⟩ :=
                  (Machine.run_of_exec hothers).exists_viewed (forwardedFrames workerReading)
                have hstep : (forwardingMachine workerReading).step w₁
                    (.packet 0 m.frame (calls i).env) = some (r.world,
                      forwardedFrames workerReading w₁ (.packet 0 m.frame (calls i).env)) :=
                  Machine.step_viewed_eq_some_iff.mpr
                    ⟨⟨packetObs w₁ m.frame r, by simp only [offloadMachine, offloadStep, hr]⟩, rfl⟩
                rw [forwardedFrames_workerReading hr (hlayout m List.mem_cons_self)] at hstep
                obtain ⟨es₂, tr₂, hrun₂, hsub⟩ :=
                  ih (fun m hm => hlayout m (List.mem_cons_of_mem _ hm)) hrest
                refine ⟨_, _, (hrun₁.snoc hstep).append hrun₂, ?_⟩
                rw [List.append_assoc]
                exact (hsub.cons_cons _).trans (List.sublist_append_right ..)

/-- A turn without frames leaves the shared state alone. -/
theorem world_of_received_nil {s s' : ProcessLoop} {it : Iteration} {os : List LoopObs}
    (h : processLoopBody s it = some (s', os)) (hnil : it.received = []) :
    s'.world = s.world := by
  simp only [processLoopBody, hnil, List.length_nil, ne_eq, not_true, if_false,
    Option.some.injEq, Prod.mk.injEq] at h
  rw [← h.1]

/-- What a turn sends is what its calls leave. -/
theorem forwarded_of_turn (received taken freed : List Mbuf) (done : List Processed) :
    ((received.map fun m => LoopObs.received m.ptr) ++ done.map LoopObs.offered ++
        (taken.map fun m => LoopObs.taken m.ptr) ++
        freed.map fun m => LoopObs.freed m.ptr).filterMap LoopObs.forwarded =
      (done.map LoopObs.offered).filterMap LoopObs.forwarded := by
  have hnil (obs : ℕ → LoopObs) (hobs : ∀ ptr, (obs ptr).forwarded = none) (ms : List Mbuf) :
      (ms.map fun m => obs m.ptr).filterMap LoopObs.forwarded = [] := by
    rw [List.filterMap_map, List.filterMap_eq_nil_iff]
    exact fun m _ => hobs m.ptr
  rw [List.filterMap_append, List.filterMap_append, List.filterMap_append,
    hnil .received fun _ => rfl, hnil .taken fun _ => rfl, hnil .freed fun _ => rfl,
    List.nil_append, List.append_nil, List.append_nil]

/-- **A worker translates addresses.**  The frames that any run of `process_loop` hands to
`rte_eth_tx_burst` are, in order, among the frames of a run of the translator, as long as
those it receives have their headers where it looks. -/
theorem processLoop_translator {s₀ s : ProcessLoop} {its : List Iteration}
    {tr : List LoopObs} (hinit : processLoopMachine.Init s₀)
    (hrun : processLoopMachine.RunWhile TurnFixedLayout s₀ its tr s) :
    ∃ t₀ ds tr', (Translator.machine natPool (natSource 0)).Init t₀ ∧
      (Translator.machine natPool (natSource 0)).Run t₀ ds tr' (translatorOf s.world) ∧
        (tr.filterMap LoopObs.forwarded).Sublist tr' := by
  obtain ⟨⟨w₀, es₀, tr₀, hinit₀, hrun₀⟩, -⟩ := hinit
  obtain ⟨tr₀', hrun₀'⟩ := hrun₀.exists_viewed (forwardedFrames workerReading)
  have hloop : ∃ es tr', (forwardingMachine workerReading).Run s₀.world es tr' s.world ∧
      (tr.filterMap LoopObs.forwarded).Sublist tr' := by
    refine hrun.invariant (P := fun s tr => ∃ es tr', (forwardingMachine workerReading).Run
      s₀.world es tr' s.world ∧ (tr.filterMap LoopObs.forwarded).Sublist tr')
      ⟨[], [], .nil _, .slnil⟩ ?_
    rintro s tr it s' os ⟨es, tr', hrun', hsub⟩ hlayout hstep
    rcases processLoopBody_cases hstep with ⟨hnil, rfl⟩ | ⟨done, hdone, rfl⟩
    · rw [List.append_nil, world_of_received_nil hstep hnil]
      exact ⟨es, tr', hrun', hsub⟩
    · obtain ⟨es₁, tr₁, hrun₁, hsub₁⟩ := run_of_processPackets hlayout.slots hdone
      refine ⟨_, _, hrun'.append hrun₁, ?_⟩
      rw [List.filterMap_append, forwarded_of_turn]
      exact hsub.append hsub₁
  obtain ⟨es, tr', hrun', hsub⟩ := hloop
  obtain ⟨t₀, ds, hstart, htrans⟩ := run_translator_of_readAlike hinit₀
    ((hrun₀'.append hrun').mono fun _ e _ => readAlike_workerReading e)
  exact ⟨t₀, ds, _, hstart, htrans, hsub.trans (List.sublist_append_right ..)⟩

theorem processLoop_translator_threeTurns :
    ∃ tr s t₀ ds tr', processLoopMachine.Run initialLoop threeTurns tr s ∧
      (Translator.machine natPool (natSource 0)).Init t₀ ∧
      (Translator.machine natPool (natSource 0)).Run t₀ ds tr' (translatorOf s.world) ∧
        (tr.filterMap LoopObs.forwarded).Sublist tr' := by
  have hrun := Machine.run_exec_get threeTurns_isSome
  obtain ⟨t₀, ds, tr', htrans⟩ :=
    processLoop_translator init_initialLoop (hrun.runWhile (by decide +kernel))
  exact ⟨_, _, t₀, ds, tr', hrun, htrans⟩

/-! ### A conversation -/

/-- An event that opens no flow whose replies would carry one of these tuples. -/
def SparesTuples (tuples : List RdarmFiveTuple) (w : World) : OffloadEvent → Prop
  | .packet _ m env => OpensFlow w m → env.addOut = true → env.addBack = true →
      replyTuple w m ∉ tuples
  | _ => True

instance decidableSparesTuples (tuples : List RdarmFiveTuple) (w : World) :
    DecidablePred (SparesTuples tuples w)
  | .packet _ m env =>
      inferInstanceAs (Decidable (OpensFlow w m → env.addOut = true → env.addBack = true → _))
  | .dequeueBurst => inferInstanceAs (Decidable True)
  | .flowEngine _ _ => inferInstanceAs (Decidable True)
  | .ageing _ _ => inferInstanceAs (Decidable True)
  | .traffic _ _ _ => inferInstanceAs (Decidable True)
  | .timeout _ => inferInstanceAs (Decidable True)

/-- **How a call forwards a frame**: it succeeds, the frame is addressed so in its own
headers, and nothing but its addresses and ports has changed. -/
def ForwardsAs (w : World) (m : RteMbuf) (env : PacketEnv)
    (a : Addressing (UInt32 × UInt16)) : Prop :=
  ∃ r, packetProcessing w m env = some r ∧ r.ret = .success ∧ r.mbuf.ownAddressing = a ∧
    ∀ i, i < 26 ∨ 38 ≤ i → r.mbuf.data i = m.data i

/-- A frame of a leg is forwarded by it. -/
theorem forwardsAs_of_legs {w : World} {m : RteMbuf} {a : Addressing (UInt32 × UInt16)}
    (hs : supportedPacketType m.packetType = true) (hlayout : m.FixedLayout)
    (hleg : (translatorOf w).legs m.proto m.addressing = some a) (env : PacketEnv) :
    ForwardsAs w m env a := by
  rw [legs_translatorOf, Option.map_eq_some_iff] at hleg
  obtain ⟨k, hk, rfl⟩ := hleg
  have hr : packetProcessing w m env = some (knownFlow w m k) := packetProcessing_known hs hk
  refine ⟨_, hr, rfl, ?_, fun i hi => modifyPacket_data_of_notMem _ _ hi⟩
  exact ((agrees_ownReading hlayout).sent hr).trans (addressing_knownFlow w m k)

/-- What spares the tuples of a conversation spares its legs. -/
theorem spares_of_sparesTuples {w : World} {p : UInt8} {e : OffloadEvent}
    {d : TranslatorEvent UInt8 (UInt32 × UInt16)} {keys : List (Addressing (UInt32 × UInt16))}
    (he : SparesTuples (keys.map (.ofAddressing p)) w e)
    (hd : translatorEvent workerReading w e = some d) :
    Translator.Spares (natSource 0) p keys (translatorOf w) d := by
  cases e with
  | packet portId m env =>
      simp only [translatorEvent] at hd
      split at hd
      next hs =>
        split at hd
        · obtain rfl := Option.some.inj hd
          trivial
        next hnot =>
          obtain rfl := Option.some.inj hd
          cases hrec : env.recorded with
          | neither => trivial
          | outOnly => trivial
          | both =>
              have hadds : env.addOut = true ∧ env.addBack = true := by
                unfold PacketEnv.recorded at hrec
                split at hrec
                · split at hrec
                  · exact ⟨‹_›, ‹_›⟩
                  · cases hrec
                · cases hrec
              have hagrees := agrees_workerReading hs
              rw [hagrees.proto, hagrees.addressing]
              rintro rfl hmem
              rw [nextBinding_translatorOf] at hmem
              exact he ⟨hs, hnot⟩ hadds.1 hadds.2 (List.mem_map_of_mem hmem)
      · obtain rfl := Option.some.inj hd
        trivial
  | dequeueBurst => cases hd
  | flowEngine _ _ => cases hd
  | ageing _ _ => cases hd
  | traffic _ _ _ => cases hd
  | timeout _ => cases hd

/-- **A conversation.**  A frame with its headers where the worker looks has opened a flow.
After any run in which no later flow takes one of the two tuples, whatever was offloaded,
timed out or destroyed in it: such frames addressed like the first one leave as it left, and
replies to what left go back to where it came from. -/
theorem conversation {w : World} (hw : offloadMachine.Reachable w) {m : RteMbuf}
    {env : PacketEnv} {r : PacketResult} (hopen : OpensFlow w m) (hlayout : m.FixedLayout)
    (hr : packetProcessing w m env = some r) (hret : r.ret = .success)
    {es : List OffloadEvent} {tr : List Obs} {w' : World}
    (hrun : offloadMachine.RunWhile
      (SparesTuples [getIpv4_5tuple m ipv4Mask, replyTuple w m]) r.world es tr w')
    {m' : RteMbuf} (hs : supportedPacketType m'.packetType = true) (hlayout' : m'.FixedLayout)
    (hproto : m'.ownProto = m.ownProto) (env' : PacketEnv) :
    (m'.ownAddressing = m.ownAddressing → ForwardsAs w' m' env' r.mbuf.ownAddressing) ∧
      (m'.ownAddressing = r.mbuf.ownAddressing.swap →
        ForwardsAs w' m' env' m.ownAddressing.swap) := by
  have hsentOwn : r.mbuf.ownAddressing = r.mbuf.addressing := (agrees_ownReading hlayout).sent hr
  rw [ownProto_of_fixedLayout hlayout, ownProto_of_fixedLayout hlayout'] at hproto
  rw [hsentOwn, ownAddressing_of_fixedLayout hlayout, ownAddressing_of_fixedLayout hlayout']
  have hinv := flowInv_of_reachable hw
  rw [packetProcessing_of_opensFlow hopen] at hr
  -- both insertions have succeeded
  have hrec : env.recorded = .both := by
    rcases (createFlow_cases hr).2 with ⟨-, rfl⟩ | ⟨hadd, -, rfl⟩
    · cases hret
    · cases hadd' : env.addBack with
      | false => simp [hadd'] at hret
      | true => simp [PacketEnv.recorded, hadd, hadd']
  generalize hb : newBinding m.addressing (dequeuePortObject w.portPool).1 = b
  have hinside : b.inside = m.addressing := by rw [← hb]; rfl
  have hsent : r.mbuf.addressing = b.outLeg.out := by
    rw [addressing_of_createFlow hr, hrec, hb]
    rfl
  have hstart : (translatorOf r.world).Connected m.proto b := by
    rw [translatorOf_createFlow hinv hr, hrec, hb]
    exact Translator.connected_both b
  -- the run is one of the translator, and spares the two legs there too
  obtain ⟨tr', hview⟩ := hrun.exists_viewed (forwardedFrames workerReading)
  have htuples : [getIpv4_5tuple m ipv4Mask, replyTuple w m] =
      [b.outLeg.key, b.inLeg.key].map (.ofAddressing m.proto) := by
    rw [getIpv4_5tuple_eq, replyTuple, hb, ← hinside]
    rfl
  obtain ⟨ds, t, htrans, -, rfl⟩ := (translation workerReading).runWhile hview
    ⟨flowInv_createFlow hinv hr, rfl⟩ (fun {_ e} _ => readAlike_workerReading e)
    (H := Translator.Spares (natSource 0) m.proto [b.outLeg.key, b.inLeg.key]) (by
    rintro s t e d ⟨-, rfl⟩ hguard hd
    rw [htuples] at hguard
    exact spares_of_sparesTuples hguard hd)
  have hend := hstart.of_runWhile htrans
  constructor
  · intro ha
    refine forwardsAs_of_legs hs hlayout' ?_ env'
    rw [hproto, ha, ← hinside, hsent]
    exact hend.out
  · intro ha
    refine forwardsAs_of_legs hs hlayout' ?_ env'
    rw [hproto, ha, ← hinside, hsent]
    exact hend.back

/-- The call that opens the first flow. -/
def firstCall : Option PacketResult :=
  packetProcessing initialSingle (udpFrame 100 ⟨client, server⟩) .allSucceed

theorem firstCall_isSome : firstCall.isSome = true := by decide +kernel

/-- Four more frames, the flow is offloaded, and its out-direction rule times out. -/
def laterEvents : List OffloadEvent :=
  List.replicate 4 (.udp client server) ++ [.dequeueBurst, .flowEngine true true, .timeout 2,
    .ageing 0 (some [⟨2, true, (0, 0), true⟩])]

theorem laterEvents_isSome :
    (offloadMachine.exec (firstCall.get firstCall_isSome).world laterEvents).isSome = true := by
  decide +kernel

/-- The client's next frame leaves from the same public endpoint, and the server's answer
reaches the client. -/
theorem conversation_offloaded :
    ∃ tr w', offloadMachine.Run (firstCall.get firstCall_isSome).world laterEvents tr w' ∧
      ForwardsAs w' (udpFrame 60 ⟨client, server⟩) .allSucceed ⟨natSource 1, server⟩ ∧
      ForwardsAs w' (udpFrame 60 ⟨server, natSource 1⟩) .allSucceed ⟨server, client⟩ := by
  have hreach : offloadMachine.Reachable initialSingle :=
    ⟨_, [], [], init_initialSingle, .nil _⟩
  have hopen : OpensFlow initialSingle (udpFrame 100 ⟨client, server⟩) := by decide +kernel
  have hr : packetProcessing initialSingle (udpFrame 100 ⟨client, server⟩) .allSucceed =
      some (firstCall.get firstCall_isSome) := (Option.some_get firstCall_isSome).symm
  have hrun := Machine.run_exec_get laterEvents_isSome
  have hguard := hrun.runWhile (G := SparesTuples
    [getIpv4_5tuple (udpFrame 100 ⟨client, server⟩) ipv4Mask,
      replyTuple initialSingle (udpFrame 100 ⟨client, server⟩)]) (by decide +kernel)
  have hsent : (firstCall.get firstCall_isSome).mbuf.ownAddressing = ⟨natSource 1, server⟩ := by
    decide +kernel
  have hret : (firstCall.get firstCall_isSome).ret = .success := by decide +kernel
  have hlayout : ∀ a, (udpFrame 60 a).FixedLayout := udpFrame_fixedLayout 60
  refine ⟨_, _, hrun, ?_, ?_⟩
  · rw [← hsent]
    exact (conversation hreach hopen (udpFrame_fixedLayout 100 _) hr hret hguard
      (udpFrame_supported 60 _) (hlayout _) (by rw [udpFrame_ownProto, udpFrame_ownProto])
      .allSucceed).1 (by rw [udpFrame_ownAddressing, udpFrame_ownAddressing])
  · have hback := (conversation hreach hopen (udpFrame_fixedLayout 100 _) hr hret hguard
      (udpFrame_supported 60 ⟨server, natSource 1⟩) (hlayout _)
      (by rw [udpFrame_ownProto, udpFrame_ownProto]) .allSucceed).2
      (by rw [udpFrame_ownAddressing, hsent]; rfl)
    rw [udpFrame_ownAddressing] at hback
    exact hback

end SmartOffload
