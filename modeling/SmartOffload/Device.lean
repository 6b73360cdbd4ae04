import SmartOffload.Dispatch
import SmartOffload.FastPath
import SmartOffload.FlowHistory
import SmartOffload.Translation

/-!
# The system behind its NIC

Every plain frame meets the NIC first: the table of its port decides whether a rule rewrites
and forwards it, or `packet_processing` gets it.  `deviceMachine` is the running system with
that choice in front of it.

The NIC is transparent as long as nobody can tell which way a frame has gone.  Over runs in
which no second insertion fails alone and no rule catches the frames of another flow, that is
so exactly when every frame that a rule catches on the first port is of a flow the rule's
constant happens to translate (`transparent_iff`); and then the device as a whole is a source
address translator (`run_translator_device`).
-/

namespace SmartOffload

open RuleTable

/-- One thing that happens to the device. -/
inductive DeviceEvent where
  /-- A plain frame arrives on a port and is handled by this rule, if by any.  The
  environment is that of `packet_processing`, should it get the frame. -/
  | frame (portId : UInt16) (m : PlainFrame) (env : PacketEnv) (o : Option FlowHandle)
  /-- Anything that is no frame. -/
  | background (e : OffloadEvent)

/-- The rule that keeps a frame on the NIC: it sends to the hairpin queue. -/
def Nic.hairpinned (nic : Nic) (o : Option FlowHandle) : Option (FlowHandle × RteFlow) :=
  match o with
  | none => none
  | some h =>
      match nic.flows h with
      | none => none
      | some r => if r.queues = [hairpinQueueIndex] then some (h, r) else none

/-- What an event is for the system.  A frame that stays on the NIC is only counted. -/
def systemEvent (w : World) : DeviceEvent → Option OffloadEvent
  | .frame portId m env o =>
      match w.nic.hairpinned o with
      | some (h, _) => some (.traffic h 1 m.1.pktLen.toUInt64)
      | none => some (.packet portId m.1 env)
  | .background (.packet _ _ _) => none
  | .background (.traffic _ _ _) => none
  | .background e => some e

/-- What `packet_processing` would make of the frame of an event. -/
def softwareFrames (w : World) : DeviceEvent → List (Forwarded UInt8 (UInt32 × UInt16))
  | .frame portId m env _ => forwardedFrames ownReading w (.packet portId m.1 env)
  | .background _ => []

/-- What the device makes of it. -/
def deviceFrames (w : World) : DeviceEvent → List (Forwarded UInt8 (UInt32 × UInt16))
  | .frame portId m env o =>
      match w.nic.hairpinned o with
      | some (_, r) => [⟨supportedPacketType m.1.packetType, m.1.ownProto, m.1.ownAddressing,
          (applyActions r.actions m.1).ownAddressing⟩]
      | none => forwardedFrames ownReading w (.packet portId m.1 env)
  | .background _ => []

/-- One event. -/
def deviceStep (w : World) (e : DeviceEvent) :
    Option (World × List (Forwarded UInt8 (UInt32 × UInt16))) :=
  match systemEvent w e with
  | none => none
  | some e' =>
      match offloadStep w e' with
      | none => none
      | some (w', _) => some (w', deviceFrames w e)

/-- **The device, seen from outside.** -/
def deviceMachine : Machine World DeviceEvent (Forwarded UInt8 (UInt32 × UInt16)) where
  Init := offloadMachine.Init
  step := deviceStep

/-- **The NIC goes by its rules**, and by the type it has recognised a frame to be of. -/
def NicDecides (w : World) : DeviceEvent → Prop
  | .frame portId m _ o => supportedPacketType m.1.packetType = true ∧
      Handled (w.nic.table portId) m 0 o
  | .background _ => True

/-- No second insertion fails alone. -/
def DeviceEvent.InsertsBoth : DeviceEvent → Prop
  | .frame _ _ env _ => env.addOut = true → env.addBack = true
  | .background _ => True

/-- **No rule is misread as one for this frame**: those that catch it are of its tuple. -/
def CatchesOwn (w : World) : DeviceEvent → Prop
  | .frame portId m _ _ => portId = w.port0 → ∀ h k, Catches w portId m.1 h k →
      (w.keys k).tuple = getIpv4_5tuple m.1 ipv4Mask
  | .background _ => True

/-- The steps looked at here. -/
structure RegularStep (w : World) (e : DeviceEvent) : Prop where
  decides : NicDecides w e
  own : CatchesOwn w e
  both : e.InsertsBoth

/-- **The rules serve a frame**: if one catches it on the first port, the constant of the
rules is the translation of its flow. -/
def RulesServe (w : World) : DeviceEvent → Prop
  | .frame portId m _ _ => portId = w.port0 → (∃ h k, Catches w portId m.1 h k) →
      ∀ k, w.flowHashMap.lookup (getIpv4_5tuple m.1 ipv4Mask) = some k → RuleTranslates w k
  | .background _ => True

/-- The inversion of `deviceStep`. -/
theorem step_of_deviceStep {w w' : World} {e : DeviceEvent}
    {os : List (Forwarded UInt8 (UInt32 × UInt16))} (h : deviceStep w e = some (w', os)) :
    ∃ e' os', systemEvent w e = some e' ∧ offloadStep w e' = some (w', os') ∧
      os = deviceFrames w e := by
  unfold deviceStep at h
  cases he : systemEvent w e with
  | none =>
      rw [he] at h
      cases h
  | some e' =>
      rw [he] at h
      dsimp only at h
      cases hstep : offloadStep w e' with
      | none =>
          rw [hstep] at h
          cases h
      | some next =>
          obtain ⟨w₁, os'⟩ := next
          rw [hstep] at h
          obtain ⟨rfl, rfl⟩ := Prod.mk.inj (Option.some.inj h)
          exact ⟨e', os', rfl, hstep, rfl⟩

/-! ### Recorded flows -/

/-- **Both keys of a flow are in the table**, under their own tuples or taken over there. -/
def FlowsRecorded (w : World) : Prop :=
  ∀ k : KeyPtr, k.serial < w.serial → Paired w k.serial →
    (w.keys k).tuple ∈ w.flowHashMap

/-- Tuples stay in the table. -/
theorem Extends.mem {w w' : World} (h : Extends w w') {t : RdarmFiveTuple}
    (ht : t ∈ w.flowHashMap) : t ∈ w'.flowHashMap := by
  obtain ⟨k, hk⟩ := Option.isSome_iff_exists.mp (AList.lookup_isSome.mpr ht)
  rcases h.stored t k hk with hk' | ⟨n, -, hk'⟩ <;>
    exact AList.lookup_isSome.mp (by rw [hk']; rfl)

/-- Recorded flows stay recorded. -/
theorem FlowsRecorded.of_extends {w w' : World} (hrec : FlowsRecorded w) (h : Extends w w')
    {k : KeyPtr} (hk : k.serial < w.serial) (hp : Paired w' k.serial) :
    (w'.keys k).tuple ∈ w'.flowHashMap := by
  obtain ⟨p, b, hp⟩ := hp
  rw [h.tuple k hk]
  exact h.mem (hrec k hk ⟨p, b, (h.pairAt_iff hk).mp hp⟩)

/-- A call whose first insertion fails leaves no pair. -/
theorem not_paired_of_createFlow {w : World} {m : RteMbuf} {t : RdarmFiveTuple}
    {env : PacketEnv} {r : PacketResult} (h : createFlow w m t env = some r)
    (hadd : env.addOut = false) : ¬ Paired r.world w.serial := by
  rintro ⟨p, b, hp⟩
  rcases (createFlow_cases h).2 with ⟨-, rfl⟩ | ⟨hadd', -⟩
  · have hlink := hp.outLink
    simp only [addFlow, Function.update_self] at hlink
    cases hlink
  · rw [hadd] at hadd'
    cases hadd'

/-- A new flow is recorded, if its insertions do not part. -/
theorem flowsRecorded_createFlow {w : World} {m : RteMbuf} {env : PacketEnv}
    {r : PacketResult} (hrec : FlowsRecorded w) (hopen : OpensFlow w m)
    (h : createFlow w m (getIpv4_5tuple m ipv4Mask) env = some r)
    (hboth : env.addOut = true → env.addBack = true) : FlowsRecorded r.world := by
  intro k hk hp
  obtain ⟨hserial, -⟩ := frame_of_createFlow h
  rw [hserial] at hk
  rcases Nat.lt_succ_iff_lt_or_eq.mp hk with hlt | heq
  · exact hrec.of_extends (extends_createFlow hopen h) hlt hp
  · cases hadd : env.addOut with
    | false => exact absurd (heq ▸ hp) (not_paired_of_createFlow h hadd)
    | true =>
        have hpair := pairAt_createFlow h hadd
        have hmem : ∀ t, t = getIpv4_5tuple m ipv4Mask ∨ t = replyTuple w m →
            t ∈ r.world.flowHashMap := by
          intro t ht
          apply AList.lookup_isSome.mp
          rw [table_of_createFlow h, hadd, hboth hadd, lookup_rteHashAddKeyData,
            lookup_rteHashAddKeyData]
          rcases ht with rfl | rfl
          · split <;> simp
          · simp
        apply hmem
        rcases k.eq_out_or_eq_back with hout | hback
        · refine Or.inl ?_
          rw [hout, heq, hpair.outTuple, getIpv4_5tuple_eq]
          rfl
        · refine Or.inr ?_
          rw [hback, heq, hpair.backTuple]
          rfl

/-! ### What a regular run keeps -/

/-- The invariants of the system, with flows recorded. -/
structure DeviceInv (w : World) : Prop where
  flow : FlowInv w
  rules : RulesInv w
  recorded : FlowsRecorded w

theorem deviceInv_of_init {w : World} (h : offloadMachine.Init w) : DeviceInv w where
  flow := flowInv_of_init h
  rules := rulesInv_of_init h
  recorded := by
    obtain ⟨mode, port0, port1, readSpec, -, rfl⟩ := init_iff.mp h
    exact fun k hk => absurd hk (Nat.not_lt_zero k.serial)

/-- The step lemma. -/
theorem deviceInv_step {w w' : World} {e : DeviceEvent}
    {os : List (Forwarded UInt8 (UInt32 × UInt16))} (hinv : DeviceInv w)
    (hboth : e.InsertsBoth) (h : deviceStep w e = some (w', os)) : DeviceInv w' := by
  obtain ⟨e', os', he, hstep, -⟩ := step_of_deviceStep h
  have hs := stepped_of_step hstep
  refine ⟨flowInv_step hinv.flow hs, rulesInv_step hinv.flow hinv.rules hs, ?_⟩
  rcases hs.opens_or_keepsFlows with ⟨portId, m, env, r, rfl, hopen, hr, rfl⟩ | hkeep
  · -- only a frame the NIC hands over opens a flow
    refine flowsRecorded_createFlow hinv.recorded hopen hr ?_
    cases e with
    | frame portId' m' env' o =>
        simp only [systemEvent] at he
        split at he
        · cases he
        · cases he
          exact hboth
    | background e =>
        cases e <;> cases he
  · intro k hk hp
    rw [hkeep.serial] at hk
    exact hinv.recorded.of_extends hkeep.toExtends hk hp

/-! ### What the NIC does to a frame -/

/-- An offload rule is a hairpin rule. -/
theorem hairpinned_of_actions {nic : Nic} {h : FlowHandle} {r : RteFlow} {k : KeyPtr}
    (hr : nic.flows h = some r) (hactions : r.actions = generalOffloadActions k) :
    nic.hairpinned (some h) = some (h, r) := by
  have hqueues : r.queues = [hairpinQueueIndex] := by
    rw [RteFlow.queues, hactions]
    rfl
  simp only [Nic.hairpinned, hr, hqueues, if_true]

/-- What is delivered to a general queue does not stay on the NIC. -/
theorem hairpinned_of_delivered {nic : Nic} {o : Option FlowHandle}
    (h : DeliveredToGeneral nic o) : nic.hairpinned o = none := by
  cases o with
  | none => rfl
  | some i =>
      unfold Nic.hairpinned
      dsimp only
      split
      · rfl
      next r hr =>
        refine if_neg fun hqueues => ?_
        have hlt : hairpinQueueIndex < generalQueuesQuantity := by
          apply h.2
          rw [Nic.receiveQueues, hr, Option.map_some, Option.getD_some, hqueues]
          exact List.mem_singleton_self _
        exact absurd hlt (by decide)

/-- **Where a frame goes**, whatever the NIC makes of its rules: it stays on the NIC exactly
if a rule catches it on the first port, and is then handled by such a rule. -/
theorem hairpinned_of_handled {w : World} (hrules : RulesInv w) {portId : UInt16}
    {m : PlainFrame} {o : Option FlowHandle} (ho : Handled (w.nic.table portId) m 0 o) :
    (∃ h r k, w.nic.hairpinned o = some (h, r) ∧ portId = w.port0 ∧
        Catches w portId m.1 h k ∧ r.actions = generalOffloadActions k) ∨
      w.nic.hairpinned o = none ∧
        ¬ (portId = w.port0 ∧ ∃ h k, Catches w portId m.1 h k) := by
  by_cases hport : portId = w.port0
  · subst hport
    rcases handled_port0_cases hrules ho with
      ⟨h, k, r, rfl, hcatch, hr, hactions⟩ | ⟨hdelivered, hnone⟩
    · exact Or.inl ⟨h, r, k, hairpinned_of_actions hr hactions, rfl, hcatch, hactions⟩
    · refine Or.inr ⟨hairpinned_of_delivered hdelivered, ?_⟩
      rintro ⟨-, h, k, hcatch⟩
      exact hnone h k hcatch
  · rw [(handled_of_ne_port0_iff hrules hport m o).mp ho]
    exact Or.inr ⟨rfl, fun hl => hport hl.1⟩

/-- A plain frame has its headers where the worker looks. -/
theorem PlainFrame.fixedLayout (m : PlainFrame) : m.1.FixedLayout :=
  ⟨m.2.untagged, m.2.optionLess⟩

/-- What a rule does to the frame's own addressing. -/
theorem ownAddressing_applyActions (k : KeyPtr) (m : PlainFrame) :
    (applyActions (generalOffloadActions k) m.1).ownAddressing =
      ⟨m.1.addressing.src, (ruleDst, m.1.addressing.dst.2)⟩ := by
  have hsame : ∀ i, i < 26 →
      (applyActions (generalOffloadActions k) m.1).data i = m.1.data i := fun i hi =>
    ByteMemory.store32_of_notMem _ _ (by simp only [etherHdrLen, dstAddrOffset]; omega)
  have hlayout : (applyActions (generalOffloadActions k) m.1).FixedLayout :=
    fixedLayout_congr hsame m.fixedLayout
  rw [ownAddressing_of_fixedLayout hlayout, applyActions_generalOffloadActions]

/-! ### Transparency -/

/-- A frame of a known flow, as `packet_processing` sends it. -/
theorem softwareFrames_of_known {w : World} {portId : UInt16} {m : PlainFrame}
    {env : PacketEnv} {o : Option FlowHandle} {k : KeyPtr}
    (hs : supportedPacketType m.1.packetType = true)
    (hk : w.flowHashMap.lookup (getIpv4_5tuple m.1 ipv4Mask) = some k) :
    softwareFrames w (.frame portId m env o) =
      [⟨supportedPacketType m.1.packetType, m.1.ownProto, m.1.ownAddressing,
        (w.keys k).modifyTuple.addressing⟩] := by
  have hr : packetProcessing w m.1 env = some (knownFlow w m.1 k) := packetProcessing_known hs hk
  have hsent : (knownFlow w m.1 k).mbuf.ownAddressing = (knownFlow w m.1 k).mbuf.addressing :=
    (agrees_ownReading m.fixedLayout).sent hr
  rw [softwareFrames, forwardedFrames_packet hr, ← addressing_knownFlow w m.1 k, ← hsent]
  rfl

/-- A frame that a rule of its tuple catches is of a flow in the table. -/
theorem DeviceInv.known_of_catches {w : World} (hinv : DeviceInv w) {portId : UInt16}
    {m : RteMbuf} {h : FlowHandle} {k : KeyPtr} (hcatch : Catches w portId m h k)
    (htuple : (w.keys k).tuple = getIpv4_5tuple m ipv4Mask) :
    ∃ k', w.flowHashMap.lookup (getIpv4_5tuple m ipv4Mask) = some k' := by
  obtain ⟨hlt, hp⟩ := hinv.flow.owned h k hcatch.owner
  rw [← htuple]
  exact Option.isSome_iff_exists.mp (AList.lookup_isSome.mpr (hinv.recorded k hlt hp))

/-- **The step lemma**: a frame leaves as `packet_processing` would send it exactly if the
rules serve it. -/
theorem deviceFrames_eq_iff {w : World} (hinv : DeviceInv w) {e : DeviceEvent}
    (hnic : NicDecides w e) (hown : CatchesOwn w e) :
    deviceFrames w e = softwareFrames w e ↔ RulesServe w e := by
  cases e with
  | background e => exact iff_of_true rfl trivial
  | frame portId m env o =>
      obtain ⟨hs, ho⟩ := hnic
      rcases hairpinned_of_handled hinv.rules ho with
        ⟨h, r, k', hstay, hport, hcatch, hactions⟩ | ⟨hpass, hno⟩
      · obtain ⟨k, hk⟩ := hinv.known_of_catches hcatch (hown hport h k' hcatch)
        obtain ⟨-, htuple, hp⟩ := hinv.flow.stored _ k hk
        have haddressing : (w.keys k).tuple.addressing = m.1.addressing := by
          rw [htuple, getIpv4_5tuple_eq, RdarmFiveTuple.addressing_ofAddressing]
        have hserve : RulesServe w (.frame portId m env o) ↔ RuleTranslates w k := by
          constructor
          · exact fun hall => hall hport ⟨h, k', hcatch⟩ k hk
          · intro htranslates _ _ k₁ hk₁
            rw [hk] at hk₁
            rwa [← Option.some.inj hk₁]
        rw [hserve, ← ruleTranslates_iff hp, haddressing, softwareFrames_of_known hs hk]
        simp only [deviceFrames, hstay, hactions, ownAddressing_applyActions,
          List.cons.injEq, Forwarded.mk.injEq, true_and, and_true]
      · refine iff_of_true ?_ fun hport hcatch => absurd ⟨hport, hcatch⟩ hno
        simp only [deviceFrames, softwareFrames, hpass]

/-- A run keeps the invariant, so it may be taken to hold at every step. -/
theorem strengthen_device {w₀ w : World} {es : List DeviceEvent}
    {tr : List (Forwarded UInt8 (UInt32 × UInt16))} {G : World → DeviceEvent → Prop}
    (hinit : offloadMachine.Init w₀) (hrun : deviceMachine.RunWhile G w₀ es tr w)
    (hG : ∀ w e, G w e → e.InsertsBoth) :
    deviceMachine.RunWhile (fun w e => DeviceInv w ∧ G w e) w₀ es tr w :=
  hrun.strengthen (deviceInv_of_init hinit) fun hinv hg hstep =>
    deviceInv_step hinv (hG _ _ hg) hstep

/-! ### Flows offloaded from the second port -/

/-- Frames that arrive on the second port and go to `packet_processing`, and anything that is
no frame: steps that are regular, and served, whatever the table holds. -/
def OnSecondPort (w : World) : DeviceEvent → Prop
  | .frame portId m env o => supportedPacketType m.1.packetType = true ∧ portId ≠ w.port0 ∧
      o = none ∧ (env.addOut = true → env.addBack = true)
  | .background _ => True

instance decidableOnSecondPort (w : World) : DecidablePred (OnSecondPort w)
  | .frame _ _ _ _ => inferInstanceAs (Decidable (_ ∧ _ ∧ _ ∧ (_ → _)))
  | .background _ => inferInstanceAs (Decidable True)

theorem OnSecondPort.insertsBoth {w : World} {e : DeviceEvent} (h : OnSecondPort w e) :
    e.InsertsBoth := by
  cases e with
  | background e => trivial
  | frame portId m env o => exact h.2.2.2

theorem OnSecondPort.regular {w : World} {e : DeviceEvent} (hrules : RulesInv w)
    (h : OnSecondPort w e) : RegularStep w e ∧ RulesServe w e := by
  cases e with
  | background e => exact ⟨⟨trivial, trivial, trivial⟩, trivial⟩
  | frame portId m env o =>
      obtain ⟨hs, hport, rfl, hboth⟩ := h
      have hdecides := (handled_of_ne_port0_iff hrules hport m none).mpr rfl
      exact ⟨⟨⟨hs, hdecides⟩, fun heq => absurd heq hport, hboth⟩, fun heq => absurd heq hport⟩

/-- A flow is opened and offloaded from the second port. -/
def offloadedFrom (a : Addressing (UInt32 × UInt16)) : List DeviceEvent :=
  List.replicate 5 (.frame 1 (plainUdp a) .allSucceed none) ++
    [.background .dequeueBurst, .background (.flowEngine true true)]

/-- What that leads to. -/
def offloadedRun (a : Addressing (UInt32 × UInt16)) :
    Option (World × List (Forwarded UInt8 (UInt32 × UInt16))) :=
  (deviceMachine.guarded OnSecondPort).exec initialDouble (offloadedFrom a)

/-- One more frame of the flow arrives on the first port, and its rule handles it. -/
def nextFrame (a : Addressing (UInt32 × UInt16)) : DeviceEvent :=
  .frame 0 (plainUdp a) .allSucceed (some 2)

/-- The whole run is regular, and served if its last frame is. -/
theorem regular_nextFrame {a : Addressing (UInt32 × UInt16)} {w w' : World}
    {tr os : List (Forwarded UInt8 (UInt32 × UInt16))} (hrun : offloadedRun a = some (w, tr))
    (hport : w.port0 = 0) (hcatch : Catches w 0 (plainUdp a).1 2 (.out 0))
    (hstep : deviceStep w (nextFrame a) = some (w', os)) :
    deviceMachine.RunWhile RegularStep initialDouble (offloadedFrom a ++ [nextFrame a])
        (tr ++ os) w' ∧
      (RulesServe w (nextFrame a) →
        deviceMachine.RunWhile (fun w e => RegularStep w e ∧ RulesServe w e) initialDouble
          (offloadedFrom a ++ [nextFrame a]) (tr ++ os) w') := by
  have hsecond := Machine.runWhile_of_guarded (Machine.run_of_exec hrun)
  have hinv : DeviceInv w :=
    hsecond.state_invariant (deviceInv_of_init init_initialDouble)
      fun hinv hg hstep => deviceInv_step hinv hg.insertsBoth hstep
  have hopened : deviceMachine.RunWhile (fun w e => RegularStep w e ∧ RulesServe w e)
      initialDouble (offloadedFrom a) tr w :=
    (strengthen_device init_initialDouble hsecond fun _ _ h => h.insertsBoth).mono
      fun _ _ h => h.2.regular h.1.rules
  have hread : w.nic.readSpec = initialDouble.nic.readSpec := by
    refine hsecond.state_invariant (P := fun w => w.nic.readSpec = initialDouble.nic.readSpec) rfl
      fun hread _ hstep => ?_
    obtain ⟨e', os', -, hstep', -⟩ := step_of_deviceStep hstep
    exact (readSpec_of_stepped (stepped_of_step hstep')).trans hread
  have hregular : RegularStep w (nextFrame a) := by
    have hs : supportedPacketType (0x1 ||| rtePtypeL3Ipv4 ||| rtePtypeL4Udp) = true := by decide
    refine ⟨⟨hs, ?_⟩, fun _ h k hcatch => ?_, fun h => h⟩
    · rw [← hport] at hcatch ⊢
      exact hcatch.handled hinv.rules
    · exact (readRight_of_asWritten hinv.flow (fun h => congrFun hread h) 0 _).own h k hcatch
  exact ⟨(hopened.mono fun _ _ h => h.1).snoc hregular hstep,
    fun hserve => hopened.snoc ⟨hregular, hserve⟩ hstep⟩

/-- The next frame is the last step of that run. -/
theorem takes_nextFrame {a : Addressing (UInt32 × UInt16)} {w w' : World}
    {tr os : List (Forwarded UInt8 (UInt32 × UInt16))} (hrun : offloadedRun a = some (w, tr))
    (hstep : deviceStep w (nextFrame a) = some (w', os)) :
    deviceMachine.Takes initialDouble (offloadedFrom a ++ [nextFrame a]) w (nextFrame a) w' :=
  ⟨_, _, _, List.prefix_rfl,
    (Machine.runWhile_of_guarded (Machine.run_of_exec hrun)).run, hstep⟩

/-! ### Whole runs -/

/-- **When the NIC is transparent.**  In a run in which the NIC goes by its rules, none of them
catches a frame of another tuple and no second insertion fails alone, every frame leaves as
`packet_processing` would have sent it in its place, exactly if the rules serve every frame:
one that a rule catches on the first port is of a flow that the constant of the rules
translates. -/
theorem transparent_iff {w₀ w : World} {es : List DeviceEvent}
    {tr : List (Forwarded UInt8 (UInt32 × UInt16))} (hinit : offloadMachine.Init w₀)
    (hrun : deviceMachine.RunWhile RegularStep w₀ es tr w) :
    (∀ s e s', deviceMachine.Takes w₀ es s e s' → deviceFrames s e = softwareFrames s e) ↔
      deviceMachine.RunWhile RulesServe w₀ es tr w := by
  have hiff : (∀ s e s', deviceMachine.Takes w₀ es s e s' →
      deviceFrames s e = softwareFrames s e) ↔
        deviceMachine.RunWhile (fun s e => deviceFrames s e = softwareFrames s e) w₀ es tr w :=
    Machine.run_forall_taken_iff (J := fun _ => True) hrun.run trivial (fun _ _ => trivial)
      fun _ _ => Iff.rfl
  rw [hiff]
  exact (strengthen_device hinit hrun fun _ _ h => h.both).guard_congr
    fun ⟨hinv, hregular⟩ => deviceFrames_eq_iff hinv hregular.decides hregular.own

theorem offloadedRun_isSome : (offloadedRun ⟨client, server⟩).isSome = true := by
  decide +kernel

/-- The state in which the client's flow is offloaded. -/
def offloadedDevice : World := ((offloadedRun ⟨client, server⟩).get offloadedRun_isSome).1

theorem offloadedDevice_step :
    (deviceStep offloadedDevice (nextFrame ⟨client, server⟩)).isSome = true := by
  decide +kernel

/-- **An offloaded flow shows the NIC**: the client's next frame leaves for another host. -/
theorem not_transparent_offloaded :
    ∃ tr w, deviceMachine.RunWhile RegularStep initialDouble
        (offloadedFrom ⟨client, server⟩ ++ [nextFrame ⟨client, server⟩]) tr w ∧
      ¬ deviceMachine.RunWhile RulesServe initialDouble
        (offloadedFrom ⟨client, server⟩ ++ [nextFrame ⟨client, server⟩]) tr w := by
  have hcatch : Catches offloadedDevice 0 (plainUdp ⟨client, server⟩).1 2 (.out 0) := by
    constructor <;> decide +kernel
  have hrun := (Option.some_get offloadedRun_isSome).symm
  have hstep := (Option.some_get offloadedDevice_step).symm
  obtain ⟨hregular, -⟩ := regular_nextFrame hrun (by decide +kernel) hcatch hstep
  refine ⟨_, _, hregular, fun hserve => ?_⟩
  have hsame := (transparent_iff init_initialDouble hregular).mpr hserve _ _ _
    (takes_nextFrame hrun hstep)
  have hsent := congrArg (List.map Forwarded.sent) hsame
  have hdiffer : (deviceFrames offloadedDevice (nextFrame ⟨client, server⟩)).map Forwarded.sent ≠
      (softwareFrames offloadedDevice (nextFrame ⟨client, server⟩)).map Forwarded.sent := by
    decide +kernel
  exact hdiffer hsent

/-! ### The device as a translator -/

/-- What an event of the device is for the translator, whichever way a frame goes. -/
def deviceTranslatorEvent (w : World) :
    DeviceEvent → Option (TranslatorEvent UInt8 (UInt32 × UInt16))
  | .frame portId m env _ => translatorEvent ownReading w (.packet portId m.1 env)
  | .background _ => none

/-- **The simulation**, over steps that the rules serve. -/
def deviceTranslation : Simulation deviceMachine
    (fun w e => RegularStep w e ∧ RulesServe w e)
    (Translator.machine natPool (natSource 0)) where
  Rel w t := DeviceInv w ∧ translatorOf w = t
  event := deviceTranslatorEvent
  stutter := by
    rintro w t e w' os ⟨hinv, rfl⟩ ⟨hregular, -⟩ hstep he
    have hinv' := deviceInv_step hinv hregular.both hstep
    obtain ⟨e', os', he', hstep', rfl⟩ := step_of_deviceStep hstep
    cases e with
    | frame portId m env o =>
        have hs := hregular.decides.1
        simp only [deviceTranslatorEvent, translatorEvent, hs, if_true] at he
        split at he <;> cases he
    | background e =>
        have hnone : translatorEvent ownReading w e' = none := by
          cases e <;> cases he' <;> rfl
        refine ⟨rfl, hinv', ?_⟩
        exact (keepsFlows_of_translatorEvent (stepped_of_step hstep') hnone).translatorOf
  simulate := by
    rintro w t e w' os d ⟨hinv, rfl⟩ ⟨hregular, hserve⟩ hstep hd
    have hinv' := deviceInv_step hinv hregular.both hstep
    obtain ⟨e', os', he', hstep', rfl⟩ := step_of_deviceStep hstep
    cases e with
    | background e => cases hd
    | frame portId m env o =>
        obtain ⟨hs, ho⟩ := hregular.decides
        have hd' : translatorEvent ownReading w (.packet portId m.1 env) = some d := hd
        have hagrees := agrees_ownReading m.fixedLayout
        rw [(deviceFrames_eq_iff hinv hregular.decides hregular.own).mpr hserve]
        rcases hairpinned_of_handled hinv.rules ho with
          ⟨h, r, k', hstay, hport, hcatch, -⟩ | ⟨hpass, -⟩
        · -- the frame stays on the NIC, and the system only counts it
          obtain ⟨k, hk⟩ := hinv.known_of_catches hcatch (hregular.own hport h k' hcatch)
          simp only [systemEvent, hstay, Option.some.injEq] at he'
          subst he'
          have hkeep : KeepsFlows w w' :=
            keepsFlows_of_translatorEvent (R := ownReading) (stepped_of_step hstep') rfl
          have hsame : translatorOf w' = translatorOf (knownFlow w m.1 k).world :=
            hkeep.translatorOf.trans (keepsFlows_knownFlow w m.1 k).translatorOf.symm
          refine ⟨_, ?_, hinv', rfl⟩
          have hr : packetProcessing w m.1 env = some (knownFlow w m.1 k) :=
            packetProcessing_known hs hk
          rw [hsame, softwareFrames, forwardedFrames_packet hr]
          exact step_translator hinv.flow (fun _ => hagrees) hr hd'
        · simp only [systemEvent, hpass, Option.some.injEq] at he'
          subst he'
          cases hr : packetProcessing w m.1 env with
          | none => simp [offloadStep, hr] at hstep'
          | some r =>
              simp only [offloadStep, hr, Option.some.injEq, Prod.mk.injEq] at hstep'
              obtain ⟨rfl, -⟩ := hstep'
              rw [softwareFrames, forwardedFrames_packet hr]
              exact ⟨_, step_translator hinv.flow (fun _ => hagrees) hr hd', hinv', rfl⟩

/-- **The device translates addresses**, as long as its rules serve: every such run, shown as
frames that come in and go out on whichever way, is a run of the translator from its
start. -/
theorem run_translator_device {w₀ w : World} {es : List DeviceEvent}
    {tr : List (Forwarded UInt8 (UInt32 × UInt16))} (hinit : offloadMachine.Init w₀)
    (hrun : deviceMachine.RunWhile (fun w e => RegularStep w e ∧ RulesServe w e) w₀ es tr w) :
    ∃ t₀ ds, (Translator.machine natPool (natSource 0)).Init t₀ ∧
      (Translator.machine natPool (natSource 0)).Run t₀ ds tr (translatorOf w) := by
  obtain ⟨ds, t, hrun', -, rfl⟩ := deviceTranslation.run hrun ⟨deviceInv_of_init hinit, rfl⟩
  exact ⟨translatorOf w₀, ds, translatorOf_of_init hinit, hrun'⟩

/-- A flow the constant of the rules translates: from the public endpoint to the constant. -/
def constantFlow : Addressing (UInt32 × UInt16) := ⟨endpoint 5 1 1 1 1, endpoint 5 5 5 5 53⟩

theorem constantFlow_isSome : (offloadedRun constantFlow).isSome = true := by decide +kernel

/-- The state in which it is offloaded. -/
def constantDevice : World := ((offloadedRun constantFlow).get constantFlow_isSome).1

theorem constantDevice_step :
    (deviceStep constantDevice (nextFrame constantFlow)).isSome = true := by decide +kernel

/-- Its frames leave translated on either way. -/
theorem run_translator_constantFlow :
    ∃ tr w, deviceMachine.Run initialDouble
        (offloadedFrom constantFlow ++ [nextFrame constantFlow]) tr w ∧
      ∃ t₀ ds, (Translator.machine natPool (natSource 0)).Init t₀ ∧
        (Translator.machine natPool (natSource 0)).Run t₀ ds tr (translatorOf w) := by
  have hcatch : Catches constantDevice 0 (plainUdp constantFlow).1 2 (.out 0) := by
    constructor <;> decide +kernel
  obtain ⟨hregular, hserved⟩ := regular_nextFrame (Option.some_get constantFlow_isSome).symm
    (by decide +kernel) hcatch (Option.some_get constantDevice_step).symm
  have hk : constantDevice.flowHashMap.lookup
      (getIpv4_5tuple (plainUdp constantFlow).1 ipv4Mask) = some (.out 0) := by decide +kernel
  refine ⟨_, _, hregular.run, run_translator_device init_initialDouble (hserved ?_)⟩
  rintro - - k hk'
  have heq : k = .out 0 := Option.some.inj (hk'.symm.trans hk)
  subst heq
  exact ⟨by decide +kernel, by decide +kernel, by decide +kernel⟩

end SmartOffload
