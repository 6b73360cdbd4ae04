import SmartOffload.Lib.Machine
import SmartOffload.AgedFlows
import SmartOffload.FlowEngine
import SmartOffload.PortPool
import SmartOffload.Worker

/-!
# The running system

Workers, flow engine, ageing handler and NIC as one `Machine`.  An event is one
whole `packet_processing` call, one burst dequeued by the flow engine, one
dequeued key processed, one run of `delete_timeout_flows`, or something the NIC
does on its own: forwarding under a rule, and a rule timing out.  They happen in
any order, and each carries what the environment decides in it.

A run observes the frames accounted to flow keys (`frameOwner` says to which,
from the table alone), the calls of `rte_hash_add_key_data`, and the calls the
ageing handler makes on the NIC.
-/

namespace SmartOffload

/-- One thing that happens. -/
inductive OffloadEvent where
  /-- `packet_processing` on a frame received on a port. -/
  | packet (portId : UInt16) (m : RteMbuf) (env : PacketEnv)
  /-- The flow engine dequeues a burst. -/
  | dequeueBurst
  /-- The flow engine processes the next key of its burst. -/
  | flowEngine (ok okSymmetrical : Bool)
  /-- `delete_timeout_flows(port)`. -/
  | ageing (portId : UInt16) (aged : Option (List AgedReport))
  /-- The NIC forwards packets under a rule. -/
  | traffic (flow : FlowHandle) (hits bytes : UInt64)
  /-- A rule with an age action times out. -/
  | timeout (flow : FlowHandle)

/-- What a run shows to the outside. -/
inductive Obs where
  /-- A frame of a flow key, of this length, was handled. -/
  | frame (k : KeyPtr) (pktLen : UInt32)
  | hashAdd (call : HashAdd)
  | nicCall (call : NicCall)

/-- The flow key a frame belongs to: the one its tuple is stored under, or the one
the frame is about to open. -/
def frameOwner (w : World) (m : RteMbuf) : Option KeyPtr :=
  if supportedPacketType m.packetType then
    some ((w.flowHashMap.lookup (getIpv4_5tuple m ipv4Mask)).getD (.out w.serial))
  else none

/-- What a call of `packet_processing` shows. -/
def packetObs (w : World) (m : RteMbuf) (r : PacketResult) : List Obs :=
  (frameOwner w m).toList.map (Obs.frame · m.pktLen) ++ r.adds.map Obs.hashAdd

/-- One event. -/
def offloadStep (w : World) : OffloadEvent → Option (World × List Obs)
  | .packet _ m env =>
      match packetProcessing w m env with
      | none => none
      | some r => some (r.world, packetObs w m r)
  | .dequeueBurst => if w.burst = [] then some (dequeueFlowRules w, []) else none
  | .flowEngine ok okSymmetrical =>
      match w.burst with
      | [] => none
      | k :: rest =>
          match createFlowLoopBody { w with burst := rest } k ok okSymmetrical with
          | none => none
          | some w' => some (w', [])
  | .ageing portId aged =>
      if ∀ reports ∈ aged, ValidReports w.nic portId reports then
        let r := deleteTimeoutFlows w portId aged
        some (r.1, r.2.map Obs.nicCall)
      else none
  | .traffic flow hits bytes =>
      if (w.nic.flows flow).isSome then
        some ({ w with nic := w.nic.forward flow hits bytes }, [])
      else none
  | .timeout flow =>
      if (w.nic.owner flow).isSome then
        some ({ w with nic := w.nic.timeOut flow }, [])
      else none

/-- **What one event can do**, by cases: the inversion of `offloadStep` that every
invariant is proved from. -/
inductive Stepped (w : World) : OffloadEvent → World → List Obs → Prop where
  | ignored {portId : UInt16} {m : RteMbuf} {env : PacketEnv}
      (hno : supportedPacketType m.packetType = false) :
      Stepped w (.packet portId m env) w []
  | opened {portId : UInt16} {m : RteMbuf} {env : PacketEnv} {r : PacketResult}
      (hopen : OpensFlow w m)
      (hr : createFlow w m (getIpv4_5tuple m ipv4Mask) env = some r) :
      Stepped w (.packet portId m env) r.world
        (.frame (.out w.serial) m.pktLen :: r.adds.map Obs.hashAdd)
  | known {portId : UInt16} {m : RteMbuf} {env : PacketEnv} {k : KeyPtr}
      (hk : w.flowHashMap.lookup (getIpv4_5tuple m ipv4Mask) = some k) :
      Stepped w (.packet portId m env)
        (requestOffload (countPacket w k m.pktLen) k) [.frame k m.pktLen]
  | dequeued (hburst : w.burst = []) : Stepped w .dequeueBurst (dequeueFlowRules w) []
  | engine {k : KeyPtr} {rest : List KeyPtr} {ok okSymmetrical : Bool} {w' : World}
      (hburst : w.burst = k :: rest)
      (hbody : createFlowLoopBody { w with burst := rest } k ok okSymmetrical = some w') :
      Stepped w (.flowEngine ok okSymmetrical) w' []
  | aged {portId : UInt16} {aged : Option (List AgedReport)}
      (hvalid : ∀ reports ∈ aged, ValidReports w.nic portId reports) :
      Stepped w (.ageing portId aged) (deleteTimeoutFlows w portId aged).1
        ((deleteTimeoutFlows w portId aged).2.map Obs.nicCall)
  | traffic (flow : FlowHandle) (hits bytes : UInt64) :
      Stepped w (.traffic flow hits bytes) { w with nic := w.nic.forward flow hits bytes } []
  | timeout (flow : FlowHandle) :
      Stepped w (.timeout flow) { w with nic := w.nic.timeOut flow } []

/-- Every step is one of the cases. -/
theorem stepped_of_step {w w' : World} {e : OffloadEvent} {os : List Obs}
    (h : offloadStep w e = some (w', os)) : Stepped w e w' os := by
  cases e with
  | packet portId m env =>
      simp only [offloadStep] at h
      rcases packetProcessing_cases w m env with
        ⟨heq, hno⟩ | ⟨heq, hopen⟩ | ⟨k, heq, hs, hk⟩
      · rw [heq] at h
        simp only [packetObs, frameOwner, hno, Option.some.injEq, Prod.mk.injEq] at h
        obtain ⟨rfl, rfl⟩ := h
        exact .ignored hno
      · rw [heq] at h
        split at h
        · cases h
        next r hr =>
          simp only [packetObs, frameOwner, hopen.1, hopen.lookup, if_true, Option.getD_none,
            Option.toList_some, List.map_cons, List.map_nil, List.singleton_append,
            Option.some.injEq, Prod.mk.injEq] at h
          obtain ⟨rfl, rfl⟩ := h
          exact .opened hopen hr
      · rw [heq] at h
        simp only [packetObs, frameOwner, hs, hk, if_true, Option.getD_some,
          Option.toList_some, List.map_cons, List.map_nil, knownFlow, List.append_nil,
          Option.some.injEq, Prod.mk.injEq] at h
        obtain ⟨rfl, rfl⟩ := h
        exact .known hk
  | dequeueBurst =>
      simp only [offloadStep] at h
      split at h
      next hburst =>
        obtain ⟨rfl, rfl⟩ := Prod.mk.inj (Option.some.inj h)
        exact .dequeued hburst
      · cases h
  | flowEngine ok okSymmetrical =>
      simp only [offloadStep] at h
      split at h
      · cases h
      next k rest hburst =>
        split at h
        · cases h
        next w₁ hbody =>
          obtain ⟨rfl, rfl⟩ := Prod.mk.inj (Option.some.inj h)
          exact .engine hburst hbody
  | ageing portId aged =>
      simp only [offloadStep] at h
      split at h
      next hvalid =>
        obtain ⟨rfl, rfl⟩ := Prod.mk.inj (Option.some.inj h)
        exact .aged hvalid
      · cases h
  | traffic flow hits bytes =>
      simp only [offloadStep] at h
      split at h
      · obtain ⟨rfl, rfl⟩ := Prod.mk.inj (Option.some.inj h)
        exact .traffic flow hits bytes
      · cases h
  | timeout flow =>
      simp only [offloadStep] at h
      split at h
      · obtain ⟨rfl, rfl⟩ := Prod.mk.inj (Option.some.inj h)
        exact .timeout flow
      · cases h

/-- A call that opens a flow is a step. -/
theorem exists_step_of_createFlow {w : World} (portId : UInt16) {m : RteMbuf}
    {env : PacketEnv} {r : PacketResult} (hopen : OpensFlow w m)
    (hr : createFlow w m (getIpv4_5tuple m ipv4Mask) env = some r) :
    ∃ os, offloadStep w (.packet portId m env) = some (r.world, os) := by
  refine ⟨packetObs w m r, ?_⟩
  simp only [offloadStep]
  rw [packetProcessing_of_opensFlow hopen, hr]

/-- The NIC after `init_smto`: both default rules on the first port. -/
def initialNic (readSpec : FlowHandle → RteFlowItemL4 → RteFlowItemL4) (port0 : UInt16) : Nic :=
  (createDefaultRssFlow (createDefaultJumpFlow (.empty readSpec) port0 true).2 port0 true).2

/-- The state `init_smto` leaves behind, for a given port pool. -/
def initialWorld (mode : SmtoMode) (port0 port1 : UInt16) (portPool : BoundedFifo ℕ)
    (readSpec : FlowHandle → RteFlowItemL4 → RteFlowItemL4) : World where
  mode := mode
  port0 := port0
  port1 := port1
  flowHashMap := ∅
  flowRulesRing := rteRingInit KeyPtr maxRingEntries
  portPool := portPool
  keys := fun _ => .zeroed
  allocated := []
  serial := 0
  nic := initialNic readSpec port0
  burst := []

/-- **The system**: runs start where `init_smto` succeeds, in either mode. -/
def offloadMachine : Machine World OffloadEvent Obs where
  Init w := ∃ mode port0 port1 portPool readSpec,
    (mode = .doublePortMode → port0 ≠ port1) ∧
    fillPortPool (rteRingInit ℕ maxHashEntries) = some portPool ∧
    w = initialWorld mode port0 port1 portPool readSpec
  step := offloadStep

/-- Initialisation always produces the same pool. -/
theorem init_iff {w : World} :
    offloadMachine.Init w ↔ ∃ mode port0 port1 readSpec,
      (mode = SmtoMode.doublePortMode → port0 ≠ port1) ∧
        w = initialWorld mode port0 port1 initialPortPool readSpec := by
  constructor
  · rintro ⟨mode, port0, port1, pool, readSpec, hports, hfill, rfl⟩
    rw [fillPortPool_eq] at hfill
    cases hfill
    exact ⟨mode, port0, port1, readSpec, hports, rfl⟩
  · rintro ⟨mode, port0, port1, readSpec, hports, rfl⟩
    exact ⟨mode, port0, port1, initialPortPool, readSpec, hports, fillPortPool_eq, rfl⟩

/-- The start in `SINGLE_PORT_MODE`, where the driver still reads what was written. -/
def initialSingle : World := initialWorld .singlePortMode 0 0 initialPortPool fun _ => id

theorem init_initialSingle : offloadMachine.Init initialSingle :=
  init_iff.mpr ⟨.singlePortMode, 0, 0, fun _ => id, by simp, rfl⟩

/-- The start in `DOUBLE_PORT_MODE`, where the driver still reads what was written. -/
def initialDouble : World := initialWorld .doublePortMode 0 1 initialPortPool fun _ => id

theorem init_initialDouble : offloadMachine.Init initialDouble :=
  init_iff.mpr ⟨.doublePortMode, 0, 1, fun _ => id, by decide, rfl⟩

/-- A UDP frame of 100 bytes arrives, and no call about it fails. -/
def OffloadEvent.udp (src dst : UInt32 × UInt16) : OffloadEvent :=
  .packet 0 (udpFrame 100 ⟨src, dst⟩) .allSucceed

/-- A host behind the translator. -/
def client : UInt32 × UInt16 := endpoint 10 0 0 1 1000

/-- A host outside. -/
def server : UInt32 × UInt16 := endpoint 8 8 8 8 53

/-- The first frame of one flow. -/
def oneFlowRun : Option (World × List Obs) :=
  offloadMachine.exec initialSingle [.udp client server]

theorem oneFlowRun_isSome : oneFlowRun.isSome = true := by decide +kernel

/-- The state in which one flow is open. -/
def oneFlowWorld : World := (oneFlowRun.get oneFlowRun_isSome).1

/-- What opening it shows. -/
def oneFlowTrace : List Obs := (oneFlowRun.get oneFlowRun_isSome).2

theorem run_oneFlowWorld :
    offloadMachine.Run initialSingle [.udp client server] oneFlowTrace oneFlowWorld :=
  Machine.run_exec_get oneFlowRun_isSome

theorem reachable_oneFlowWorld : offloadMachine.Reachable oneFlowWorld :=
  Machine.reachable_exec_get init_initialSingle oneFlowRun_isSome

/-- Another host behind the translator. -/
def otherClient : UInt32 × UInt16 := endpoint 10 0 0 2 1000

/-- Two clients open a flow each. -/
def twoFlows : List OffloadEvent := [.udp client server, .udp otherClient server]

theorem twoFlows_isSome : (offloadMachine.exec initialSingle twoFlows).isSome = true := by
  decide +kernel

/-- Both flows are stored. -/
theorem lookup_twoFlows :
    ((offloadMachine.exec initialSingle twoFlows).get twoFlows_isSome).1.flowHashMap.lookup
        (.ofAddressing ipprotoUdp ⟨client, server⟩) = some (.out 0) ∧
      ((offloadMachine.exec initialSingle twoFlows).get twoFlows_isSome).1.flowHashMap.lookup
        (.ofAddressing ipprotoUdp ⟨otherClient, server⟩) = some (.out 1) := by
  decide +kernel

/-- One flow sends five frames and is offloaded with its partner. -/
def offloadEvents : List OffloadEvent :=
  List.replicate 5 (.udp client server) ++ [.dequeueBurst, .flowEngine true true]

theorem offloadRun_isSome : (offloadMachine.exec initialSingle offloadEvents).isSome = true := by
  decide +kernel

/-- An offloaded flow times out in both directions. -/
def ageEvents : List OffloadEvent :=
  offloadEvents ++ [.timeout 3, .timeout 2,
    .ageing 0 (some [⟨3, true, (0, 0), true⟩, ⟨2, true, (0, 0), true⟩])]

theorem ageRun_isSome : (offloadMachine.exec initialSingle ageEvents).isSome = true := by
  decide +kernel

/-- The rule of the out-direction key times out and is destroyed; the next frame has
the flow offloaded again, while its partner still is. -/
def reoffloadEvents : List OffloadEvent :=
  offloadEvents ++ [.timeout 2, .ageing 0 (some [⟨2, true, (0, 0), true⟩]),
    .udp client server, .dequeueBurst, .flowEngine true true]

theorem reoffloadRun_isSome :
    (offloadMachine.exec initialSingle reoffloadEvents).isSome = true := by decide +kernel

/-- The default rules belong to no flow key. -/
@[simp] theorem owner_initialNic (readSpec : FlowHandle → RteFlowItemL4 → RteFlowItemL4)
    (port0 : UInt16) (h : FlowHandle) : (initialNic readSpec port0).owner h = none := by
  simp only [initialNic, createDefaultRssFlow, createDefaultJumpFlow, rteFlowCreate, if_true]
  rw [Nic.owner_install, Nic.owner_install]
  split
  · rfl
  · split <;> rfl

end SmartOffload
