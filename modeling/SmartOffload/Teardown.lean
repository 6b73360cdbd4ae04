import SmartOffload.Pairing

/-!
# Ageing while the system is torn down

An aged rule raises an event; `aged_event_callback` sets an alarm for it, and the
alarm runs `delete_timeout_flows`.  `destroy_smto` stops this before it frees the flow
keys, by `unregister_aged_event` on the first port: it cancels the pending alarms, then
unregisters the callback.  Both are single steps here.  A callback is two, it starts and
it sets its alarm; and the handler is one for the contexts the NIC gives it and one for
each of them, so all of this may happen while it is in its loop.

Events still start callbacks between the two steps of the teardown, and their alarms are
never cancelled (`not_ageingStopped_lateEvents`).  Where there are none, and nothing is
under way when the alarms are cancelled, ageing has stopped (`ageingStopped_of_quiet`).
-/

namespace SmartOffload

/-- How far `unregister_aged_event` has come. -/
inductive TeardownPc where
  /-- `rte_eal_alarm_cancel` comes next. -/
  | running
  /-- `rte_eth_dev_callback_unregister` comes next. -/
  | canceled
  /-- It has returned; `destroy_smto` goes on to free the flow keys. -/
  | returned
  deriving DecidableEq, Repr

/-- `delete_timeout_flows` in its loop: its port, and the contexts still to come. -/
structure TimeoutLoop where
  portId : UInt16
  remaining : List (AgedReport × Option KeyPtr)
  deriving DecidableEq, Repr

/-- The shared state, and what is on its way to the ageing handler. -/
structure Ageing where
  world : World
  /-- The ports `aged_event_callback` is registered for. -/
  callbackPorts : List UInt16
  /-- The ports of the callbacks that have started and not set their alarm. -/
  callbacks : List UInt16
  /-- The arguments of the pending `delete_timeout_flows` alarms. -/
  alarms : List UInt16
  /-- The alarm that the interrupt thread is running, if it is. -/
  handler : Option TimeoutLoop
  teardown : TeardownPc

/-- One thing that happens. -/
inductive AgeingEvent where
  /-- Anything but ageing. -/
  | system (e : OffloadEvent)
  /-- `RTE_ETH_EVENT_FLOW_AGED` starts a callback. -/
  | flowAged (portId : UInt16)
  /-- The callback's `rte_eal_alarm_set` answers. -/
  | alarmSet (portId : UInt16) (ok : Bool)
  /-- An alarm expires: `delete_timeout_flows` asks for the aged flows. -/
  | alarm (portId : UInt16) (aged : Option (List AgedReport))
  /-- It handles the next context. -/
  | timeoutFlow
  /-- It returns. -/
  | alarmDone
  /-- The next step of `unregister_aged_event`. -/
  | unregister

/-- The handler visits a flow key, before or after the teardown. -/
structure KeyVisit where
  portId : UInt16
  late : Bool
  flowKey : KeyPtr
  deriving DecidableEq, Repr

/-- Events that are not runs of the ageing handler. -/
def OffloadEvent.NotAgeing : OffloadEvent → Bool
  | .ageing _ _ => false
  | _ => true

/-- The contexts `rte_flow_get_aged_flows` gives; an error ends the handler. -/
def agedContexts (nic : Nic) (aged : Option (List AgedReport)) :
    List (AgedReport × Option KeyPtr) :=
  (aged.getD []).map fun report => (report, nic.owner report.flow)

/-- `rte_eal_alarm_cancel(delete_timeout_flows, port_id)`. -/
def cancelAlarms (s : Ageing) : Ageing :=
  { s with alarms := s.alarms.filter (· ≠ s.world.port0), teardown := .canceled }

/-- `rte_eth_dev_callback_unregister(port_id, …, aged_event_callback, …)`. -/
def unregisterCallback (s : Ageing) : Ageing :=
  { s with callbackPorts := s.callbackPorts.filter (· ≠ s.world.port0), teardown := .returned }

/-- One event. -/
def ageingStep (s : Ageing) : AgeingEvent → Option (Ageing × List KeyVisit)
  | .system e =>
      if e.NotAgeing then
        match offloadStep s.world e with
        | none => none
        | some (w', _) => some ({ s with world := w' }, [])
      else none
  | .flowAged portId =>
      if portId ∈ s.callbackPorts then some ({ s with callbacks := portId :: s.callbacks }, [])
      else none
  | .alarmSet portId ok =>
      if portId ∈ s.callbacks then
        some ({ s with
          callbacks := s.callbacks.erase portId
          alarms := if ok then portId :: s.alarms else s.alarms }, [])
      else none
  | .alarm portId aged =>
      if portId ∈ s.alarms ∧ s.handler = none ∧
          ∀ reports ∈ aged, ValidReports s.world.nic portId reports then
        some ({ s with
          alarms := s.alarms.erase portId
          handler := some ⟨portId, agedContexts s.world.nic aged⟩ }, [])
      else none
  | .timeoutFlow =>
      match s.handler with
      | some ⟨portId, (report, context) :: remaining⟩ =>
          some ({ s with
              world := (deleteTimeoutFlow s.world portId report context).1
              handler := some ⟨portId, remaining⟩ },
            context.toList.map fun k => ⟨portId, s.teardown = .returned, k⟩)
      | _ => none
  | .alarmDone =>
      match s.handler with
      | some ⟨_, []⟩ => some ({ s with handler := none }, [])
      | _ => none
  | .unregister =>
      match s.teardown with
      | .running => some (cancelAlarms s, [])
      | .canceled => some (unregisterCallback s, [])
      | .returned => none

/-- **Ageing and teardown**, from the state `init_smto` leaves behind: the callback is
registered for the first port. -/
def ageingMachine : Machine Ageing AgeingEvent KeyVisit where
  Init s := offloadMachine.Init s.world ∧ s.callbackPorts = [s.world.port0] ∧
    s.callbacks = [] ∧ s.alarms = [] ∧ s.handler = none ∧ s.teardown = .running
  step := ageingStep

/-- **Ageing has stopped** when the teardown returns, over a run: no alarm of the port is
pending or set from then on, and the handler visits no flow key. -/
structure AgeingStopped (s₀ : Ageing) (es : List AgeingEvent) (tr : List KeyVisit) : Prop where
  alarms : ∀ s, ageingMachine.Visits s₀ es s → s.teardown = .returned →
    s.world.port0 ∉ s.alarms
  visits : ∀ visit ∈ tr, visit.late = true → visit.portId ≠ s₀.world.port0

/-- The guard: no event of the port comes between the two steps of the teardown, and when
the alarms are cancelled no callback and no handler of the port is under way. -/
def QuietTeardown (s : Ageing) : AgeingEvent → Prop
  | .flowAged portId => s.teardown = .canceled → portId ≠ s.world.port0
  | .unregister => s.teardown = .running →
      s.world.port0 ∉ s.callbacks ∧ ∀ loop ∈ s.handler, loop.portId ≠ s.world.port0
  | _ => True

instance (s : Ageing) : DecidablePred (QuietTeardown s)
  | .flowAged portId => inferInstanceAs (Decidable
      (s.teardown = .canceled → portId ≠ s.world.port0))
  | .unregister => inferInstanceAs (Decidable (s.teardown = .running →
      s.world.port0 ∉ s.callbacks ∧ ∀ loop ∈ s.handler, loop.portId ≠ s.world.port0))
  | .system _ => inferInstanceAs (Decidable True)
  | .alarmSet _ _ => inferInstanceAs (Decidable True)
  | .alarm _ _ => inferInstanceAs (Decidable True)
  | .timeoutFlow => inferInstanceAs (Decidable True)
  | .alarmDone => inferInstanceAs (Decidable True)

/-! ### What a step can do -/

/-- **What one event can do**, by cases. -/
inductive AgeingStepped (s : Ageing) : AgeingEvent → Ageing → List KeyVisit → Prop where
  | system {e : OffloadEvent} {w' : World} {os : List Obs}
      (hstep : offloadStep s.world e = some (w', os)) :
      AgeingStepped s (.system e) { s with world := w' } []
  | flowAged {portId : UInt16} (hreg : portId ∈ s.callbackPorts) :
      AgeingStepped s (.flowAged portId) { s with callbacks := portId :: s.callbacks } []
  | alarmSet {portId : UInt16} {ok : Bool} (hstarted : portId ∈ s.callbacks) :
      AgeingStepped s (.alarmSet portId ok)
        { s with
          callbacks := s.callbacks.erase portId
          alarms := if ok then portId :: s.alarms else s.alarms } []
  | alarm {portId : UInt16} {aged : Option (List AgedReport)} (hset : portId ∈ s.alarms) :
      AgeingStepped s (.alarm portId aged)
        { s with
          alarms := s.alarms.erase portId
          handler := some ⟨portId, agedContexts s.world.nic aged⟩ } []
  | timeoutFlow {portId : UInt16} {report : AgedReport} {context : Option KeyPtr}
      {remaining : List (AgedReport × Option KeyPtr)}
      (hloop : s.handler = some ⟨portId, (report, context) :: remaining⟩) :
      AgeingStepped s .timeoutFlow
        { s with
          world := (deleteTimeoutFlow s.world portId report context).1
          handler := some ⟨portId, remaining⟩ }
        (context.toList.map fun k => ⟨portId, s.teardown = .returned, k⟩)
  | alarmDone : AgeingStepped s .alarmDone { s with handler := none } []
  | canceled (hpc : s.teardown = .running) : AgeingStepped s .unregister (cancelAlarms s) []
  | unregistered (hpc : s.teardown = .canceled) :
      AgeingStepped s .unregister (unregisterCallback s) []

/-- Every step is one of the cases. -/
theorem ageingStepped_of_step {s s' : Ageing} {e : AgeingEvent} {os : List KeyVisit}
    (h : ageingStep s e = some (s', os)) : AgeingStepped s e s' os := by
  cases e with
  | system e =>
      simp only [ageingStep] at h
      split at h
      · split at h
        · cases h
        next w' os' hstep =>
          obtain ⟨rfl, rfl⟩ := Prod.mk.inj (Option.some.inj h)
          exact .system hstep
      · cases h
  | flowAged portId =>
      simp only [ageingStep] at h
      split at h
      next hreg =>
        obtain ⟨rfl, rfl⟩ := Prod.mk.inj (Option.some.inj h)
        exact .flowAged hreg
      · cases h
  | alarmSet portId ok =>
      simp only [ageingStep] at h
      split at h
      next hstarted =>
        obtain ⟨rfl, rfl⟩ := Prod.mk.inj (Option.some.inj h)
        exact .alarmSet hstarted
      · cases h
  | alarm portId aged =>
      simp only [ageingStep] at h
      split at h
      next hset =>
        obtain ⟨rfl, rfl⟩ := Prod.mk.inj (Option.some.inj h)
        exact .alarm hset.1
      · cases h
  | timeoutFlow =>
      simp only [ageingStep] at h
      split at h
      next portId report context remaining hloop =>
        obtain ⟨rfl, rfl⟩ := Prod.mk.inj (Option.some.inj h)
        exact .timeoutFlow hloop
      · cases h
  | alarmDone =>
      simp only [ageingStep] at h
      split at h
      · obtain ⟨rfl, rfl⟩ := Prod.mk.inj (Option.some.inj h)
        exact .alarmDone
      · cases h
  | unregister =>
      simp only [ageingStep] at h
      split at h
      next hpc =>
        obtain ⟨rfl, rfl⟩ := Prod.mk.inj (Option.some.inj h)
        exact .canceled hpc
      next hpc =>
        obtain ⟨rfl, rfl⟩ := Prod.mk.inj (Option.some.inj h)
        exact .unregistered hpc
      · cases h

theorem AgeingStepped.port0 {s s' : Ageing} {e : AgeingEvent} {os : List KeyVisit}
    (h : AgeingStepped s e s' os) : s'.world.port0 = s.world.port0 := by
  cases h with
  | system hstep => exact (config_of_stepped (stepped_of_step hstep)).2.1
  | timeoutFlow _ => exact (keepsFlows_deleteTimeoutFlow s.world _ _ _).port0
  | _ => rfl

/-! ### Nothing is under way -/

/-- Nothing of the port is on its way to the handler, or in it. -/
structure NothingUnderWay (s : Ageing) : Prop where
  callbacks : s.world.port0 ∉ s.callbacks
  alarms : s.world.port0 ∉ s.alarms
  handler : ∀ loop ∈ s.handler, loop.portId ≠ s.world.port0

/-- **The invariant of a quiet teardown**: from the cancel on nothing is under way, and from
the return on nothing can start. -/
structure QuietInv (s : Ageing) : Prop where
  canceled : s.teardown ≠ .running → NothingUnderWay s
  returned : s.teardown = .returned → s.world.port0 ∉ s.callbackPorts

theorem quietInv_of_init {s : Ageing} (h : ageingMachine.Init s) : QuietInv s := by
  obtain ⟨-, -, -, -, -, hrunning⟩ := h
  refine ⟨fun hpc => absurd hrunning hpc, fun hpc => ?_⟩
  rw [hrunning] at hpc
  cases hpc

section

variable {s s' : Ageing} {e : AgeingEvent} {os : List KeyVisit}
  (h : AgeingStepped s e s' os)
include h

/-- Once the alarms are cancelled, a guarded step starts nothing. -/
theorem nothingUnderWay_step (hinv : QuietInv s) (hquiet : QuietTeardown s e)
    (hpc : s.teardown ≠ .running) : NothingUnderWay s' := by
  have hport := h.port0
  have hnow := hinv.canceled hpc
  cases h with
  | system _ =>
      constructor <;> rw [hport]
      exacts [hnow.callbacks, hnow.alarms, hnow.handler]
  | @flowAged portId hreg =>
      -- before the return by the guard, after it because the callback is gone
      have hne : portId ≠ s.world.port0 := by
        rintro rfl
        cases hteardown : s.teardown with
        | running => exact hpc hteardown
        | canceled => exact hquiet hteardown rfl
        | returned => exact hinv.returned hteardown hreg
      refine ⟨fun hmem => ?_, hnow.alarms, hnow.handler⟩
      rcases List.mem_cons.mp hmem with heq | hmem
      · exact hne heq.symm
      · exact hnow.callbacks hmem
  | @alarmSet portId ok hstarted =>
      have hne : portId ≠ s.world.port0 := fun heq => hnow.callbacks (heq ▸ hstarted)
      refine ⟨fun hmem => hnow.callbacks (List.mem_of_mem_erase hmem), fun hmem => ?_,
        hnow.handler⟩
      cases ok with
      | false => exact hnow.alarms hmem
      | true =>
          rcases List.mem_cons.mp hmem with heq | hmem
          · exact hne heq.symm
          · exact hnow.alarms hmem
  | @alarm portId aged hset =>
      have hne : portId ≠ s.world.port0 := fun heq => hnow.alarms (heq ▸ hset)
      refine ⟨hnow.callbacks, fun hmem => hnow.alarms (List.mem_of_mem_erase hmem), ?_⟩
      rintro loop ⟨rfl⟩
      exact hne
  | timeoutFlow hloop =>
      constructor <;> rw [hport]
      · exact hnow.callbacks
      · exact hnow.alarms
      · have hport : _ ≠ s.world.port0 := hnow.handler _ hloop
        rintro loop ⟨rfl⟩
        exact hport
  | alarmDone =>
      refine ⟨hnow.callbacks, hnow.alarms, ?_⟩
      rintro loop ⟨⟩
  | canceled hrunning => exact absurd hrunning hpc
  | unregistered _ => exact ⟨hnow.callbacks, hnow.alarms, hnow.handler⟩

/-- The step lemma. -/
theorem quietInv_step (hinv : QuietInv s) (hquiet : QuietTeardown s e) : QuietInv s' := by
  have hport := h.port0
  constructor
  · intro hpc'
    by_cases hpc : s.teardown = .running
    · -- only the cancel leaves `running`
      cases h with
      | canceled _ =>
          obtain ⟨hcallbacks, hhandler⟩ := hquiet hpc
          refine ⟨hcallbacks, fun hmem => ?_, hhandler⟩
          exact absurd rfl (of_decide_eq_true (List.mem_filter.mp hmem).2)
      | unregistered hcanceled =>
          rw [hpc] at hcanceled
          cases hcanceled
      | _ => exact absurd hpc hpc'
    · exact nothingUnderWay_step h hinv hquiet hpc
  · intro hpc'
    rw [hport]
    cases h with
    | canceled _ => cases hpc'
    | unregistered _ =>
        exact fun hmem => absurd rfl (of_decide_eq_true (List.mem_filter.mp hmem).2)
    | _ => exact hinv.returned hpc'

/-- Where nothing is under way the handler visits no key late. -/
theorem not_late_of_quietInv (hinv : QuietInv s) :
    ∀ visit ∈ os, visit.late = true → visit.portId ≠ s.world.port0 := by
  intro visit hvisit hlate
  cases h with
  | timeoutFlow hloop =>
      obtain ⟨k, -, rfl⟩ := List.mem_map.mp hvisit
      have hreturned : s.teardown = .returned := of_decide_eq_true hlate
      have hpc : s.teardown ≠ .running := by
        rw [hreturned]
        exact TeardownPc.noConfusion
      exact (hinv.canceled hpc).handler _ hloop
  | _ => cases hvisit

end

/-- **Ageing stops.**  Over any interleaving of events, callbacks, alarms, the handler and
the teardown in which no event of the port comes between the two steps of the teardown and
nothing of it is under way at the first one. -/
theorem ageingStopped_of_quiet {s₀ s : Ageing} {es : List AgeingEvent} {tr : List KeyVisit}
    (hinit : ageingMachine.Init s₀) (hrun : ageingMachine.RunWhile QuietTeardown s₀ es tr s) :
    AgeingStopped s₀ es tr := by
  have hstart := quietInv_of_init hinit
  constructor
  · intro t hvisit hpc
    obtain ⟨es₁, tr₁, hrun₁⟩ := hrun.of_visits hvisit
    have hinv : QuietInv t := hrun₁.state_invariant hstart fun hinv hquiet hstep =>
      quietInv_step (ageingStepped_of_step hstep) hinv hquiet
    refine (hinv.canceled ?_).alarms
    rw [hpc]
    exact TeardownPc.noConfusion
  · refine (hrun.invariant (P := fun s tr => (QuietInv s ∧ s.world.port0 = s₀.world.port0) ∧
      ∀ visit ∈ tr, visit.late = true → visit.portId ≠ s₀.world.port0)
      ⟨⟨hstart, rfl⟩, by simp⟩ ?_).2
    rintro s tr e s' os ⟨⟨hinv, hport⟩, hall⟩ hquiet hstep
    have hstepped := ageingStepped_of_step hstep
    refine ⟨⟨quietInv_step hstepped hinv hquiet, hstepped.port0.trans hport⟩, ?_⟩
    intro visit hmem
    rcases List.mem_append.mp hmem with hmem | hmem
    · exact hall visit hmem
    · rw [← hport]
      exact not_late_of_quietInv hstepped hinv visit hmem

/-! ### Two teardowns -/

/-- The system in `SINGLE_PORT_MODE`, before anything has happened. -/
def initialAgeing : Ageing := ⟨initialSingle, [0], [], [], none, .running⟩

theorem init_initialAgeing : ageingMachine.Init initialAgeing :=
  ⟨init_initialSingle, rfl, rfl, rfl, rfl, rfl⟩

/-- A flow is offloaded, and the rule of its out-direction key times out. -/
def agedRuleEvents : List AgeingEvent :=
  (offloadEvents ++ [OffloadEvent.timeout 2]).map .system

/-- The handler runs for it, and the alarm for the other rule of the flow is pending as the
teardown begins. -/
def earlyEvents : List AgeingEvent :=
  agedRuleEvents ++ [.flowAged 0, .alarmSet 0 true, .alarm 0 (some [⟨2, true, (0, 0), true⟩]),
    .timeoutFlow, .alarmDone, .system (.timeout 3), .flowAged 0, .alarmSet 0 true, .unregister,
    .unregister]

theorem earlyRun_isSome : (ageingMachine.exec initialAgeing earlyEvents).isSome = true := by
  decide +kernel

/-- The teardown cancels it. -/
theorem ageingStopped_earlyEvents :
    ∃ s, ageingMachine.Run initialAgeing earlyEvents [⟨0, false, .out 0⟩] s ∧
      AgeingStopped initialAgeing earlyEvents [⟨0, false, .out 0⟩] := by
  have htrace : ((ageingMachine.exec initialAgeing earlyEvents).get earlyRun_isSome).2 =
      [⟨0, false, .out 0⟩] := by decide +kernel
  have hrun := Machine.run_exec_get earlyRun_isSome
  rw [htrace] at hrun
  exact ⟨_, hrun, ageingStopped_of_quiet init_initialAgeing (hrun.runWhile (by decide +kernel))⟩

/-- The event comes between the two steps of the teardown. -/
def lateEvents : List AgeingEvent :=
  agedRuleEvents ++ [.unregister, .flowAged 0, .alarmSet 0 true, .unregister,
    .alarm 0 (some [⟨2, true, (0, 0), true⟩]), .timeoutFlow]

theorem lateRun_isSome : (ageingMachine.exec initialAgeing lateEvents).isSome = true := by
  decide +kernel

/-- **An alarm outlives the teardown**, and the handler visits a flow key that
`destroy_smto` is about to free, or has freed. -/
theorem not_ageingStopped_lateEvents :
    ∃ tr s, ageingMachine.Init initialAgeing ∧
      ageingMachine.Run initialAgeing lateEvents tr s ∧ tr = [⟨0, true, .out 0⟩] ∧
      ¬ AgeingStopped initialAgeing lateEvents tr := by
  have htrace : ((ageingMachine.exec initialAgeing lateEvents).get lateRun_isSome).2 =
      [⟨0, true, .out 0⟩] := by decide +kernel
  refine ⟨_, _, init_initialAgeing, Machine.run_exec_get lateRun_isSome, htrace, fun h => ?_⟩
  rw [htrace] at h
  exact h.visits _ List.mem_cons_self rfl rfl

end SmartOffload
