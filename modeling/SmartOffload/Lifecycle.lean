import SmartOffload.DestroyHashMap
import SmartOffload.PlannedCalls
import SmartOffload.Pairing

/-!
# From start to exit

`main` of `test/smto_test.c`: it initialises the log and the EAL, has `init_smto` set
everything up, waits for a signal, and has `destroy_smto` of `smto.c` take everything down.
A function that does not return is `none` for every bound on the turns of its loop.

`destroy_smto` returns only if the flow table is empty, and the flow table is empty only if
no frame was ever inserted: `destroySmto_returns_iff`.  It finalises the log and the EAL,
and `main` does so again: `balanced_iff_of_exited`.
-/

namespace SmartOffload

/-! ### `destroy_smto` -/

/-- What the log of `main` shows. -/
inductive LifeEvent where
  | zlogInit (ok : Bool)
  | rteEalInit (ok : Bool)
  /-- Whatever `init_smto` logs. -/
  | init (e : InitEvent)
  /-- `destroy_hash_map`: the keys deleted and the pointers freed. -/
  | destroyHashMap (deleted : List (Option RdarmFiveTuple)) (freed : List (Option KeyPtr))
  | rteEthDevStop (portId : UInt16)
  | rteEthDevClose (portId : UInt16)
  | rteEalCleanup
  | zlogFini
  deriving DecidableEq, Repr

/-- What the environment decides when the system is taken down. -/
structure ShutdownEnv where
  /-- The ports of `RTE_ETH_FOREACH_DEV`. -/
  devices : List UInt16
  /-- Whether a call succeeds. -/
  ok : InitCall → Bool

/-- One port is flushed, stopped and closed. -/
def closePort (env : ShutdownEnv) (portId : UInt16) : List LifeEvent :=
  [.init (.call (.rteFlowFlush portId) (env.ok (.rteFlowFlush portId))),
    .rteEthDevStop portId, .rteEthDevClose portId]

/-- `destroy_smto`, with so many turns for the loop of `destroy_hash_map`. -/
def destroySmto {Table : Type} (H : RteHash Table) (env : ShutdownEnv) (fuel : ℕ)
    (port0 : UInt16) (flowHashMap : Option Table) : Option (List LifeEvent) :=
  match destroyHashMap H fuel flowHashMap with
  | none => none
  | some (deleted, freed) =>
      some ([.init (.running false),
          .init (.call (.unregisterAgedEvent port0) (env.ok (.unregisterAgedEvent port0))),
          .init .waitLcore, .destroyHashMap deleted freed] ++
        (env.devices.flatMap (closePort env) ++
          [.init (.free .workerParams), .rteEalCleanup, .zlogFini, .init (.free .controlBlock)]))

/-- It returns exactly where the table is empty, or there is none. -/
theorem exists_destroySmto_iff {Table : Type} (H : RteHash Table) (env : ShutdownEnv)
    (port0 : UInt16) (flowHashMap : Option Table) :
    (∃ fuel log, destroySmto H env fuel port0 flowHashMap = some log) ↔
      ∀ t ∈ flowHashMap, H.entries t = [] := by
  cases flowHashMap with
  | none => exact iff_of_true ⟨0, _, rfl⟩ (by simp)
  | some t =>
      simp only [Option.mem_some_iff, forall_eq']
      constructor
      · rintro ⟨fuel, log, hdestroy⟩
        by_contra hne
        simp only [destroySmto, destroyHashMap, if_pos ((H.count_pos t).mpr hne),
          run_start] at hdestroy
        cases hdestroy
      · intro hnil
        have hcount : ¬ 0 < H.count t := fun hpos => (H.count_pos t).mp hpos hnil
        exact ⟨0, _, by simp only [destroySmto, destroyHashMap, if_neg hcount]; rfl⟩

/-! ### When there is something in the table -/

/-- A frame that is looked up, and inserted if it is new. -/
def OffloadEvent.inserts : OffloadEvent → Bool
  | .packet _ m env => supportedPacketType m.packetType && env.addOut
  | _ => false

/-- Nothing is stored. -/
def NoFlow (w : World) : Prop := ∀ t, w.flowHashMap.lookup t = none

theorem noFlow_iff (w : World) : NoFlow w ↔ flowTableHash.entries w.flowHashMap = [] := by
  show _ ↔ w.flowHashMap.entries.map _ = []
  rw [List.map_eq_nil_iff, NoFlow]
  constructor
  · intro hnone
    by_contra hne
    obtain ⟨x, hx⟩ := List.exists_mem_of_ne_nil _ hne
    have hmem : x.1 ∈ w.flowHashMap := List.mem_map_of_mem hx
    exact AList.lookup_eq_none.mp (hnone x.1) hmem
  · intro hnil t
    refine AList.lookup_eq_none.mpr fun hmem => ?_
    have hkeys : t ∈ w.flowHashMap.keys := hmem
    rw [AList.keys, hnil] at hkeys
    cases hkeys

/-- **The step lemma**: the table stays empty exactly under events that insert nothing. -/
theorem noFlow_step {w w' : World} {e : OffloadEvent} {os : List Obs} (h : Stepped w e w' os) :
    NoFlow w' ↔ NoFlow w ∧ e.inserts = false := by
  cases h with
  | ignored hno => simp [OffloadEvent.inserts, hno]
  | @opened portId m env r hopen hr =>
      have htable := table_of_createFlow hr
      cases hadd : env.addOut with
      | false =>
          have hsame : r.world.flowHashMap = w.flowHashMap := by
            rw [htable, hadd]
            rfl
          simp [NoFlow, OffloadEvent.inserts, hsame, hadd]
      | true =>
          refine iff_of_false (fun hnone => ?_) fun hand => ?_
          · have hlookup := hnone (getIpv4_5tuple m ipv4Mask)
            rw [htable, lookup_rteHashAddKeyData, lookup_rteHashAddKeyData, hadd] at hlookup
            split at hlookup
            · cases hlookup
            · rw [if_pos ⟨rfl, rfl⟩] at hlookup
              cases hlookup
          · simp [OffloadEvent.inserts, hopen.1, hadd] at hand
  | @known portId m env k hk =>
      have hkeep : KeepsFlows w (requestOffload (countPacket w k m.pktLen) k) :=
        (keepsFlows_countPacket w k m.pktLen).trans (keepsFlows_requestOffload _ k)
      have hsome : ∀ {v : World}, v.flowHashMap = w.flowHashMap → ¬ NoFlow v := by
        intro v heq hnone
        have hlookup := hnone (getIpv4_5tuple m ipv4Mask)
        rw [heq, hk] at hlookup
        cases hlookup
      exact iff_of_false (hsome hkeep.flowHashMap) fun hand => hsome rfl hand.1
  | dequeued _ => simp [NoFlow, OffloadEvent.inserts, dequeueFlowRules]
  | @engine k rest ok okSymmetrical w' hburst hbody =>
      have hkeep := keepsFlows_createFlowLoopBody hbody
      simp [NoFlow, OffloadEvent.inserts, hkeep.flowHashMap]
  | @aged portId aged hvalid =>
      have hkeep := keepsFlows_deleteTimeoutFlows w portId aged
      simp [NoFlow, OffloadEvent.inserts, hkeep.flowHashMap]
  | traffic _ _ _ => simp [NoFlow, OffloadEvent.inserts]
  | timeout _ => simp [NoFlow, OffloadEvent.inserts]

/-- **The run lemma.** -/
theorem noFlow_run {w₀ w : World} {es : List OffloadEvent} {tr : List Obs} (hstart : NoFlow w₀)
    (hrun : offloadMachine.Run w₀ es tr w) : NoFlow w ↔ ∀ e ∈ es, e.inserts = false := by
  induction hrun with
  | nil => exact iff_of_true hstart fun e he => absurd he List.not_mem_nil
  | snoc _ _ hstep ih =>
      rw [noFlow_step (stepped_of_step hstep), ih, List.forall_mem_append,
        List.forall_mem_singleton]

/-- **When `destroy_smto` returns.**  After any run of the system, whatever was offloaded or
timed out in it: exactly when no supported frame was ever inserted into the flow table. -/
theorem destroySmto_returns_iff {w₀ w : World} {es : List OffloadEvent} {tr : List Obs}
    (hinit : offloadMachine.Init w₀) (hrun : offloadMachine.Run w₀ es tr w) (env : ShutdownEnv) :
    (∃ fuel log, destroySmto flowTableHash env fuel w.port0 (some w.flowHashMap) = some log) ↔
      ∀ e ∈ es, e.inserts = false := by
  have hstart : NoFlow w₀ := by
    obtain ⟨mode, port0, port1, readSpec, -, rfl⟩ := init_iff.mp hinit
    exact fun t => AList.lookup_empty t
  rw [exists_destroySmto_iff, ← noFlow_run hstart hrun, noFlow_iff]
  simp

/-- Frames come in whose type the NIC does not tell, or for which there is no room. -/
def turnedAwayEvents : List OffloadEvent :=
  [.packet 0 { udpFrame 100 ⟨client, server⟩ with packetType := 0 } .allSucceed,
    .packet 0 (udpFrame 100 ⟨client, server⟩) { PacketEnv.allSucceed with addOut := false }]

theorem turnedAwayRun_isSome :
    (offloadMachine.exec initialSingle turnedAwayEvents).isSome = true := by decide +kernel

/-- Then everything is taken down: one port, and no call fails. -/
theorem destroySmto_returns_turnedAway :
    ∃ tr w fuel log, offloadMachine.Run initialSingle turnedAwayEvents tr w ∧
      destroySmto flowTableHash ⟨[0], fun _ => true⟩ fuel w.port0 (some w.flowHashMap) =
        some log := by
  have hrun := Machine.run_exec_get turnedAwayRun_isSome
  obtain ⟨fuel, log, hdestroy⟩ :=
    (destroySmto_returns_iff init_initialSingle hrun ⟨[0], fun _ => true⟩).mpr (by decide)
  exact ⟨_, _, fuel, log, hrun, hdestroy⟩

/-! ### `main` -/

/-- How `main` ends. -/
inductive MainEnd where
  | returned (code : ℤ)
  | exited (code : ℤ)
  | crashed
  deriving DecidableEq, Repr

/-- What the environment of `main` decides, up to the signal and after it. -/
structure MainEnv (Table : Type) where
  zlogInit : Bool
  rteEalInit : Bool
  init : InitEnv
  /-- The flow table when the signal comes. -/
  flowHashMap : Option Table
  shutdown : ShutdownEnv

/-- `main` of `smto_test.c`. -/
def smtoTest {Table : Type} (H : RteHash Table) (env : MainEnv Table) (fuel : ℕ) :
    Option (MainEnd × List LifeEvent) :=
  if env.zlogInit then
    if env.rteEalInit then
      let start := .zlogInit true :: .rteEalInit true :: (initSmto env.init).2.map .init
      match (initSmto env.init).1 with
      | .crashed => some (.crashed, start)
      | .hangs => none
      | .returned ret =>
          if ret = .code .success then
            match destroySmto H env.shutdown fuel env.init.port0 env.flowHashMap with
            | none => none
            | some log => some (.exited 0, start ++ (log ++ [.rteEalCleanup, .zlogFini]))
          else some (.exited (-3), start ++ [.rteEalCleanup, .zlogFini])
    else some (.exited (-2), [.zlogInit true, .rteEalInit false, .zlogFini])
  else some (.returned (-1), [.zlogInit false])

/-- The libraries that are initialised and finalised. -/
inductive ExternalLibrary where
  | zlog
  | eal
  deriving DecidableEq, Repr

/-- The ledger entries of an event. -/
def LifeEvent.entries : LifeEvent → List (LedgerEntry ExternalLibrary)
  | .zlogInit true => [.acquire .zlog]
  | .rteEalInit true => [.acquire .eal]
  | .rteEalCleanup => [.release .eal]
  | .zlogFini => [.release .zlog]
  | _ => []

/-- The ledger of a log. -/
def libraryLedger (log : List LifeEvent) : List (LedgerEntry ExternalLibrary) :=
  log.flatMap LifeEvent.entries

/-- What is set up and closed in between is none of the two. -/
theorem libraryLedger_eq_nil {log : List LifeEvent} (h : ∀ e ∈ log, e.entries = []) :
    libraryLedger log = [] := List.flatMap_eq_nil_iff.mpr h

theorem libraryLedger_init (es : List InitEvent) : libraryLedger (es.map .init) = [] :=
  libraryLedger_eq_nil (List.forall_mem_map.mpr fun _ _ => rfl)

/-- `destroy_smto` finalises both. -/
theorem libraryLedger_destroySmto {Table : Type} {H : RteHash Table} {env : ShutdownEnv}
    {fuel : ℕ} {port0 : UInt16} {flowHashMap : Option Table} {log : List LifeEvent}
    (h : destroySmto H env fuel port0 flowHashMap = some log) :
    libraryLedger log = [.release .eal, .release .zlog] := by
  have hclose : libraryLedger (env.devices.flatMap (closePort env)) = [] := by
    refine libraryLedger_eq_nil fun e he => ?_
    obtain ⟨portId, -, he⟩ := List.mem_flatMap.mp he
    simp only [closePort, List.mem_cons, List.not_mem_nil, or_false] at he
    rcases he with rfl | rfl | rfl <;> rfl
  unfold destroySmto at h
  split at h
  · cases h
  · obtain rfl := Option.some.inj h
    simp only [libraryLedger, List.flatMap_append] at hclose ⊢
    rw [hclose]
    rfl

/-- **When `main` finalises what it has initialised**, each library once: in every
environment in which it exits, exactly when it exits with an error. -/
theorem balanced_iff_of_exited {Table : Type} {H : RteHash Table} {env : MainEnv Table}
    {fuel : ℕ} {code : ℤ} {log : List LifeEvent}
    (h : smtoTest H env fuel = some (.exited code, log)) :
    Ledger.Balanced (libraryLedger log) ↔ code ≠ 0 := by
  unfold smtoTest at h
  split at h
  · split at h
    · dsimp only at h
      split at h
      · cases h
      · cases h
      · split at h
        · split at h
          · cases h
          next hdestroy =>
            -- the log and the EAL are finalised by `destroy_smto`, and again
            obtain ⟨hcode, rfl⟩ := Prod.mk.inj (Option.some.inj h)
            have hledger := libraryLedger_destroySmto hdestroy
            have hinit := libraryLedger_init (initSmto env.init).2
            refine iff_of_false ?_ (not_not.mpr (MainEnd.exited.inj hcode).symm)
            simp only [libraryLedger, List.cons_append, List.flatMap_cons,
              List.flatMap_append] at hledger hinit ⊢
            rw [hledger, hinit]
            decide
        · obtain ⟨hcode, rfl⟩ := Prod.mk.inj (Option.some.inj h)
          have hinit := libraryLedger_init (initSmto env.init).2
          refine iff_of_true ?_ ((MainEnd.exited.inj hcode) ▸ by decide)
          simp only [libraryLedger, List.cons_append, List.flatMap_cons,
            List.flatMap_append] at hinit ⊢
          rw [hinit]
          decide
    · obtain ⟨hcode, rfl⟩ := Prod.mk.inj (Option.some.inj h)
      exact iff_of_true (by decide) ((MainEnd.exited.inj hcode) ▸ by decide)
  · cases h

/-- `init_smto` cannot create its first rule. -/
def noJumpRuleEnv : MainEnv FlowTable where
  zlogInit := true
  rteEalInit := true
  init := threeLcoresEnv 1 fun c => c ≠ .createDefaultJumpFlow 0
  flowHashMap := none
  shutdown := ⟨[0], fun _ => true⟩

theorem balanced_noJumpRuleEnv :
    ∃ log, smtoTest flowTableHash noJumpRuleEnv 0 = some (.exited (-3), log) ∧
      Ledger.Balanced (libraryLedger log) := by
  have hexit : ∃ log, smtoTest flowTableHash noJumpRuleEnv 0 = some (.exited (-3), log) :=
    ⟨_, rfl⟩
  obtain ⟨log, hexit⟩ := hexit
  exact ⟨log, hexit, (balanced_iff_of_exited hexit).mpr (by decide)⟩

end SmartOffload
