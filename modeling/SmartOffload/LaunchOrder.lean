import SmartOffload.AllOrNothing
import SmartOffload.FirstFailure
import SmartOffload.WorkerPlan

/-!
# What the workers find, and what is taken from them

When `init_smto` launches a worker, every set-up call whose result it looks at has been made
with success, what these calls acquired is still held, and a packet worker's parameter holds its
port and queue (`launched_ready`).  The calls of `init_port` may have failed: their results are
dropped.

Where a launch fails, the cleanup frees `worker_params` before it waits for the workers
that run already; `destroy_smto` does it the other way round.  `releasedIdle_iff` says in
which environments nothing is released under a running worker.
-/

namespace SmartOffload

variable {env : InitEnv} {held held' : List Resource} {es es' : List InitEvent}
  {L L' : List (LedgerEntry Resource)} {r : Resource}

/-! ### Ledgers, part by part -/

/-- What is held after a log. -/
def heldAfter (held : List Resource) : List InitEvent → List Resource
  | [] => held
  | e :: es => heldAfter ((Ledger.replay held (e.entries held)).getD held) es

theorem initLedger_append (es' : List InitEvent) : ∀ held,
    initLedger held (es ++ es') = initLedger held es ++ initLedger (heldAfter held es) es' := by
  induction es with
  | nil => exact fun _ => rfl
  | cons e es ih =>
      intro held
      rw [List.cons_append, initLedger, initLedger, ih, List.append_assoc]
      rfl

/-- What is held after some entries, as `ReleasedIdle` has it. -/
def heldThrough (held : List Resource) : List (LedgerEntry Resource) → List Resource
  | [] => held
  | .acquire r :: L => heldThrough (r :: held) L
  | .release r :: L => heldThrough (held.erase r) L

theorem releasedIdle_append (L' : List (LedgerEntry Resource)) : ∀ held,
    ReleasedIdle held (L ++ L') ↔ ReleasedIdle held L ∧ ReleasedIdle (heldThrough held L) L' := by
  induction L with
  | nil => exact fun _ => (and_iff_right trivial).symm
  | cons e L ih =>
      intro held
      cases e with
      | acquire r => exact ih (r :: held)
      | release r => exact (and_congr_right fun _ => ih (held.erase r)).trans and_assoc.symm

/-- No worker is running. -/
def Idle (held : List Resource) : Prop := ∀ r ∈ held, r.isWorker = false

/-- While no worker is launched, everything may be released. -/
theorem releasedIdle_of_idle : ∀ {held}, Idle held →
    (∀ r, .acquire r ∈ L → r.isWorker = false) →
      ReleasedIdle held L ∧ Idle (heldThrough held L) := by
  induction L with
  | nil => exact fun hidle _ => ⟨trivial, hidle⟩
  | cons e L ih =>
      intro held hidle hnone
      have htail : ∀ r, .acquire r ∈ L → r.isWorker = false :=
        fun r hr => hnone r (List.mem_cons_of_mem _ hr)
      cases e with
      | acquire r =>
          exact ih (List.forall_mem_cons.mpr ⟨hnone r List.mem_cons_self, hidle⟩) htail
      | release r =>
          have hidle' : Idle (held.erase r) := fun r' hr' => hidle r' (List.mem_of_mem_erase hr')
          obtain ⟨hreleased, hend⟩ := ih hidle' htail
          exact ⟨⟨fun _ => hidle, hreleased⟩, hend⟩

/-- Where nothing is released, what is held is what was and what is acquired. -/
theorem releasedIdle_of_acquires : ∀ {held}, (∀ r, .release r ∉ L) →
    ReleasedIdle held L ∧ ∀ r, r ∈ heldThrough held L ↔ r ∈ held ∨ .acquire r ∈ L := by
  induction L with
  | nil => exact fun _ => ⟨trivial, fun r => by simp [heldThrough]⟩
  | cons e L ih =>
      intro held hnone
      have htail : ∀ r, .release r ∉ L := fun r hr => hnone r (List.mem_cons_of_mem _ hr)
      cases e with
      | acquire r =>
          refine ⟨(ih htail).1, fun r' => ?_⟩
          rw [heldThrough, (ih htail).2, List.mem_cons, List.mem_cons, LedgerEntry.acquire.injEq,
            or_assoc, or_left_comm]
      | release r => exact absurd List.mem_cons_self (hnone r)

/-! ### Events -/

/-- An event that releases nothing. -/
def InitEvent.Keeps : InitEvent → Prop
  | .call (.unregisterAgedEvent _) _ => False
  | .call (.rteFlowFlush _) _ => False
  | .free _ => False
  | .waitLcore => False
  | _ => True

/-- What an event acquires, a call of it acquires. -/
theorem exists_call_of_acquire {e : InitEvent} (h : .acquire r ∈ e.entries held) :
    ∃ c, e = .call c true ∧ c.acquires = some r := by
  cases e with
  | call c ok =>
      cases ok with
      | true =>
          rcases List.mem_append.mp h with h | h
          · obtain ⟨r', hr', heq⟩ := List.mem_map.mp h
            obtain rfl := LedgerEntry.acquire.inj heq
            exact ⟨c, rfl, Option.mem_toList.mp hr'⟩
          · obtain ⟨r', -, heq⟩ := List.mem_map.mp h
            cases heq
      | false => exact absurd h List.not_mem_nil
  | param _ _ => exact absurd h List.not_mem_nil
  | running _ => exact absurd h List.not_mem_nil
  | free _ => cases List.mem_singleton.mp h
  | waitLcore =>
      obtain ⟨r', -, heq⟩ := List.mem_map.mp h
      cases heq

/-- What a log acquires, a call in it acquires. -/
theorem exists_call_of_acquire_mem : ∀ {held}, .acquire r ∈ initLedger held es →
    ∃ c, .call c true ∈ es ∧ c.acquires = some r := by
  induction es with
  | nil => exact fun h => absurd h List.not_mem_nil
  | cons e es ih =>
      intro held h
      rcases List.mem_append.mp h with h | h
      · obtain ⟨c, rfl, hc⟩ := exists_call_of_acquire h
        exact ⟨c, List.mem_cons_self, hc⟩
      · obtain ⟨c, hmem, hc⟩ := ih h
        exact ⟨c, List.mem_cons_of_mem _ hmem, hc⟩

/-- A worker is acquired by its launch. -/
theorem launch_of_acquires {c : InitCall} (h : c.acquires = some r) (hr : r.isWorker = true) :
    ∃ lcoreId job, c = .rteEalRemoteLaunch lcoreId job := by
  by_contra hno
  have hidle : c.acquires.all (fun r => !r.isWorker) = true := by
    cases c with
    | rteEalRemoteLaunch lcoreId job => exact absurd ⟨lcoreId, job, rfl⟩ hno
    | _ => rfl
  rw [h, Option.all_some, hr] at hidle
  cases hidle

/-- Quiet events launch no worker. -/
theorem isWorker_of_quiet (hquiet : ∀ e ∈ es, e.Quiet) (h : .acquire r ∈ initLedger held es) :
    r.isWorker = false := by
  obtain ⟨c, hmem, hc⟩ := exists_call_of_acquire_mem h
  by_contra hr
  obtain ⟨lcoreId, job, rfl⟩ := launch_of_acquires hc (Bool.not_eq_false _ ▸ hr)
  have hfalse : true = false := hquiet _ hmem
  cases hfalse

theorem release_notMem_entries {e : InitEvent} (hkeeps : e.Keeps) (held : List Resource)
    (r : Resource) : .release r ∉ e.entries held := by
  intro h
  cases e with
  | call c ok =>
      cases ok with
      | true =>
          rcases List.mem_append.mp h with h | h
          · obtain ⟨r', -, heq⟩ := List.mem_map.mp h
            cases heq
          · obtain ⟨r', hr', -⟩ := List.mem_map.mp h
            cases c <;> first | exact hkeeps | exact List.not_mem_nil hr'
      | false => exact List.not_mem_nil h
  | param _ _ => exact List.not_mem_nil h
  | running _ => exact List.not_mem_nil h
  | free _ => exact hkeeps
  | waitLcore => exact hkeeps

theorem release_notMem_initLedger : ∀ {held}, (∀ e ∈ es, e.Keeps) → ∀ r,
    .release r ∉ initLedger held es := by
  induction es with
  | nil => exact fun _ _ => List.not_mem_nil
  | cons e es ih =>
      intro held hkeeps r h
      rcases List.mem_append.mp h with h | h
      · exact release_notMem_entries (hkeeps e List.mem_cons_self) held r h
      · exact ih (fun e he => hkeeps e (List.mem_cons_of_mem _ he)) r h

/-- An event that releases nothing acquires one thing, or nothing. -/
theorem entries_of_keeps {e : InitEvent} (hkeeps : e.Keeps) (held : List Resource) :
    e.entries held = [] ∨ ∃ r, e.entries held = [.acquire r] := by
  cases e with
  | call c ok =>
      cases ok with
      | true =>
          have hreleases : c.releases held = [] := by cases c <;> first | rfl | exact hkeeps.elim
          rw [InitEvent.entries, hreleases, List.map_nil, List.append_nil]
          cases c.acquires with
          | none => exact Or.inl rfl
          | some r => exact Or.inr ⟨r, rfl⟩
      | false => exact Or.inl rfl
  | param _ _ => exact Or.inl rfl
  | running _ => exact Or.inl rfl
  | free _ => exact hkeeps.elim
  | waitLcore => exact hkeeps.elim

/-- What was held stays, and what is acquired is held. -/
theorem mem_held_of_keeps {e : InitEvent} (hkeeps : e.Keeps)
    (h : r ∈ held ∨ .acquire r ∈ e.entries held) :
    r ∈ (Ledger.replay held (e.entries held)).getD held := by
  rcases entries_of_keeps hkeeps held with heq | ⟨r', heq⟩
  · rw [heq] at h ⊢
    exact h.resolve_right List.not_mem_nil
  · rw [heq, List.mem_singleton, LedgerEntry.acquire.injEq] at h
    rw [heq]
    by_cases hmem : r' ∈ held
    · rw [Ledger.replay, if_pos hmem, Option.getD_none]
      exact h.elim id fun heq => heq ▸ hmem
    · rw [Ledger.replay_acquire_cons hmem, Ledger.replay_nil, Option.getD_some]
      exact List.mem_cons.mpr h.symm

theorem mem_heldAfter : ∀ {held}, (∀ e ∈ es, e.Keeps) →
    (r ∈ held ∨ ∃ c, .call c true ∈ es ∧ c.acquires = some r) → r ∈ heldAfter held es := by
  induction es with
  | nil =>
      rintro held - (h | ⟨c, hmem, -⟩)
      · exact h
      · exact absurd hmem List.not_mem_nil
  | cons e es ih =>
      intro held hkeeps h
      obtain ⟨hfirst, hrest⟩ := List.forall_mem_cons.mp hkeeps
      refine ih hrest ?_
      rcases h with h | ⟨c, hmem, hc⟩
      · exact Or.inl (mem_held_of_keeps hfirst (Or.inl h))
      · rcases List.mem_cons.mp hmem with rfl | hmem
        · exact Or.inl (mem_held_of_keeps hfirst (Or.inr (by simp [InitEvent.entries, hc])))
        · exact Or.inr ⟨c, hmem, hc⟩

/-! ### The launch loop -/

/-- **What one turn of the launch loop can do**, by cases. -/
inductive LaunchTurn (env : InitEnv) (lcoreId : UInt16) (index : ℕ) : InitM → Prop where
  | packetWorker {value : WorkerParameter} (ok : Bool) (h : workerParam env index = some value) :
      LaunchTurn env lcoreId index ⟨launchResult ok,
        [.param index value, .call (.rteEalRemoteLaunch lcoreId (.processLoop index)) ok]⟩
  | flowEngine (ok : Bool) :
      LaunchTurn env lcoreId index
        ⟨launchResult ok, [.call (.rteEalRemoteLaunch lcoreId .createFlowLoop) ok]⟩
  | unused : LaunchTurn env lcoreId index ⟨.ok (), []⟩
  | crashed : LaunchTurn env lcoreId index ⟨.error .crashed, []⟩

theorem launchTurn_processLoop (params : Bool) (lcoreId : UInt16) {index : ℕ}
    {value : WorkerParameter} (h : workerParam env index = some value) :
    LaunchTurn env lcoreId index (launchProcessLoop env params lcoreId index value) := by
  unfold launchProcessLoop storeParam
  cases params with
  | true =>
      rw [remoteLaunch_eq]
      exact .packetWorker _ h
  | false => exact .crashed

/-- Every turn is one of the cases. -/
theorem launchTurn (params : Bool) (lcoreId : UInt16) (index : ℕ) :
    LaunchTurn env lcoreId index (launchWorker env params lcoreId index) := by
  unfold launchWorker
  split
  next hfirst => exact launchTurn_processLoop params lcoreId (if_pos hfirst)
  next hfirst =>
    split
    next hsecond =>
      exact launchTurn_processLoop params lcoreId ((if_neg hfirst).trans (if_pos hsecond))
    next hsecond =>
      split
      · rw [remoteLaunch_eq]
        exact .flowEngine _
      · exact .unused

/-- A turn releases nothing. -/
theorem LaunchTurn.keeps {lcoreId : UInt16} {index : ℕ} {x : InitM}
    (h : LaunchTurn env lcoreId index x) : ∀ e ∈ x.events, e.Keeps := by
  cases h with
  | packetWorker ok hvalue =>
      exact List.forall_mem_cons.mpr ⟨trivial, List.forall_mem_singleton.mpr trivial⟩
  | flowEngine ok => exact List.forall_mem_singleton.mpr trivial
  | unused => exact fun e he => absurd he List.not_mem_nil
  | crashed => exact fun e he => absurd he List.not_mem_nil

/-- The launch of a packet worker comes right after its parameter. -/
theorem LaunchTurn.eq_param {l lcoreId : UInt16} {index i : ℕ} {ok : Bool} {x : InitM}
    (h : LaunchTurn env l index x) (heq : x.events =
      es ++ .call (.rteEalRemoteLaunch lcoreId (.processLoop i)) ok :: es') :
    ∃ value, workerParam env i = some value ∧ es = [.param i value] := by
  have hsingle {e : InitEvent} {fs : List InitEvent} (h : [e] = fs ++
      .call (.rteEalRemoteLaunch lcoreId (.processLoop i)) ok :: es') :
      e = .call (.rteEalRemoteLaunch lcoreId (.processLoop i)) ok := by
    rcases List.append_eq_singleton_iff.mp h.symm with ⟨-, h⟩ | ⟨-, h⟩
    · exact (List.cons.inj h).1.symm
    · cases h
  cases h with
  | @packetWorker value ok' hvalue =>
      rcases es with _ | ⟨e, _ | ⟨e', es⟩⟩
      · cases heq
      · obtain ⟨rfl, hrest⟩ := List.cons.inj heq
        have hcall := @hsingle _ [] hrest
        simp only [InitEvent.call.injEq, InitCall.rteEalRemoteLaunch.injEq,
          WorkerJob.processLoop.injEq] at hcall
        obtain ⟨⟨rfl, rfl⟩, rfl⟩ := hcall
        exact ⟨value, hvalue, rfl⟩
      · obtain ⟨-, hrest⟩ := List.cons.inj heq
        obtain ⟨-, hrest⟩ := List.cons.inj hrest
        exact absurd hrest.symm (List.append_ne_nil_of_right_ne_nil _ (List.cons_ne_nil _ _))
  | flowEngine ok' =>
      have hcall := hsingle heq
      simp at hcall
  | unused => exact absurd heq.symm (List.append_ne_nil_of_right_ne_nil _ (List.cons_ne_nil _ _))
  | crashed => exact absurd heq.symm (List.append_ne_nil_of_right_ne_nil _ (List.cons_ne_nil _ _))

section

variable {params : Bool} {lcores : List UInt16}

theorem keeps_launchWorkers :
    ∀ {index}, ∀ e ∈ (launchWorkers env params lcores index).events, e.Keeps := by
  induction lcores with
  | nil => exact fun e he => absurd he List.not_mem_nil
  | cons lcoreId rest ih =>
      intro index e he
      rcases Procedure.mem_events_bind he with he | ⟨-, -, he⟩
      · exact (launchTurn params lcoreId index).keeps e he
      · exact ih e he

/-- **A packet worker finds its parameter**: it is written right before the launch. -/
theorem eq_param_of_launched {lcoreId : UInt16} {i : ℕ} {ok : Bool} : ∀ {index} es₁ {es₂},
    (launchWorkers env params lcores index).events =
        es₁ ++ .call (.rteEalRemoteLaunch lcoreId (.processLoop i)) ok :: es₂ →
      ∃ fs value, workerParam env i = some value ∧ es₁ = fs ++ [.param i value] := by
  induction lcores with
  | nil =>
      intro index es₁ es₂ h
      exact absurd h.symm (List.append_ne_nil_of_right_ne_nil _ (List.cons_ne_nil _ _))
  | cons l rest ih =>
      intro index es₁ es₂ h
      have hturn : LaunchTurn env l index (launchWorker env params l index) :=
        launchTurn params l index
      rw [launchWorkers] at h
      rcases (launchWorker env params l index).completes_or_jumps with ⟨a, ha⟩ | ⟨j, hj⟩
      · rw [Procedure.bind_of_ok ha] at h
        -- the launch is this turn's, or a later one's
        rcases List.append_eq_append_iff.mp h with ⟨fs, rfl, hrest⟩ | ⟨fs, hfirst, hrest⟩
        · obtain ⟨gs, value, hvalue, rfl⟩ := ih _ hrest
          exact ⟨_, value, hvalue, (List.append_assoc _ _ _).symm⟩
        · cases fs with
          | nil =>
              obtain ⟨gs, value, -, hnil⟩ := ih [] hrest.symm
              exact absurd hnil.symm (List.append_ne_nil_of_right_ne_nil _ (List.cons_ne_nil _ _))
          | cons f fs =>
              rw [List.cons_append] at hrest
              obtain ⟨rfl, -⟩ := List.cons.inj hrest
              obtain ⟨value, hvalue, rfl⟩ := hturn.eq_param hfirst
              exact ⟨[], value, hvalue, rfl⟩
      · rw [Procedure.bind_of_error hj] at h
        obtain ⟨value, hvalue, rfl⟩ := hturn.eq_param h
        exact ⟨[], value, hvalue, rfl⟩

end

/-! ### The set-up -/

theorem keeps_initPort (portId : UInt16) : ∀ e ∈ (initPort env portId).events, e.Keeps := by
  have hqueues : ∀ {call : ℕ → InitCall} {j : InitRet},
      (∀ i ok, InitEvent.Keeps (.call (call i) ok)) →
      ((List.range env.queues).forM fun i => attemptCall env (call i) j).Spec env.succeeds
        InitEvent.call InitEvent.Keeps (fun _ => True) _ := fun hcall =>
    .forM fun i => .attempt (hcall i _) trivial
  have hspec : (initPort env portId).Spec env.succeeds InitEvent.call InitEvent.Keeps
      (fun _ => True) _ :=
    .bind (.attempt trivial trivial) fun _ => .bind (.attempt trivial trivial) fun _ =>
      .bind (hqueues fun _ _ => trivial) fun _ => .bind (hqueues fun _ _ => trivial) fun _ =>
        .attempt trivial trivial
  exact hspec.allEvents

theorem keeps_configurePorts : ∀ e ∈ (configurePorts env).events, e.Keeps := by
  have hport : ∀ portId, ((initPort env portId).result : Procedure InitStop _ _).Spec
      env.succeeds InitEvent.call InitEvent.Keeps (fun _ => True) [] :=
    fun portId => .result (keeps_initPort portId)
  have hqueues : ∀ a b, (setupHairpinQueues env a b).Spec env.succeeds InitEvent.call
      InitEvent.Keeps (fun _ => True) _ := fun _ _ =>
    .bind (.attempt trivial trivial) fun _ => .attempt trivial trivial
  have hhairpin : ∀ a b, ((setupHairpinQueues env a b).mapJump fun _ =>
      InitRet.code .hairpinSetup).Spec env.succeeds InitEvent.call InitEvent.Keeps
        (fun _ => True) _ := fun a b => (hqueues a b).mapJump fun _ _ => trivial
  suffices hspec : ∃ cs, (configurePorts env).Spec env.succeeds InitEvent.call InitEvent.Keeps
      (fun _ => True) cs from hspec.elim fun _ hspec => hspec.allEvents
  unfold configurePorts setupOnePortHairpin setupTwoPortHairpin
  cases env.mode with
  | singlePortMode =>
      exact ⟨_, .bind (hport _) fun _ =>
        .bind (.mapJump (fun _ _ => trivial) (hhairpin _ _)) fun _ =>
          .bind (.attempt trivial trivial) fun _ => .attempt trivial trivial⟩
  | doublePortMode =>
      exact ⟨_, .bind (hport _) fun _ => .bind (hport _) fun _ =>
        .bind (.mapJump (fun _ _ => trivial) (.bind (hhairpin _ _) fun _ => hhairpin _ _)) fun _ =>
          .bind (.attempt trivial trivial) fun _ => .bind (.attempt trivial trivial) fun _ =>
            .bind (.attempt trivial trivial) fun _ => .attempt trivial trivial⟩

/-- Completed tables: no ring was freed. -/
theorem keeps_createTables : (createTables env).Logs InitEvent.Keeps := by
  have hring : ∀ ring label, (createRing env ring label).Logs InitEvent.Keeps := fun _ _ =>
    .bind (.attempt trivial) fun _ => .attemptUndo trivial
  refine .bind (.attempt trivial) fun _ => .bind (.attempt trivial) fun _ => ?_
  refine .bind (.attempt trivial) fun _ => .bind (hring _ _) fun _ => .bind (hring _ _) fun _ => ?_
  exact .bind (.forM fun _ => .attempt trivial) fun _ => .bind (.attempt trivial) fun _ =>
    .emit trivial

/-- `is_running` is set last. -/
theorem running_mem_createTables (h : (createTables env).Completes) :
    .running true ∈ (createTables env).events := by
  have hlast : ∀ a : Unit, (Procedure.emit (.running true) : InitM).Completes →
      .running true ∈ (Procedure.emit (.running true) : InitM).events :=
    fun _ _ => List.mem_singleton_self _
  refine Procedure.mem_events_of_right (fun _ => Procedure.mem_events_of_right fun _ => ?_) h
  refine Procedure.mem_events_of_right fun _ => Procedure.mem_events_of_right fun _ => ?_
  refine Procedure.mem_events_of_right fun _ => Procedure.mem_events_of_right fun _ => ?_
  exact Procedure.mem_events_of_right hlast

/-! ### The log -/

theorem quiet_cleanup (launched : Bool) (label : Label) :
    ∀ e ∈ (cleanup env launched label).events, e.Quiet := by
  have hquiet : ∀ e ∈ cleanupEvents env, e.Quiet := by simp [cleanupEvents, InitEvent.Quiet]
  exact fun e he => hquiet e (mem_cleanupEvents launched label e he)

/-- How the log ends. -/
def logTail (env : InitEnv) (launched : Bool) : Except InitStop Unit → List InitEvent
  | .error (.goto _ label) => (cleanup env launched label).events
  | _ => []

theorem initSmto_snd (env : InitEnv) :
    (initSmto env).2 = (initSmtoBody env).events ++
      logTail env (workersLaunched (initSmtoBody env).events) (initSmtoBody env).outcome := by
  unfold initSmto
  dsimp only
  cases (initSmtoBody env).outcome with
  | ok a => exact (List.append_nil _).symm
  | error stop =>
      cases stop with
      | returned ret => exact (List.append_nil _).symm
      | goto ret label => rfl
      | crashed => exact (List.append_nil _).symm

theorem quiet_logTail (launched : Bool) (outcome : Except InitStop Unit) :
    ∀ e ∈ logTail env launched outcome, e.Quiet := by
  unfold logTail
  split
  · exact quiet_cleanup _ _
  · exact fun e he => absurd he List.not_mem_nil

/-- The log of an environment that does not suffice launches no worker. -/
theorem quiet_of_failsEarly (h : env.FailsEarly) : ∀ e ∈ (initSmto env).2, e.Quiet := by
  obtain ⟨ret, -, hend | ⟨es, hes, hend⟩⟩ := initSmto_of_failsEarly h
  · rw [hend]
    exact List.forall_mem_singleton.mpr trivial
  · rw [hend]
    rcases hes with rfl | rfl <;> simp [InitEvent.Quiet]

/-- **The log past the checks**: it launches no worker, or is that of a complete set-up, the
launch loop and a cleanup. -/
theorem quietLog_or_started (h : ¬ env.FailsEarly) :
    ((∀ e ∈ (initSmto env).2, e.Quiet) ∧
        ∃ c ∈ checkedPortCalls env ++ tableCalls env, env.firstFailure = some c) ∨
      (configurePorts env).Completes ∧ (createTables env).Completes ∧
        (∃ launched, (initSmto env).2 = setupEvents env ++
          ((launchLoop env).events ++ logTail env launched (launchLoop env).outcome)) ∧
        env.firstFailure = (startCalls env).find? fun c => !env.succeeds c := by
  rw [initSmto_snd]
  refine (quiet_or_started h).imp (fun hquiet => ⟨?_, hquiet.2⟩) fun hstarted => ?_
  · exact List.forall_mem_append.mpr ⟨hquiet.1, quiet_logTail _ _⟩
  · obtain ⟨hports, htables, hbody, hfirst⟩ := hstarted
    refine ⟨hports, htables, ⟨workersLaunched (initSmtoBody env).events, ?_⟩, hfirst⟩
    rw [hbody, List.append_assoc]

/-! ### What a launched worker finds -/

/-- The set-up calls whose failure is noticed before a worker is launched.  The calls of
`init_port` are not among them, since their results are dropped. -/
def checkedSetupCalls (env : InitEnv) : List InitCall :=
  .callocControlBlock :: .rtePktmbufPoolCreate ::
    (checkedPortCalls env ++ (tableCalls env ++ [.callocWorkerParams]))

/-- **Ready for a worker**: after these events every checked set-up call has been made with
success, what they acquired is held, `is_running` is set, and a packet worker's parameter holds
the port and the queue of its index. -/
structure ReadyFor (env : InitEnv) (job : WorkerJob) (es : List InitEvent) : Prop where
  made : ∀ c ∈ checkedSetupCalls env, .call c true ∈ es
  held : ∀ c ∈ checkedSetupCalls env, ∀ r, c.acquires = some r → r ∈ heldAfter [] es
  running : .running true ∈ es
  param : ∀ index, job = .processLoop index →
    ∃ value, workerParam env index = some value ∧ workerParams es index = some value

theorem keeps_setupEvents (h : (createTables env).Completes) :
    ∀ e ∈ setupEvents env, e.Keeps := by
  simp only [setupEvents, List.forall_mem_cons, List.forall_mem_append]
  exact ⟨trivial, trivial, keeps_configurePorts, keeps_createTables h, trivial,
    fun e he => absurd he List.not_mem_nil⟩

/-- A complete set-up has made its calls. -/
theorem made_of_started (hports : (configurePorts env).Completes)
    (htables : (createTables env).Completes) (hparams : env.succeeds .callocWorkerParams = true) :
    ∀ c ∈ checkedSetupCalls env, .call c true ∈ setupEvents env := by
  have htrue : SetupEvents env fun _ => True := startEvents_true.toSetupEvents
  have hmade := (spec_configurePorts htrue).logged hports
  have hmade' := (spec_createTables htrue).logged htables
  simp only [checkedSetupCalls, List.forall_mem_cons, List.forall_mem_append]
  refine ⟨by simp [setupEvents], by simp [setupEvents], fun c hc => ?_, fun c hc => ?_, ?_⟩
  · simp [setupEvents, hmade c hc]
  · simp [setupEvents, hmade' c hc]
  · simp [setupEvents, hparams]

/-- An event that is not in the last part is in the first. -/
theorem exists_cons_of_notMem {x : InitEvent} {gs tail es₂ : List InitEvent}
    (htail : x ∉ tail) (h : x :: es₂ = gs ++ tail) : ∃ gs', gs = x :: gs' := by
  cases gs with
  | nil =>
      rw [List.nil_append] at h
      exact absurd (h ▸ List.mem_cons_self) htail
  | cons g gs => exact ⟨gs, by rw [(List.cons.inj h).1]⟩

/-- An event that is in neither of the outer parts is in the middle one. -/
theorem exists_split {x : InitEvent} {pre mid tail es₁ es₂ : List InitEvent} (hpre : x ∉ pre)
    (htail : x ∉ tail) (h : pre ++ (mid ++ tail) = es₁ ++ x :: es₂) :
    ∃ fs gs, es₁ = pre ++ fs ∧ mid = fs ++ x :: gs := by
  -- the prefix ends in the middle, or with the first part
  rcases List.append_eq_append_iff.mp h with ⟨fs, rfl, hrest⟩ | ⟨fs, rfl, hrest⟩
  · rcases List.append_eq_append_iff.mp hrest with ⟨gs, rfl, rfl⟩ | ⟨gs, rfl, hgs⟩
    · exact absurd (List.mem_append_right _ List.mem_cons_self) htail
    · obtain ⟨gs', rfl⟩ := exists_cons_of_notMem htail hgs
      exact ⟨fs, gs', rfl, rfl⟩
  · cases fs with
    | nil =>
        obtain ⟨gs', rfl⟩ := exists_cons_of_notMem htail hrest
        exact ⟨[], gs', by rw [List.append_nil, List.append_nil], rfl⟩
    | cons f fs =>
        obtain ⟨rfl, -⟩ := List.cons.inj hrest
        exact absurd (List.mem_append_right _ List.mem_cons_self) hpre

/-- What was written last is there. -/
theorem workerParams_concat (es : List InitEvent) (index : ℕ) (value : WorkerParameter) :
    workerParams (es ++ [.param index value]) index = some value := by
  rw [workerParams, List.filterMap_append, List.foldl_append]
  exact Function.update_self _ _ _

/-- **What a worker finds.**  In every environment, and for every worker: when it is launched
every checked set-up call has succeeded, what those calls acquired is held, and a packet
worker's parameter holds its port and queue. -/
theorem launched_ready {es₁ es₂ : List InitEvent} {lcoreId : UInt16} {job : WorkerJob}
    (h : (initSmto env).2 = es₁ ++ .call (.rteEalRemoteLaunch lcoreId job) true :: es₂) :
    ReadyFor env job es₁ := by
  have hlaunch : ¬ (InitEvent.call (.rteEalRemoteLaunch lcoreId job) true).Quiet :=
    fun hquiet => Bool.noConfusion (hquiet : true = false)
  have hearly : ¬ env.FailsEarly := fun hearly =>
    hlaunch (quiet_of_failsEarly hearly _ (h ▸ List.mem_append_right _ List.mem_cons_self))
  rcases quietLog_or_started hearly with ⟨hquiet, -⟩ | ⟨hports, htables, ⟨launched, hlog⟩, -⟩
  · exact absurd (hquiet _ (h ▸ List.mem_append_right _ List.mem_cons_self)) hlaunch
  · rw [hlog] at h
    obtain ⟨fs, gs, rfl, hfs⟩ := exists_split
      (fun hmem => hlaunch (quiet_setupEvents env _ hmem))
      (fun hmem => hlaunch (quiet_logTail _ _ _ hmem)) h
    -- without worker parameters there is no launch
    have hparams : env.succeeds .callocWorkerParams = true := by
      by_contra hno
      rw [launchLoop, Bool.eq_false_of_not_eq_true hno,
        launchWorkers_crash (lcores_ne_nil_of_not_failsEarly hearly)] at hfs
      exact absurd hfs.symm (List.append_ne_nil_of_right_ne_nil _ (List.cons_ne_nil _ _))
    have hmade := made_of_started hports htables hparams
    have hkeeps : ∀ e ∈ setupEvents env ++ fs, e.Keeps :=
      List.forall_mem_append.mpr ⟨keeps_setupEvents htables, fun e he =>
        keeps_launchWorkers e (hfs ▸ List.mem_append_left _ he)⟩
    constructor
    · exact fun c hc => List.mem_append_left _ (hmade c hc)
    · exact fun c hc r hr => mem_heldAfter hkeeps
        (Or.inr ⟨c, List.mem_append_left _ (hmade c hc), hr⟩)
    · refine List.mem_append_left _ (List.mem_cons_of_mem _ (List.mem_cons_of_mem _ ?_))
      exact List.mem_append_right _ (List.mem_append_left _ (running_mem_createTables htables))
    · rintro index rfl
      obtain ⟨fs', value, hvalue, rfl⟩ := eq_param_of_launched fs hfs
      rw [← List.append_assoc]
      exact ⟨value, hvalue, workerParams_concat _ index value⟩

/-- One port, one queue: what the packet worker finds. -/
theorem launched_ready_onePort :
    ∃ es, ReadyFor (threeLcoresEnv 1 fun _ => true) (.processLoop 0) es := by
  have hmem : .processLoop 0 ∈
      (initSmto (threeLcoresEnv 1 fun _ => true)).2.filterMap InitEvent.launched := by
    rw [launched_of_single (initSmto_threeLcoresEnv 1 (by decide)) (by decide)]
    exact List.mem_append_left _ (List.mem_map.mpr ⟨0, by decide, rfl⟩)
  obtain ⟨e, he, hlaunched⟩ := List.mem_filterMap.mp hmem
  obtain ⟨lcoreId, rfl⟩ : ∃ lcoreId,
      e = .call (.rteEalRemoteLaunch lcoreId (.processLoop 0)) true := by
    unfold InitEvent.launched at hlaunched
    split at hlaunched
    next lcoreId job => exact ⟨lcoreId, by rw [Option.some.inj hlaunched]⟩
    · cases hlaunched
  obtain ⟨es₁, es₂, hlog⟩ := List.append_of_mem he
  exact ⟨es₁, launched_ready hlog⟩

/-! ### What is taken from the workers -/

/-- Whether something is released under a running worker is decided after the launches: it
depends on whether there were any. -/
theorem exists_releasedIdle_iff {pre start : List InitEvent} (hpre : ∀ e ∈ pre, e.Quiet)
    (hstart : ∀ e ∈ start, e.Keeps) (tail : List InitEvent) :
    ∃ held held', (Idle held ↔ ∀ e ∈ start, e.Quiet) ∧
      (ReleasedIdle [] (initLedger [] (pre ++ (start ++ tail))) ↔
        ReleasedIdle held (initLedger held' tail)) := by
  obtain ⟨hreleased, hidle⟩ := releasedIdle_of_idle (L := initLedger [] pre)
    (fun r hr => absurd hr List.not_mem_nil) fun r hr => isWorker_of_quiet hpre hr
  generalize hfirst : heldThrough [] (initLedger [] pre) = held at hidle
  have hkept : ∀ r, .release r ∉ initLedger (heldAfter [] pre) start :=
    release_notMem_initLedger hstart
  have hreleased' : ReleasedIdle held (initLedger (heldAfter [] pre) start) :=
    (releasedIdle_of_acquires hkept).1
  have hheld : ∀ r, r ∈ heldThrough held (initLedger (heldAfter [] pre) start) ↔
      r ∈ held ∨ .acquire r ∈ initLedger (heldAfter [] pre) start :=
    (releasedIdle_of_acquires hkept).2
  refine ⟨heldThrough held (initLedger (heldAfter [] pre) start),
    heldAfter (heldAfter [] pre) start, ⟨fun hend e he => ?_, fun hquiet r hr => ?_⟩, ?_⟩
  · by_contra hlaunch
    cases e with
    | call c ok =>
        cases c with
        | rteEalRemoteLaunch lcoreId job =>
            have hok : ok = true := Bool.eq_true_of_not_eq_false hlaunch
            subst hok
            have hmem := (hheld (.worker lcoreId)).mpr (Or.inr (mem_initLedger_of_acquires rfl he))
            cases hend _ hmem
        | _ => exact hlaunch trivial
    | _ => exact hlaunch trivial
  · rcases (hheld r).mp hr with hr | hr
    · exact hidle r hr
    · exact isWorker_of_quiet hquiet hr
  · rw [initLedger_append, initLedger_append, releasedIdle_append, releasedIdle_append,
      hfirst, and_iff_right hreleased,
      and_iff_right hreleased']

/-- The cleanup from `err5` on frees `worker_params` before it waits for the workers. -/
theorem releasedIdle_cleanup_iff (launched : Bool) :
    ReleasedIdle held (initLedger held' (cleanup env launched .err5).events) ↔ Idle held := by
  constructor
  · obtain ⟨es, hes⟩ := Procedure.exists_events_bind (Label.body env launched .err5)
      fun _ => cleanup env launched .err4
    have hfirst : (cleanup env launched .err5).events =
        (Label.body env launched .err5).events ++ es := hes
    rw [hfirst]
    exact fun h => h.1 rfl
  · exact fun hidle => (releasedIdle_of_idle hidle fun _ hr =>
      isWorker_of_quiet (quiet_cleanup launched .err5) hr).1

/-- Where the environment does not suffice the first failure, if any, is an allocation. -/
theorem firstFailure_of_failsEarly (h : env.FailsEarly) {l : UInt16} {job : WorkerJob} :
    env.firstFailure ≠ some (.rteEalRemoteLaunch l job) := by
  unfold InitEnv.firstFailure InitEnv.attemptedCalls
  cases hblock : env.succeeds .callocControlBlock with
  | false =>
      rw [List.find?_cons_of_pos (by simp [hblock])]
      simp
  | true =>
      rw [List.find?_cons_of_neg (by simp [hblock])]
      split
      · simp
      next hrejected =>
        have hpool : env.succeeds .rtePktmbufPoolCreate = false := by
          rcases h with h | h | h | h
          · rw [hblock] at h
            cases h
          · exact absurd (Or.inl h) hrejected
          · exact absurd (Or.inr h) hrejected
          · exact h
        rw [List.find?_cons_of_pos (by simp [hpool])]
        simp

/-- **When nothing is taken from a running worker.**  In every environment: exactly when no
launch fails, or already the one on the first lcore does. -/
theorem releasedIdle_iff (env : InitEnv) :
    ReleasedIdle [] (initLedger [] (initSmto env).2) ↔
      ∀ l job, env.firstFailure = some (.rteEalRemoteLaunch l job) → env.lcores.head? = some l := by
  have hquietLog : (∀ e ∈ (initSmto env).2, e.Quiet) →
      ReleasedIdle [] (initLedger [] (initSmto env).2) := fun hquiet =>
    (releasedIdle_of_idle (fun r hr => absurd hr List.not_mem_nil) fun r hr =>
      isWorker_of_quiet hquiet hr).1
  by_cases hearly : env.FailsEarly
  · exact iff_of_true (hquietLog (quiet_of_failsEarly hearly)) fun l job hfirst =>
      absurd hfirst (firstFailure_of_failsEarly hearly)
  · rcases quietLog_or_started hearly with
      ⟨hquiet, c, hc, hfirst⟩ | ⟨-, -, ⟨launched, hlog⟩, hfirst⟩
    · refine iff_of_true (hquietLog hquiet) fun l job hlaunch => ?_
      rw [hfirst] at hlaunch
      obtain rfl := Option.some.inj hlaunch
      exact absurd rfl (label_of_mem _ hc)
    · have hkeeps : ∀ e ∈ (launchLoop env).events, e.Keeps := keeps_launchWorkers
      obtain ⟨held, held', hidle, hiff⟩ := exists_releasedIdle_iff (quiet_setupEvents env) hkeeps
        (logTail env launched (launchLoop env).outcome)
      rw [hlog, hiff, hfirst, startCalls]
      cases hparams : env.succeeds .callocWorkerParams with
      | false =>
          rw [launchLoop, hparams, launchWorkers_crash (lcores_ne_nil_of_not_failsEarly hearly),
            List.find?_cons_of_pos (by simp [hparams])]
          exact iff_of_true trivial (by simp)
      | true =>
          rw [launchLoop, hparams] at hidle ⊢
          rw [List.find?_cons_of_neg (by simp [hparams])]
          have hreports : (launchWorkers env true env.lcores 0).Reports env.succeeds InitCall.stop
              (launchCalls env env.lcores 0) := reports_launchWorkers env.lcores 0
          rcases (launchWorkers env true env.lcores 0).completes_or_jumps with ⟨a, ha⟩ | ⟨j, hj⟩
          · rw [ha, hreports.find?_of_ok ha]
            exact iff_of_true trivial (by simp)
          · obtain ⟨c, hc, rfl⟩ := hreports.find?_of_error hj
            obtain ⟨l, -, job, rfl⟩ := exists_of_mem_launchCalls (List.mem_of_find?_eq_some hc)
            have hcleanup : logTail env launched (.error (InitCall.rteEalRemoteLaunch l job).stop) =
                (cleanup env launched .err5).events := rfl
            rw [hj, hc, hcleanup, releasedIdle_cleanup_iff, hidle,
              quiet_launchWorkers_iff env.lcores_nodup hc]
            constructor
            · intro hhead l' job' heq
              obtain ⟨rfl, -⟩ := InitCall.rteEalRemoteLaunch.inj (Option.some.inj heq)
              exact hhead
            · exact fun hall => hall l job rfl

end SmartOffload
