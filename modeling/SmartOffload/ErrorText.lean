import SmartOffload.FirstFailure

/-!
# What a failing `init_smto` reports

`test/smto_test.c` logs what `init_smto` returns as a text, through `smto_error_string` of
`smto_common.c`.  Two of the calls hand a negative errno on, for which there is no text, or
the wrong one: the value of `SMTO_ERROR_UNKNOWN` is an errno as well (`errorMessage_iff`).
-/

namespace SmartOffload

variable {env : InitEnv}

/-! ### The text that is logged -/

/-- The constants of `enum smto_error_code`. -/
def SmtoErrorCode.value : SmtoErrorCode → Int32
  | .success => 0
  | .memoryAllocation => 1
  | .hugePageMemoryAllocation => 2
  | .noEnoughWorker => 3
  | .noAvailablePorts => 4
  | .deviceConfigure => 5
  | .queueSetup => 6
  | .hairpinSetup => 7
  | .hairpinBind => 8
  | .deviceStart => 9
  | .flowCreate => 10
  | .flowQuery => 11
  | .eventRegister => 12
  | .hashMapCreation => 13
  | .hashMapOperation => 14
  | .workerLaunch => 15
  | .ringCreation => 16
  | .ringOperation => 17
  | .unsupportedPacketType => 18
  | .unknown => -100

/-- The cases of `smto_error_string`. -/
def errorStringCases : List (SmtoErrorCode × String) :=
  [(.success, "success"),
    (.hugePageMemoryAllocation, "failed to allocate huge page memory"),
    (.memoryAllocation, "failed to allocate memory allocation"),
    (.noEnoughWorker, "no enough worker"),
    (.noAvailablePorts, "no available ports"),
    (.deviceConfigure, "device configure error"),
    (.queueSetup, "failed to setup queue"),
    (.deviceStart, "failed to start device"),
    (.hairpinSetup, "failed to setup hairpin queue"),
    (.hairpinBind, "failed to bind hairpin queue with pair port"),
    (.flowCreate, "failed to create flow"),
    (.flowQuery, "failed to query flow"),
    (.eventRegister, "failed to register event"),
    (.hashMapCreation, "failed to create hash map"),
    (.hashMapOperation, "failed to operate hash map"),
    (.workerLaunch, "failed to launch worker"),
    (.ringCreation, "failed to create ring"),
    (.ringOperation, "failed to operate ring"),
    (.unsupportedPacketType, "unsupported packet type"),
    (.unknown, "unknown error")]

/-- The text for everything else. -/
def defaultErrorString : String := "unsupported error code"

/-- `smto_error_string`. -/
def smtoErrorString (errCode : Int32) : String :=
  ((errorStringCases.find? fun c => c.1.value = errCode).map Prod.snd).getD defaultErrorString

/-- The `int` that `init_smto` returns. -/
def InitRet.value (errno : InitCall → Int32) : InitRet → Int32
  | .code c => c.value
  | .errno c => errno c

/-- No two codes have one text, and no code the default one. -/
theorem nodup_texts : (defaultErrorString :: errorStringCases.map Prod.snd).Nodup := by
  decide +kernel

/-- Every code has a case. -/
theorem exists_errorStringCase (code : SmtoErrorCode) :
    ∃ text, (code, text) ∈ errorStringCases := by
  cases code <;> simp [errorStringCases]

theorem smtoErrorString_of_case : ∀ c ∈ errorStringCases, smtoErrorString c.1.value = c.2 := by
  decide +kernel

/-- **A text tells the code**: what has the text of a case is the code of the case. -/
theorem smtoErrorString_eq_iff {c : SmtoErrorCode × String} (hc : c ∈ errorStringCases)
    {errCode : Int32} : smtoErrorString errCode = c.2 ↔ errCode = c.1.value := by
  obtain ⟨hdefault, htexts⟩ := List.nodup_cons.mp nodup_texts
  refine ⟨fun h => ?_, fun h => h ▸ smtoErrorString_of_case c hc⟩
  unfold smtoErrorString at h
  cases hfind : errorStringCases.find? fun c => c.1.value = errCode with
  | none =>
      rw [hfind, Option.map_none, Option.getD_none] at h
      exact absurd (h ▸ List.mem_map_of_mem hc) hdefault
  | some c' =>
      rw [hfind, Option.map_some, Option.getD_some] at h
      have heq := List.inj_on_of_nodup_map htexts (List.mem_of_find?_eq_some hfind) hc h
      have hvalue := List.find?_some hfind
      rw [← heq]
      exact (of_decide_eq_true hvalue).symm

/-- The default text is the one of what is no code. -/
theorem smtoErrorString_eq_default_iff {errCode : Int32} :
    smtoErrorString errCode = defaultErrorString ↔ ∀ code, errCode ≠ SmtoErrorCode.value code := by
  constructor
  · rintro h code rfl
    obtain ⟨text, hmem⟩ := exists_errorStringCase code
    rw [smtoErrorString_of_case _ hmem] at h
    exact (List.nodup_cons.mp nodup_texts).1 (h ▸ List.mem_map_of_mem hmem)
  · intro h
    unfold smtoErrorString
    have hnone : (errorStringCases.find? fun c => c.1.value = errCode) = none :=
      List.find?_eq_none.mpr fun c _ => by simpa using (h c.1).symm
    rw [hnone, Option.map_none, Option.getD_none]

theorem value_injective : Function.Injective SmtoErrorCode.value := by
  intro a b
  cases a <;> cases b <;> decide

/-- A negative value is no code but the unknown one. -/
theorem value_nonneg {code : SmtoErrorCode} (h : code ≠ .unknown) : ¬ code.value < 0 := by
  cases code with
  | unknown => exact absurd rfl h
  | _ => decide

/-! ### What the text says -/

/-- The calls whose errno is handed on. -/
def InitCall.handsOn : InitCall → Bool
  | .rteEthDevStart _ => true
  | .rteEthHairpinBind _ _ => true
  | _ => false

/-- The calls of `init_port`, and those of the cleanup. -/
def InitCall.unchecked : InitCall → Bool
  | .rteEthDevInfoGet _ => true
  | .rteEthDevConfigure _ => true
  | .rteEthRxQueueSetup _ _ => true
  | .rteEthTxQueueSetup _ _ => true
  | .rteEthPromiscuousEnable _ => true
  | .unregisterAgedEvent _ => true
  | .rteFlowFlush _ => true
  | _ => false

theorem unchecked_of_mem_launchCalls {lcores : List UInt16} :
    ∀ {index}, ∀ c ∈ launchCalls env lcores index, c.unchecked = false := by
  induction lcores with
  | nil => exact fun c hc => absurd hc List.not_mem_nil
  | cons lcoreId rest ih =>
      intro index c hc
      rcases List.mem_append.mp hc with hc | hc
      · obtain ⟨job, -, rfl⟩ := List.mem_map.mp hc
        rfl
      · exact ih c hc

/-- None of them is among the calls `init_smto` checks. -/
theorem unchecked_of_mem : ∀ c ∈ env.attemptedCalls, c.unchecked = false := by
  have hports : ∀ c ∈ checkedPortCalls env, c.unchecked = false := by
    unfold checkedPortCalls hairpinCalls
    cases env.mode <;> simp [InitCall.unchecked]
  have htables : ∀ c ∈ tableCalls env, c.unchecked = false := by
    simp only [tableCalls, ringCalls, List.forall_mem_cons, List.forall_mem_append,
      List.forall_mem_map]
    simp [InitCall.unchecked]
  have hchecked : ∀ c ∈ checkedCalls env, c.unchecked = false :=
    List.forall_mem_append.mpr ⟨hports, List.forall_mem_append.mpr ⟨htables,
      List.forall_mem_cons.mpr ⟨rfl, unchecked_of_mem_launchCalls⟩⟩⟩
  refine List.forall_mem_cons.mpr ⟨rfl, ?_⟩
  split
  · exact fun c hc => absurd hc List.not_mem_nil
  · exact List.forall_mem_cons.mpr ⟨rfl, hchecked⟩

/-- What `init_smto` returns where a call fails, if it returns. -/
theorem ret_of_outcome {c : InitCall} {ret : InitRet} (h : c.outcome env = .returned ret) :
    c ≠ .callocWorkerParams ∧ ret = c.ret := by
  unfold InitCall.outcome at h
  split at h
  next => cases h
  next hc =>
    refine ⟨hc, ?_⟩
    cases hstop : env.cleanupStop (c.afterLaunch env) c.label with
    | none =>
        rw [hstop] at h
        exact (InitOutcome.returned.inj h).symm
    | some outcome =>
        rw [hstop] at h
        exact absurd (hstop.trans (congrArg some h)) cleanupStop_ne_returned

/-- What is returned for a checked call. -/
theorem ret_cases {c : InitCall} (hc : c.unchecked = false) (hparams : c ≠ .callocWorkerParams) :
    c.handsOn = true ∧ c.ret = .errno c ∨
      c.handsOn = false ∧ ∃ code, c.ret = .code code ∧
        (code = .deviceStart ↔ ∃ portId, c = .assertLinkStatus portId) ∧
          code ∉ [.hairpinBind, .deviceConfigure, .queueSetup, .unknown] := by
  cases c with
  | callocWorkerParams => exact absurd rfl hparams
  | rteEthDevStart portId => exact Or.inl ⟨rfl, rfl⟩
  | rteEthHairpinBind txPort rxPort => exact Or.inl ⟨rfl, rfl⟩
  | rteEthDevInfoGet _ | rteEthDevConfigure _ | rteEthRxQueueSetup _ _ | rteEthTxQueueSetup _ _
  | rteEthPromiscuousEnable _ | unregisterAgedEvent _ | rteFlowFlush _ => cases hc
  | _ => exact Or.inr ⟨rfl, _, rfl, by simp, by simp⟩

/-- What `init_smto` returns, by the first call that fails. -/
theorem returned_cases {ret : InitRet} (h : (initSmto env).1 = .returned ret) :
    (∃ c, env.firstFailure = some c ∧ c.handsOn = true ∧ ret = .errno c) ∨
      (∀ c, env.firstFailure = some c → c.handsOn = false) ∧ ∃ code, ret = .code code ∧
        (code = .deviceStart ↔ ∃ portId, env.firstFailure = some (.assertLinkStatus portId)) ∧
          code ∉ [.hairpinBind, .deviceConfigure, .queueSetup, .unknown] := by
  rw [initSmto_outcome] at h
  cases hfirst : env.firstFailure with
  | none =>
      rw [hfirst] at h
      obtain rfl := InitOutcome.returned.inj h
      refine Or.inr ⟨fun c hc => (Option.some_ne_none c hc.symm).elim, _, rfl, ?_, ?_⟩ <;>
        unfold InitEnv.verdict <;> split <;> (try split) <;> simp
  | some c =>
      rw [hfirst] at h
      obtain ⟨hparams, rfl⟩ := ret_of_outcome h
      rcases ret_cases (unchecked_of_mem c (List.mem_of_find?_eq_some hfirst)) hparams with
        ⟨hon, hret⟩ | ⟨hoff, code, hret, hstart, hnever⟩
      · exact Or.inl ⟨c, rfl, hon, hret⟩
      · refine Or.inr ⟨fun c' hc' => Option.some.inj hc' ▸ hoff, code, hret, ?_, hnever⟩
        simpa only [Option.some.injEq] using hstart

/-- **What the logged text says.**  In every environment where `init_smto` returns: the text
is the default one exactly when the first call to fail is a port start or a hairpin binding,
with an errno other than the value of `SMTO_ERROR_UNKNOWN`, and "unknown error" exactly when
it is one with that errno.  It is "failed to start device" exactly when the link check fails
first.  The texts for a failed binding, a port that is not configured and a queue that is not
set up are never logged. -/
theorem errorMessage_iff (env : InitEnv) {errno : InitCall → Int32}
    (hneg : ∀ c, c.handsOn = true → errno c < 0) {ret : InitRet}
    (h : (initSmto env).1 = .returned ret) :
    (smtoErrorString (ret.value errno) = defaultErrorString ↔
        ∃ c, env.firstFailure = some c ∧ c.handsOn = true ∧
          errno c ≠ SmtoErrorCode.unknown.value) ∧
      (smtoErrorString (ret.value errno) = "unknown error" ↔
        ∃ c, env.firstFailure = some c ∧ c.handsOn = true ∧
          errno c = SmtoErrorCode.unknown.value) ∧
      (smtoErrorString (ret.value errno) = "failed to start device" ↔
        ∃ portId, env.firstFailure = some (.assertLinkStatus portId)) ∧
      ∀ c ∈ errorStringCases, c.1 ∈ [.hairpinBind, .deviceConfigure, .queueSetup] →
        smtoErrorString (ret.value errno) ≠ c.2 := by
  have hstart : (SmtoErrorCode.deviceStart, "failed to start device") ∈ errorStringCases := by
    simp [errorStringCases]
  have hunknown : (SmtoErrorCode.unknown, "unknown error") ∈ errorStringCases := by
    simp [errorStringCases]
  rw [smtoErrorString_eq_default_iff, smtoErrorString_eq_iff hunknown,
    smtoErrorString_eq_iff hstart]
  rcases returned_cases h with ⟨c, hfirst, hon, rfl⟩ | ⟨hoff, code, rfl, hiff, hnever⟩
  · -- a negative errno is the value of no code but the unknown one
    have hvalue : ∀ code, code ≠ .unknown → errno c ≠ SmtoErrorCode.value code :=
      fun code hcode heq => value_nonneg hcode (heq ▸ hneg c hon)
    refine ⟨⟨fun hall => ⟨c, hfirst, hon, hall .unknown⟩, ?_⟩,
      ⟨fun heq => ⟨c, hfirst, hon, heq⟩, ?_⟩, ⟨fun heq => ?_, ?_⟩, ?_⟩
    · rintro ⟨c', hfirst', -, hne⟩ code
      obtain rfl := Option.some.inj (hfirst.symm.trans hfirst')
      by_cases hcode : code = .unknown
      · rw [hcode]
        exact hne
      · exact hvalue code hcode
    · rintro ⟨c', hfirst', -, heq⟩
      obtain rfl := Option.some.inj (hfirst.symm.trans hfirst')
      exact heq
    · exact absurd heq (hvalue .deviceStart SmtoErrorCode.noConfusion)
    · rintro ⟨portId, hlink⟩
      obtain rfl := Option.some.inj (hfirst.symm.trans hlink)
      cases hon
    · intro d hd hmem heq
      rw [smtoErrorString_eq_iff hd] at heq
      refine hvalue d.1 (fun hunknown => ?_) heq
      rw [hunknown] at hmem
      exact absurd hmem (by decide)
  · have hvalue : ∀ code', (InitRet.code code).value errno = SmtoErrorCode.value code' ↔
        code = code' := fun code' => value_injective.eq_iff
    have hnone : ∀ {P : InitCall → Prop},
        ¬ ∃ c, env.firstFailure = some c ∧ c.handsOn = true ∧ P c := by
      rintro P ⟨c, hfirst, hon, -⟩
      rw [hoff c hfirst] at hon
      cases hon
    refine ⟨iff_of_false (fun hall => hall code rfl) hnone, iff_of_false (fun heq => ?_) hnone,
      (hvalue _).trans hiff, ?_⟩
    · rw [hvalue] at heq
      exact hnever (heq ▸ by decide)
    · intro d hd hmem heq
      rw [smtoErrorString_eq_iff hd, hvalue] at heq
      subst heq
      exact hnever (by simp only [List.mem_cons, List.not_mem_nil, or_false] at hmem ⊢; tauto)

/-- Two ports, the second of which does not start. -/
def secondPortDown : InitEnv := threeLcoresEnv 2 fun c => c ≠ .rteEthDevStart 1

/-- **A port that does not start** is logged as an unsupported error code. -/
theorem errorMessage_secondPortDown :
    smtoErrorString ((InitRet.errno (.rteEthDevStart 1)).value fun _ => -19) =
      defaultErrorString := by
  have hret : (initSmto secondPortDown).1 = .returned (.errno (.rteEthDevStart 1)) := by
    decide +kernel
  have hmessage := errorMessage_iff secondPortDown (fun _ _ => (by decide : (-19 : Int32) < 0)) hret
  exact hmessage.1.mpr ⟨.rteEthDevStart 1, by decide +kernel, rfl, by decide⟩

end SmartOffload
