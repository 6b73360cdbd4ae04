import SmartOffload.PortExclusivity

/-!
# What the system never takes back

Flow keys are never freed and table entries never deleted while workers run, so later
states extend earlier ones (`Extends`, `extends_of_run`): calls are numbered on, tuples
stay in the table, and the tuple, the translation and the partner of a key stay as they
were built.  The one thing that changes hands is a table entry, and it goes to the
in-direction key of a later call.

The pool is never given anything back either.  Call `n` takes the number
`numberOfCall n`, whether its insertions succeed or not, so who shares a port with whom is a
matter of the numbers of the calls (`natPort_eq_iff`), and so is whose reply entry a new flow
takes over (`takesOver_iff`).
-/

namespace SmartOffload

/-! ### Later states -/

/-- **A later state**: what it has kept of an earlier one. -/
structure Extends (w w' : World) : Prop where
  serial : w.serial ≤ w'.serial
  /-- An entry stays, or a later call has put its in-direction key there. -/
  stored : ∀ t k, w.flowHashMap.lookup t = some k → w'.flowHashMap.lookup t = some k ∨
    ∃ n, w.serial ≤ n ∧ w'.flowHashMap.lookup t = some (.back n)
  tuple : ∀ k : KeyPtr, k.serial < w.serial → (w'.keys k).tuple = (w.keys k).tuple
  modifyTuple : ∀ k : KeyPtr, k.serial < w.serial →
    (w'.keys k).modifyTuple = (w.keys k).modifyTuple
  link : ∀ k : KeyPtr, k.serial < w.serial →
    (w'.keys k).symmetricalFlowKey = (w.keys k).symmetricalFlowKey

namespace Extends

variable {w w' w'' : World}

theorem refl (w : World) : Extends w w :=
  ⟨le_rfl, fun _ _ hk => Or.inl hk, fun _ _ => rfl, fun _ _ => rfl, fun _ _ => rfl⟩

theorem trans (h : Extends w w') (h' : Extends w' w'') : Extends w w'' where
  serial := h.serial.trans h'.serial
  stored t k hk := by
    rcases h.stored t k hk with hk' | ⟨n, hn, hk'⟩
    · rcases h'.stored t k hk' with hk'' | ⟨n, hn, hk''⟩
      · exact Or.inl hk''
      · exact Or.inr ⟨n, h.serial.trans hn, hk''⟩
    · rcases h'.stored t _ hk' with hk'' | ⟨n', hn', hk''⟩
      · exact Or.inr ⟨n, hn, hk''⟩
      · exact Or.inr ⟨n', h.serial.trans hn', hk''⟩
  tuple k hk := (h'.tuple k (hk.trans_le h.serial)).trans (h.tuple k hk)
  modifyTuple k hk := (h'.modifyTuple k (hk.trans_le h.serial)).trans (h.modifyTuple k hk)
  link k hk := (h'.link k (hk.trans_le h.serial)).trans (h.link k hk)

end Extends

/-- The pairs of earlier calls are the same in both states. -/
theorem Extends.pairAt_iff {w w' : World} (h : Extends w w') {n : ℕ} (hn : n < w.serial)
    {p : UInt8} {b : NatBinding} : PairAt w' n p b ↔ PairAt w n p b := by
  have hout : (KeyPtr.out n).serial < w.serial := hn
  have hback : (KeyPtr.back n).serial < w.serial := hn
  constructor
  · rintro ⟨htuple, hmodify, htuple', hmodify', hlink, hlink', haddr⟩
    exact ⟨(h.tuple _ hout).symm.trans htuple, (h.modifyTuple _ hout).symm.trans hmodify,
      (h.tuple _ hback).symm.trans htuple', (h.modifyTuple _ hback).symm.trans hmodify',
      (h.link _ hout).symm.trans hlink, (h.link _ hback).symm.trans hlink', haddr⟩
  · rintro ⟨htuple, hmodify, htuple', hmodify', hlink, hlink', haddr⟩
    exact ⟨(h.tuple _ hout).trans htuple, (h.modifyTuple _ hout).trans hmodify,
      (h.tuple _ hback).trans htuple', (h.modifyTuple _ hback).trans hmodify',
      (h.link _ hout).trans hlink, (h.link _ hback).trans hlink', haddr⟩

/-- Events that keep flows keep all of it. -/
theorem KeepsFlows.toExtends {w w' : World} (h : KeepsFlows w w') : Extends w w' where
  serial := h.serial.ge
  stored t k hk := Or.inl (by rwa [h.flowHashMap])
  tuple k _ := h.tuple k
  modifyTuple k _ := h.modifyTuple k
  link k _ := h.link k

/-- **Opening a flow extends.**  Its own tuple is new; the reply tuple need not be. -/
theorem extends_createFlow {w : World} {m : RteMbuf} {env : PacketEnv} {r : PacketResult}
    (hopen : OpensFlow w m) (h : createFlow w m (getIpv4_5tuple m ipv4Mask) env = some r) :
    Extends w r.world where
  serial := by
    obtain ⟨hserial, -⟩ := frame_of_createFlow h
    rw [hserial]
    exact Nat.le_succ _
  stored t k hk := by
    rw [table_of_createFlow h, lookup_rteHashAddKeyData]
    split
    · exact Or.inr ⟨w.serial, le_rfl, rfl⟩
    · have hne : t ≠ getIpv4_5tuple m ipv4Mask := by
        rintro rfl
        rw [hopen.lookup] at hk
        cases hk
      rw [lookup_rteHashAddKeyData, if_neg fun hnew => hne hnew.2]
      exact Or.inl hk
  tuple k hk := by rw [keys_of_createFlow h hk.ne]
  modifyTuple k hk := by rw [keys_of_createFlow h hk.ne]
  link k hk := by rw [keys_of_createFlow h hk.ne]

/-- The step lemma. -/
theorem extends_of_stepped {w w' : World} {e : OffloadEvent} {os : List Obs}
    (h : Stepped w e w' os) : Extends w w' := by
  rcases h.opens_or_keepsFlows with ⟨portId, m, env, r, -, hopen, hr, rfl⟩ | hkeep
  · exact extends_createFlow hopen hr
  · exact hkeep.toExtends

/-- **Nothing is taken back.**  Over any run, the last state extends every state visited. -/
theorem extends_of_run {w₀ w t : World} {es : List OffloadEvent} {tr : List Obs}
    (hrun : offloadMachine.Run w₀ es tr w) (hvis : offloadMachine.Visits w₀ es t) :
    Extends t w :=
  hrun.rel_of_visits Extends.refl (fun h h' => h.trans h')
    (fun _ hstep => extends_of_stepped (stepped_of_step hstep)) hvis

/-- A flow offloaded twice is still the flow that was opened. -/
theorem extends_of_run_reoffloadEvents :
    Extends oneFlowWorld
      ((offloadMachine.exec initialSingle reoffloadEvents).get reoffloadRun_isSome).1 := by
  have hrun := Machine.run_exec_get reoffloadRun_isSome
  refine extends_of_run hrun ?_
  exact ⟨[.udp client server], oneFlowTrace, ⟨reoffloadEvents.tail, rfl⟩, run_oneFlowWorld⟩

/-! ### Numbers of the pool -/

/-- The number the pool gives call `n`; once it is empty, every call gets 0. -/
def numberOfCall (n : ℕ) : ℕ := if n + 1 < maxHashEntries then n + 1 else 0

/-- Sixteen bits of a number are its port. -/
theorem portOfNumber_eq_iff {v v' : ℕ} :
    portOfNumber v = portOfNumber v' ↔ v % UInt16.size = v' % UInt16.size := by
  constructor
  · intro h
    have hnat := congrArg UInt16.toNat (bswap16_injective h)
    rwa [UInt16.toNat_ofNat', UInt16.toNat_ofNat'] at hnat
  · intro h
    have hnat : UInt16.ofNat v = UInt16.ofNat v' := by
      apply UInt16.toNat_inj.mp
      rw [UInt16.toNat_ofNat', UInt16.toNat_ofNat']
      exact h
    exact congrArg rteCpuToBe16 hnat

/-- **The pool so far**: what the calls made have left of it, and the public endpoints they
were given. -/
structure PortsGiven (w : World) : Prop where
  items : w.portPool.items = List.range' (w.serial + 1) (maxHashEntries - 1 - w.serial)
  given : ∀ n p b, n < w.serial → PairAt w n p b →
    b.publicEnd.2 = portOfNumber (numberOfCall n)

/-- The head of the pool is the number of the next call. -/
theorem PortsGiven.next {w : World} (h : PortsGiven w) :
    (dequeuePortObject w.portPool).1 = numberOfCall w.serial := by
  unfold numberOfCall
  have hitems := h.items
  split
  next hlt =>
    apply dequeuePortObject_of_head
    obtain ⟨c, hc⟩ : ∃ c, maxHashEntries - 1 - w.serial = c + 1 :=
      ⟨maxHashEntries - 1 - w.serial - 1, by omega⟩
    rw [hitems, hc, List.range'_succ, List.head?_cons]
  next hge =>
    apply dequeuePortObject_of_nil
    have hc : maxHashEntries - 1 - w.serial = 0 := by omega
    rw [hitems, hc, List.range'_zero]

/-- The binding of a pair can be read off its keys. -/
theorem PairAt.binding_unique {w : World} {n : ℕ} {p p' : UInt8} {b b' : NatBinding}
    (h : PairAt w n p b) (h' : PairAt w n p' b') : p = p' ∧ b = b' := by
  obtain ⟨hp, hinside⟩ := RdarmFiveTuple.ofAddressing_inj.mp (h.outTuple.symm.trans h'.outTuple)
  obtain ⟨-, hout⟩ := RdarmFiveTuple.ofAddressing_inj.mp (h.outModify.symm.trans h'.outModify)
  have hpublic : b.publicEnd = b'.publicEnd := congrArg Addressing.src hout
  cases b
  cases b'
  exact ⟨hp, by rw [Binding.mk.injEq]; exact ⟨hinside, hpublic⟩⟩

theorem portsGiven_of_init {w : World} (h : offloadMachine.Init w) : PortsGiven w := by
  obtain ⟨mode, port0, port1, readSpec, -, rfl⟩ := init_iff.mp h
  exact ⟨rfl, fun n _ _ hn _ => absurd hn (Nat.not_lt_zero n)⟩

/-- Opening a flow takes the next number. -/
theorem portsGiven_createFlow {w : World} {m : RteMbuf} {env : PacketEnv} {r : PacketResult}
    (hgiven : PortsGiven w) (hopen : OpensFlow w m)
    (h : createFlow w m (getIpv4_5tuple m ipv4Mask) env = some r) : PortsGiven r.world := by
  obtain ⟨hserial, -, -, hpool⟩ := frame_of_createFlow h
  constructor
  · rw [hpool, dequeuePortObject_items, hgiven.items, hserial]
    cases hc : maxHashEntries - 1 - w.serial with
    | zero =>
        have hc' : maxHashEntries - 1 - (w.serial + 1) = 0 := by omega
        rw [hc', List.range'_zero, List.range'_zero, List.tail_nil]
    | succ c =>
        have hc' : maxHashEntries - 1 - (w.serial + 1) = c := by omega
        rw [hc', List.range'_succ, List.tail_cons]
  · intro n p b hn hpair
    rw [hserial] at hn
    rcases Nat.lt_succ_iff_lt_or_eq.mp hn with hn | rfl
    · exact hgiven.given n p b hn
        (((extends_createFlow hopen h).pairAt_iff hn).mp hpair)
    · cases hadd : env.addOut with
      | true =>
          obtain ⟨-, rfl⟩ := hpair.binding_unique (pairAt_createFlow h hadd)
          rw [hgiven.next]
          rfl
      | false =>
          -- without the first insertion there is no link, so no pair
          rcases (createFlow_cases h).2 with ⟨-, rfl⟩ | ⟨hadd', -, -⟩
          · have hlink := hpair.outLink
            simp only [addFlow, Function.update_self] at hlink
            cases hlink
          · rw [hadd] at hadd'
            cases hadd'

/-- The step lemma. -/
theorem portsGiven_step {w w' : World} {e : OffloadEvent} {os : List Obs}
    (hgiven : PortsGiven w) (h : Stepped w e w' os) : PortsGiven w' := by
  rcases h.opens_or_keepsFlows with ⟨portId, m, env, r, -, hopen, hr, rfl⟩ | hkeep
  · exact portsGiven_createFlow hgiven hopen hr
  · constructor
    · rw [hkeep.portPool, hkeep.serial]
      exact hgiven.items
    · intro n p b hn hpair
      rw [hkeep.serial] at hn
      exact hgiven.given n p b hn ((hkeep.toExtends.pairAt_iff hn).mp hpair)

theorem portsGiven_of_reachable {w : World} (h : offloadMachine.Reachable w) : PortsGiven w :=
  h.state_invariant (fun _ hinit => portsGiven_of_init hinit)
    fun hgiven hstep => portsGiven_step hgiven (stepped_of_step hstep)

/-- The port of a forward flow is that of the number of its call. -/
theorem natPort_of_forward {w : World} (hw : offloadMachine.Reachable w) {k : KeyPtr}
    (hk : Forward w k) : natPort w k = portOfNumber (numberOfCall k.serial) := by
  obtain ⟨hdir, t, ht⟩ := hk
  obtain ⟨hlt, -, p, b, hpair⟩ := (flowInv_of_reachable hw).stored t k ht
  have hpublic := (portsGiven_of_reachable hw).given k.serial p b hlt hpair
  have hout : k = .out k.serial := by
    rcases k with ⟨n, _ | _⟩
    · rfl
    · cases hdir
  have hmodify := congrArg RdarmFiveTuple.addressing hpair.outModify
  rw [← hout] at hmodify
  have hport : natPort w k = b.publicEnd.2 := congrArg (fun a => a.src.2) hmodify
  rw [hport, hpublic]

/-- **Who shares a port.**  In every reachable state, two forward flows write the same
source port exactly when the numbers of their calls agree modulo 2^16, whatever became of
the calls between them. -/
theorem natPort_eq_iff {w : World} (hw : offloadMachine.Reachable w) {k k' : KeyPtr}
    (hk : Forward w k) (hk' : Forward w k') :
    natPort w k = natPort w k' ↔
      numberOfCall k.serial % UInt16.size = numberOfCall k'.serial % UInt16.size := by
  rw [natPort_of_forward hw hk, natPort_of_forward hw hk', portOfNumber_eq_iff]

/-- Two flows get different ports. -/
theorem natPort_ne_twoFlows :
    ∃ w, offloadMachine.Reachable w ∧ natPort w (.out 0) ≠ natPort w (.out 1) := by
  have hreach := Machine.reachable_exec_get init_initialSingle twoFlows_isSome
  refine ⟨_, hreach, fun heq => ?_⟩
  obtain ⟨hfirst, hsecond⟩ := lookup_twoFlows
  exact absurd ((natPort_eq_iff hreach ⟨rfl, _, hfirst⟩ ⟨rfl, _, hsecond⟩).mp heq) (by decide)

/-! ### Taking over a reply entry -/

/-- The tuples replies to two flows carry are the same exactly if the flows have the same
protocol and destination, and share their port. -/
theorem replyTuple_eq_iff {w : World} (hgiven : PortsGiven w) {m : RteMbuf} {n : ℕ} {p : UInt8}
    {b : NatBinding} (hn : n < w.serial) (hpair : PairAt w n p b) :
    replyTuple w m = (w.keys (.back n)).tuple ↔
      m.proto = p ∧ m.addressing.dst = b.inside.dst ∧
        numberOfCall w.serial % UInt16.size = numberOfCall n % UInt16.size := by
  have hpublic : b.publicEnd = (rteCpuToBe32 srcIp, portOfNumber (numberOfCall n)) :=
    Prod.ext hpair.publicAddr (hgiven.given n p b hn hpair)
  rw [hpair.backTuple, replyTuple, hgiven.next, RdarmFiveTuple.ofAddressing_inj,
    Addressing.ext_iff, ← portOfNumber_eq_iff]
  refine and_congr_right fun _ => and_congr_right fun _ => ?_
  show (rteCpuToBe32 srcIp, portOfNumber (numberOfCall w.serial)) = b.publicEnd ↔ _
  rw [hpublic, Prod.mk.injEq]
  exact and_iff_right rfl

/-- **When a new flow takes the replies of another.**  In every reachable state a frame opens
a flow; the reply entry of an earlier flow then is the new flow's exactly when both have the
same protocol and destination and the numbers of the two calls agree modulo 2^16. -/
theorem takesOver_iff {w : World} (hw : offloadMachine.Reachable w) {m : RteMbuf}
    {env : PacketEnv} {r : PacketResult} (hopen : OpensFlow w m)
    (hr : packetProcessing w m env = some r) (hret : r.ret = .success) {n : ℕ}
    (hn : Forward w (.out n)) :
    r.world.flowHashMap.lookup (w.keys (.back n)).tuple = some (.back w.serial) ↔
      m.proto = (w.keys (.out n)).tuple.proto ∧
        m.addressing.dst = (w.keys (.out n)).tuple.addressing.dst ∧
          numberOfCall w.serial % UInt16.size = numberOfCall n % UInt16.size := by
  have hinv := flowInv_of_reachable hw
  obtain ⟨-, t, ht⟩ := hn
  obtain ⟨(hlt : n < w.serial), -, p, b, (hpair : PairAt w n p b)⟩ := hinv.stored t _ ht
  rw [packetProcessing_of_opensFlow hopen] at hr
  have hadds : env.addOut = true ∧ env.addBack = true := by
    rcases (createFlow_cases hr).2 with ⟨-, rfl⟩ | ⟨hadd, -, rfl⟩
    · cases hret
    · refine ⟨hadd, ?_⟩
      by_contra hno
      simp [hno] at hret
  have hiff := replyTuple_eq_iff (portsGiven_of_reachable hw) (m := m) hlt hpair
  rw [hpair.outTuple]
  refine Iff.trans ?_ hiff
  rw [table_of_createFlow hr, lookup_rteHashAddKeyData, lookup_rteHashAddKeyData, hadds.1,
    hadds.2, Bool.and_true]
  constructor
  · intro hk
    split at hk
    next hsame => exact hsame.2.symm
    · split at hk
      · exact absurd (Option.some.inj hk) (KeyPtr.out_ne_back _ _)
      · exact absurd (hinv.stored _ _ hk).1 (Nat.lt_irrefl _)
  · intro hsame
    rw [if_pos ⟨rfl, hsame.symm⟩]

/-- A second flow to the same server leaves the replies of the first alone. -/
theorem not_takesOver_second :
    ∃ r, packetProcessing oneFlowWorld (udpFrame 100 ⟨otherClient, server⟩) .allSucceed =
        some r ∧
      r.world.flowHashMap.lookup (oneFlowWorld.keys (.back 0)).tuple ≠ some (.back 1) := by
  have hopen : OpensFlow oneFlowWorld (udpFrame 100 ⟨otherClient, server⟩) := by
    decide +kernel
  obtain ⟨r, hr, hret⟩ : ∃ r, packetProcessing oneFlowWorld
      (udpFrame 100 ⟨otherClient, server⟩) .allSucceed = some r ∧ r.ret = .success := by
    rw [packetProcessing_of_opensFlow hopen]
    simp [createFlow, PacketEnv.allSucceed]
  refine ⟨r, hr, fun htaken => ?_⟩
  have hserial : oneFlowWorld.serial = 1 := by decide +kernel
  have hiff := takesOver_iff reachable_oneFlowWorld hopen hr hret
    (n := 0) ⟨rfl, .ofAddressing ipprotoUdp ⟨client, server⟩, by decide +kernel⟩
  rw [hserial] at hiff
  exact absurd (hiff.mp htaken).2.2 (by decide)

end SmartOffload
