import SmartOffload.Pairing

/-!
# Opening a flow

What the new-flow branch of `packet_processing` leaves behind, in the table and
out of it.

Two operations the branch relies on are not checked: the second insertion is made
without looking whether the reply tuple is taken, and the exits after a failure
undo nothing.

* `createsWhole_iff` — a call leaves everything or nothing exactly when nothing
  fails and the two tuples of the flow differ.  Every failure, of any of the four
  operations, leaves something in between.
* `noHijack_iff` — no insertion of a run replaces an entry exactly when every
  flow is opened while its reply tuple is free.
-/

namespace SmartOffload

/-! ### All or nothing -/

/-- Both entries of a flow are in the table: the frame's tuple leads to a key whose
partner, a different key, is stored under its own tuple. -/
def BothStored (w : World) (m : RteMbuf) : Prop :=
  ∃ k partner, w.flowHashMap.lookup (getIpv4_5tuple m ipv4Mask) = some k ∧
    (w.keys k).symmetricalFlowKey = some partner ∧ partner ≠ k ∧
    w.flowHashMap.lookup (w.keys partner).tuple = some partner

/-- **All or nothing**, of one call: success with both entries stored, or an error
with the table and the pool untouched and no new allocation outside the table.
A call that dereferences NULL is neither. -/
def CreatesWhole (w : World) (m : RteMbuf) : Option PacketResult → Prop
  | none => False
  | some r =>
      r.ret = .success ∧ BothStored r.world m ∨
        r.ret ≠ .success ∧ r.world.flowHashMap = w.flowHashMap ∧
          r.world.portPool = w.portPool ∧
          ∀ k ∈ r.world.allocated, k ∉ w.allocated →
            ∃ t, r.world.flowHashMap.lookup t = some k

/-- A call that leaves the table as it was has allocated a key outside of it. -/
theorem leaked_of_createFlow {w : World} {m : RteMbuf} {env : PacketEnv} {r : PacketResult}
    (hinv : FlowInv w) (h : createFlow w m (getIpv4_5tuple m ipv4Mask) env = some r)
    (htable : r.world.flowHashMap = w.flowHashMap) :
    ∃ k ∈ r.world.allocated, k ∉ w.allocated ∧ ∀ t, r.world.flowHashMap.lookup t ≠ some k := by
  refine ⟨.out w.serial, ?_, ?_, ?_⟩
  · rw [allocated_of_createFlow h]
    simp
  · intro hk
    exact (hinv.allocated _ hk).ne rfl
  · intro t hk
    rw [htable] at hk
    exact (hinv.stored t _ hk).1.ne rfl

/-- After both insertions the two entries are stored exactly when the second one
was not made under the tuple of the first. -/
theorem bothStored_createFlow_iff {w : World} {m : RteMbuf} {env : PacketEnv}
    {r : PacketResult} (h : createFlow w m (getIpv4_5tuple m ipv4Mask) env = some r)
    (hadd : env.addOut = true) (hadd' : env.addBack = true) :
    BothStored r.world m ↔ replyTuple w m ≠ getIpv4_5tuple m ipv4Mask := by
  have hpair := pairAt_createFlow h hadd
  have hlookup : ∀ t, r.world.flowHashMap.lookup t =
      if t = replyTuple w m then some (.back w.serial)
      else if t = getIpv4_5tuple m ipv4Mask then some (.out w.serial)
      else w.flowHashMap.lookup t := by
    intro t
    rw [table_of_createFlow h, lookup_rteHashAddKeyData, lookup_rteHashAddKeyData]
    simp [hadd, hadd']
  have hown : (r.world.keys (.out w.serial)).tuple = getIpv4_5tuple m ipv4Mask := by
    rw [getIpv4_5tuple_eq]
    exact hpair.outTuple
  have hreply : (r.world.keys (.back w.serial)).tuple = replyTuple w m := hpair.backTuple
  constructor
  · rintro ⟨k, partner, hk, hlink, hne, hpartner⟩ heq
    -- the frame's tuple now leads to the in-direction key, whose partner it replaced
    rw [hlookup, if_pos heq.symm] at hk
    obtain rfl := Option.some.inj hk
    rw [hpair.backLink] at hlink
    obtain rfl := Option.some.inj hlink
    rw [hown, hlookup, if_pos heq.symm] at hpartner
    exact hne (Option.some.inj hpartner).symm
  · intro hne
    refine ⟨.out w.serial, .back w.serial, ?_, hpair.outLink,
      (KeyPtr.out_ne_back _ _).symm, ?_⟩
    · rw [hlookup, if_neg hne.symm, if_pos rfl]
    · rw [hreply, hlookup, if_pos rfl]

/-- **When flow creation is all or nothing.**  In a reachable state, for a frame of
a new flow: exactly when both allocations and both insertions succeed and the
reply tuple is not the frame's own. -/
theorem createsWhole_iff {w : World} (hw : offloadMachine.Reachable w) {m : RteMbuf}
    (hopen : OpensFlow w m) (env : PacketEnv) :
    CreatesWhole w m (packetProcessing w m env) ↔
      env.allocOut = true ∧ env.allocBack = true ∧ env.addOut = true ∧ env.addBack = true ∧
        replyTuple w m ≠ getIpv4_5tuple m ipv4Mask := by
  have hinv := flowInv_of_reachable hw
  rw [packetProcessing_of_opensFlow hopen]
  cases hr : createFlow w m (getIpv4_5tuple m ipv4Mask) env with
  | none =>
      constructor
      · exact False.elim
      · rintro ⟨hout, hback, hadd, hadd', -⟩
        simp [createFlow, hout, hback, hadd, hadd'] at hr
  | some r =>
      obtain ⟨hout, hcase⟩ := createFlow_cases hr
      constructor
      · rintro (⟨hret, hboth⟩ | ⟨hret, htable, -, halloc⟩)
        · rcases hcase with ⟨-, rfl⟩ | ⟨hadd, hback, heq⟩
          · cases hret
          · have hadd' : env.addBack = true := by
              by_contra hno
              rw [heq] at hret
              simp [hno] at hret
            exact ⟨hout, hback, hadd, hadd', (bothStored_createFlow_iff hr hadd hadd').mp hboth⟩
        · -- no error leaves the table alone without losing an allocation
          obtain ⟨k, hk, hnew, hlost⟩ := leaked_of_createFlow hinv hr htable
          obtain ⟨t, ht⟩ := halloc k hk hnew
          exact absurd ht (hlost t)
      · rintro ⟨-, hback, hadd, hadd', hne⟩
        refine Or.inl ⟨?_, (bothStored_createFlow_iff hr hadd hadd').mpr hne⟩
        rcases hcase with ⟨hno, -⟩ | ⟨-, -, rfl⟩
        · rw [hadd] at hno
          cases hno
        · simp [hadd']

/-- The first flow of a system is created whole when nothing fails. -/
theorem createsWhole_oneFlow :
    CreatesWhole initialSingle (udpFrame 100 ⟨client, server⟩)
      (packetProcessing initialSingle (udpFrame 100 ⟨client, server⟩) .allSucceed) := by
  have hreach : offloadMachine.Reachable initialSingle :=
    ⟨_, [], [], init_initialSingle, .nil _⟩
  have hopen : OpensFlow initialSingle (udpFrame 100 ⟨client, server⟩) := by decide +kernel
  exact (createsWhole_iff hreach hopen .allSucceed).mpr
    ⟨rfl, rfl, rfl, rfl, by decide +kernel⟩

/-- **The first insertion fails**: an error is returned, a port is gone from the pool
and both allocations are lost. -/
theorem not_createsWhole_firstFails :
    offloadMachine.Reachable initialSingle ∧
      OpensFlow initialSingle (udpFrame 100 ⟨client, server⟩) ∧
      ¬ CreatesWhole initialSingle (udpFrame 100 ⟨client, server⟩)
        (packetProcessing initialSingle (udpFrame 100 ⟨client, server⟩)
          { PacketEnv.allSucceed with addOut := false }) := by
  refine ⟨⟨_, [], [], init_initialSingle, .nil _⟩, by decide +kernel, ?_⟩
  have hrun : (packetProcessing initialSingle (udpFrame 100 ⟨client, server⟩)
      { PacketEnv.allSucceed with addOut := false }).map
        (fun r => (r.ret, r.world.portPool.items.head?)) =
      some (.hashMapOperation, some 2) := by decide +kernel
  intro h
  generalize packetProcessing initialSingle (udpFrame 100 ⟨client, server⟩)
    { PacketEnv.allSucceed with addOut := false } = result at h hrun
  cases result with
  | none => exact h
  | some r =>
      obtain ⟨hret, hhead⟩ := Prod.mk.inj (Option.some.inj hrun)
      rcases h with ⟨hsuccess, -⟩ | ⟨-, -, hpool, -⟩
      · rw [hret] at hsuccess
        cases hsuccess
      · rw [hpool] at hhead
        cases hhead

/-! ### No entry is replaced -/

/-- An insertion made under a key the table does not hold yet. -/
def Obs.FreshAdd : Obs → Prop
  | .hashAdd call => call.key ∉ call.table
  | _ => True

instance : DecidablePred Obs.FreshAdd
  | .hashAdd call => inferInstanceAs (Decidable (call.key ∉ call.table))
  | .frame _ _ => inferInstanceAs (Decidable True)
  | .nicCall _ => inferInstanceAs (Decidable True)

/-- **No flow hijacks another's entry**, over a run: every insertion is for a key
not in the table, entries stay what they are, and replies stored for a call are
rewritten to the host that opened its flow. -/
structure NoHijack (w₀ : World) (es : List OffloadEvent) (tr : List Obs) (w : World) :
    Prop where
  fresh : ∀ o ∈ tr, o.FreshAdd
  kept : ∀ w₁, offloadMachine.Visits w₀ es w₁ → ∀ t k,
    w₁.flowHashMap.lookup t = some k → w.flowHashMap.lookup t = some k
  replies : ∀ w₁, offloadMachine.Visits w₀ es w₁ → ∀ n m env r,
    w₁.flowHashMap.lookup (getIpv4_5tuple m ipv4Mask) = some (.back n) →
    supportedPacketType m.packetType = true → packetProcessing w m env = some r →
      r.ret = .success ∧ r.mbuf.addressing.dst = (w.keys (.out n)).tuple.addressing.src

/-- The guard: a flow whose key is inserted finds its reply tuple free. -/
def ReplyFree (w : World) : OffloadEvent → Prop
  | .packet _ m env => OpensFlow w m → env.addOut = true →
      replyTuple w m ∉ w.flowHashMap ∧ replyTuple w m ≠ getIpv4_5tuple m ipv4Mask
  | _ => True

/-- A call inserts under fresh keys exactly when it meets the guard. -/
theorem freshAdd_createFlow_iff {w : World} {m : RteMbuf} {env : PacketEnv}
    {r : PacketResult} (hopen : OpensFlow w m)
    (h : createFlow w m (getIpv4_5tuple m ipv4Mask) env = some r) :
    (∀ call ∈ r.adds, call.key ∉ call.table) ↔
      (env.addOut = true →
        replyTuple w m ∉ w.flowHashMap ∧ replyTuple w m ≠ getIpv4_5tuple m ipv4Mask) := by
  rcases (createFlow_cases h).2 with ⟨hadd, rfl⟩ | ⟨hadd, -, rfl⟩
  · simp [hadd, hopen.2]
  · rw [newSymmetricalFlowKey_tuple]
    simp [hadd, hopen.2, AList.mem_insert, and_comm]

/-- Replies to a call are rewritten to its opener, while its entry is stored. -/
theorem reply_to_opener {w : World} (hinv : FlowInv w) {n : ℕ} {m : RteMbuf}
    {env : PacketEnv} {r : PacketResult}
    (hk : w.flowHashMap.lookup (getIpv4_5tuple m ipv4Mask) = some (.back n))
    (hs : supportedPacketType m.packetType = true) (hr : packetProcessing w m env = some r) :
    r.ret = .success ∧ r.mbuf.addressing.dst = (w.keys (.out n)).tuple.addressing.src := by
  rw [packetProcessing_known hs hk] at hr
  obtain rfl := Option.some.inj hr
  obtain ⟨-, -, p, b, hpair⟩ := hinv.stored _ _ hk
  have hmodify : ((requestOffload (countPacket w (.back n) m.pktLen) (.back n)).keys
      (.back n)).modifyTuple = (w.keys (.back n)).modifyTuple :=
    ((keepsFlows_countPacket w _ m.pktLen).trans (keepsFlows_requestOffload _ _)).modifyTuple _
  refine ⟨rfl, ?_⟩
  have hback : (w.keys (.back n)).modifyTuple = .ofAddressing p b.inLeg.out := hpair.backModify
  have hout : (w.keys (.out n)).tuple = .ofAddressing p b.outLeg.key := hpair.outTuple
  show (modifyPacket m _).addressing.dst = _
  rw [modifyPacket_addressing, hmodify, hback, hout]
  rfl

/-- A guarded step replaces no entry. -/
theorem lookup_of_replyFree {w w' : World} {e : OffloadEvent} {os : List Obs}
    (hfree : ReplyFree w e) (h : Stepped w e w' os) {t : RdarmFiveTuple} {k : KeyPtr}
    (hk : w.flowHashMap.lookup t = some k) : w'.flowHashMap.lookup t = some k := by
  rcases h.opens_or_keepsFlows with ⟨portId, m, env, r, rfl, hopen, hr, rfl⟩ | hkeep
  · have hmem : t ∈ w.flowHashMap := AList.lookup_isSome.mp (by rw [hk]; rfl)
    -- neither insertion is made under the tuple of a stored entry
    have hown : t ≠ getIpv4_5tuple m ipv4Mask := by
      rintro rfl
      exact hopen.2 hmem
    rw [table_of_createFlow hr, lookup_rteHashAddKeyData, if_neg, lookup_rteHashAddKeyData,
      if_neg, hk]
    · exact fun hno => hown hno.2
    · rintro ⟨hadd, rfl⟩
      exact (hfree hopen (Bool.and_eq_true_iff.mp hadd).1).1 hmem
  · rw [hkeep.flowHashMap, hk]

/-- A step inserts under fresh keys exactly when it meets the guard. -/
theorem freshAdd_step_iff {w w' : World} {e : OffloadEvent} {os : List Obs}
    (h : Stepped w e w' os) : (∀ o ∈ os, o.FreshAdd) ↔ ReplyFree w e := by
  cases h with
  | ignored hno =>
      refine ⟨fun _ hopen => ?_, by simp⟩
      exact absurd hopen.1 (by simp [hno])
  | opened hopen hr =>
      have hiff := freshAdd_createFlow_iff hopen hr
      constructor
      · intro hall _
        refine hiff.mp fun call hcall => ?_
        exact hall (.hashAdd call) (List.mem_cons_of_mem _ (List.mem_map_of_mem hcall))
      · intro hfree o ho
        rcases List.mem_cons.mp ho with rfl | ho
        · trivial
        · obtain ⟨call, hcall, rfl⟩ := List.mem_map.mp ho
          exact hiff.mpr (hfree hopen) call hcall
  | known hk =>
      constructor
      · exact fun _ hopen => absurd hopen (not_opensFlow_of_lookup hk)
      · intro _ o ho
        rw [List.mem_singleton.mp ho]
        trivial
  | dequeued _ => simp [ReplyFree]
  | engine _ _ => simp [ReplyFree]
  | aged _ =>
      refine ⟨fun _ => trivial, fun _ o ho => ?_⟩
      obtain ⟨call, -, rfl⟩ := List.mem_map.mp ho
      trivial
  | traffic _ _ _ => simp [ReplyFree]
  | timeout _ => simp [ReplyFree]

/-- **When no flow hijacks another's entry.**  Over any run: exactly when every flow
that is inserted finds its reply tuple free, in the table and of its own key. -/
theorem noHijack_iff {w₀ w : World} {es : List OffloadEvent} {tr : List Obs}
    (hinit : offloadMachine.Init w₀) (hrun : offloadMachine.Run w₀ es tr w) :
    NoHijack w₀ es tr w ↔ offloadMachine.RunWhile ReplyFree w₀ es tr w := by
  have hiff : (∀ o ∈ tr, o.FreshAdd) ↔ offloadMachine.RunWhile ReplyFree w₀ es tr w :=
    Machine.RunWhile.forall_obs_iff (J := fun _ => True) hrun trivial (fun _ _ _ => trivial)
      fun _ _ hstep => freshAdd_step_iff (stepped_of_step hstep)
  refine ⟨fun h => hiff.mp h.fresh, fun hguard => ?_⟩
  have hkept : ∀ w₁, offloadMachine.Visits w₀ es w₁ → ∀ t k,
      w₁.flowHashMap.lookup t = some k → w.flowHashMap.lookup t = some k := by
    intro w₁ hvis
    refine hguard.rel_of_visits (R := fun a b => ∀ t k, a.flowHashMap.lookup t = some k →
      b.flowHashMap.lookup t = some k) ?_ ?_ ?_ hvis
    · exact fun _ _ _ hk => hk
    · exact fun hab hbc t k hk => hbc t k (hab t k hk)
    · exact fun hfree hstep t k hk => lookup_of_replyFree hfree (stepped_of_step hstep) hk
  have hinv : FlowInv w := flowInv_of_reachable ⟨w₀, es, tr, hinit, hrun⟩
  exact ⟨hiff.mpr hguard, hkept, fun w₁ hvis n m env r hk hs hr =>
    reply_to_opener hinv (hkept w₁ hvis _ _ hk) hs hr⟩

instance (w : World) : DecidablePred (ReplyFree w)
  | .packet _ m env => inferInstanceAs (Decidable (OpensFlow w m → env.addOut = true → _ ∧ _))
  | .dequeueBurst => inferInstanceAs (Decidable True)
  | .flowEngine _ _ => inferInstanceAs (Decidable True)
  | .ageing _ _ => inferInstanceAs (Decidable True)
  | .traffic _ _ _ => inferInstanceAs (Decidable True)
  | .timeout _ => inferInstanceAs (Decidable True)

/-- The second of two flows hijacks no entry of the first. -/
theorem noHijack_twoFlows :
    NoHijack initialSingle twoFlows
      ((offloadMachine.exec initialSingle twoFlows).get twoFlows_isSome).2
      ((offloadMachine.exec initialSingle twoFlows).get twoFlows_isSome).1 := by
  have hrun := Machine.run_exec_get twoFlows_isSome
  refine (noHijack_iff init_initialSingle hrun).mpr ?_
  apply hrun.runWhile
  decide +kernel

/-- An unsolicited frame to the public address, then a flow of the inside host to the
same remote endpoint: the second one's reply tuple is the first one's own. -/
def hijackEvents : List OffloadEvent :=
  [.udp (endpoint 9 9 9 9 80) (endpoint 5 1 1 1 2), .udp client (endpoint 9 9 9 9 80)]

theorem hijackRun_isSome : (offloadMachine.exec initialSingle hijackEvents).isSome = true := by
  decide +kernel

/-- **An entry is replaced**, and no call failed. -/
theorem not_noHijack_hijackEvents :
    ∃ tr w, offloadMachine.Init initialSingle ∧
      offloadMachine.Run initialSingle hijackEvents tr w ∧
      ¬ NoHijack initialSingle hijackEvents tr w := by
  refine ⟨_, _, init_initialSingle, Machine.run_exec_get hijackRun_isSome, fun h => ?_⟩
  have hreplaced : ¬ ∀ o ∈ ((offloadMachine.exec initialSingle hijackEvents).get
      hijackRun_isSome).2, o.FreshAdd := by decide +kernel
  exact hreplaced h.fresh

end SmartOffload
