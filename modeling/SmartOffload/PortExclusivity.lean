import SmartOffload.Pairing

/-!
# Who holds a NAT port

The pool hands out the numbers 1, 2, 3, … in order, and a forward flow is given
the low sixteen bits of its number.  As long as the numbers fit in sixteen bits
the ports of the stored forward flows are non-zero and pairwise different
(`portsExclusive_of_portLeft`); the pool, however, goes on up to
`MAX_HASH_ENTRIES - 1`, and the 65536th flow is given port 0
(`not_portsExclusive_exhausted`).
-/

namespace SmartOffload

/-- The forward flows in the table. -/
def Forward (w : World) (k : KeyPtr) : Prop :=
  k.dir = .outDirection ∧ ∃ t, w.flowHashMap.lookup t = some k

/-- The source port a flow key writes into outgoing packets. -/
def natPort (w : World) (k : KeyPtr) : UInt16 := (w.keys k).modifyTuple.port1

/-- **The ports of forward flows are non-zero and pairwise different.** -/
structure PortsExclusive (w : World) : Prop where
  nonzero : ∀ k, Forward w k → natPort w k ≠ 0
  distinct : ∀ k k', Forward w k → Forward w k' → k ≠ k' → natPort w k ≠ natPort w k'

/-- The guard: a flow whose key is inserted finds a number that fits in sixteen bits
at the head of the pool. -/
def PortLeft (w : World) : OffloadEvent → Prop
  | .packet _ m env => OpensFlow w m → env.addOut = true →
      ∃ v ∈ w.portPool.items.head?, v < UInt16.size
  | _ => True

/-! ### Numbers and ports -/

/-- The port a number of the pool is written as. -/
def portOfNumber (v : ℕ) : UInt16 := rteCpuToBe16 (UInt16.ofNat v)

theorem portOfNumber_inj {v v' : ℕ} (hv : v < UInt16.size) (hv' : v' < UInt16.size)
    (h : portOfNumber v = portOfNumber v') : v = v' := by
  have hnat : UInt16.ofNat v = UInt16.ofNat v' := bswap16_injective h
  have htoNat := congrArg UInt16.toNat hnat
  rwa [UInt16.toNat_ofNat_of_lt' hv, UInt16.toNat_ofNat_of_lt' hv'] at htoNat

@[simp] theorem portOfNumber_zero : portOfNumber 0 = 0 := by decide

/-- **The allocation invariant**: the pool continues after `n`, and the stored
forward flows hold different numbers from 1 to `n`, all below 2^16. -/
structure PoolInv (w : World) (n : ℕ) : Prop where
  items : ∃ c, w.portPool.items = List.range' (n + 1) c
  held : ∀ k, Forward w k → ∃ v, 1 ≤ v ∧ v ≤ n ∧ v < UInt16.size ∧
    natPort w k = portOfNumber v
  distinct : ∀ k k', Forward w k → Forward w k' → k ≠ k' → natPort w k ≠ natPort w k'

theorem PoolInv.portsExclusive {w : World} {n : ℕ} (h : PoolInv w n) : PortsExclusive w where
  nonzero k hk hzero := by
    obtain ⟨v, hpos, -, hlt, hport⟩ := h.held k hk
    rw [hport, ← portOfNumber_zero] at hzero
    have := portOfNumber_inj hlt (by decide) hzero
    omega
  distinct := h.distinct

theorem poolInv_of_init {w : World} (h : offloadMachine.Init w) : PoolInv w 0 := by
  obtain ⟨mode, port0, port1, readSpec, -, rfl⟩ := init_iff.mp h
  have hnone : ∀ k, ¬ Forward (initialWorld mode port0 port1 initialPortPool readSpec) k := by
    rintro k ⟨-, t, ht⟩
    rw [initialWorld, AList.lookup_empty] at ht
    cases ht
  exact ⟨⟨_, rfl⟩, fun k hk => absurd hk (hnone k), fun k _ hk => absurd hk (hnone k)⟩

/-- Events that keep flows keep who holds which port. -/
theorem PoolInv.of_keepsFlows {w w' : World} {n : ℕ} (hinv : PoolInv w n)
    (hkeep : KeepsFlows w w') : PoolInv w' n := by
  have hforward : ∀ k, Forward w' k → Forward w k := by
    intro k hk
    rwa [Forward, hkeep.flowHashMap] at hk
  have hport : ∀ k, natPort w' k = natPort w k := by
    intro k
    rw [natPort, natPort, hkeep.modifyTuple]
  constructor
  · rw [hkeep.portPool]
    exact hinv.items
  · intro k hk
    rw [hport]
    exact hinv.held k (hforward k hk)
  · intro k k' hk hk'
    rw [hport, hport]
    exact hinv.distinct k k' (hforward k hk) (hforward k' hk')

/-- The forward flows after a flow is opened. -/
theorem forward_of_createFlow {w : World} {m : RteMbuf} {env : PacketEnv} {r : PacketResult}
    (h : createFlow w m (getIpv4_5tuple m ipv4Mask) env = some r) {k : KeyPtr}
    (hk : Forward r.world k) :
    Forward w k ∨ env.addOut = true ∧ k = .out w.serial := by
  obtain ⟨hdir, t, ht⟩ := hk
  rcases lookup_of_createFlow h ht with ht | ⟨hadd, ⟨-, rfl⟩ | ⟨-, rfl⟩⟩
  · exact Or.inl ⟨hdir, t, ht⟩
  · exact Or.inr ⟨hadd, rfl⟩
  · cases hdir

/-- The port of a new forward flow. -/
theorem natPort_of_createFlow {w : World} {m : RteMbuf} {env : PacketEnv} {r : PacketResult}
    (h : createFlow w m (getIpv4_5tuple m ipv4Mask) env = some r) (hadd : env.addOut = true)
    {v : ℕ} (hv : w.portPool.items.head? = some v) :
    natPort r.world (.out w.serial) = portOfNumber v := by
  rw [natPort, (pairAt_createFlow h hadd).outModify, ← dequeuePortObject_of_head hv]
  rfl

/-- The pool continues after the next number once a flow is opened. -/
theorem PoolInv.items_createFlow {w : World} {m : RteMbuf} {env : PacketEnv}
    {r : PacketResult} {n : ℕ} (hinv : PoolInv w n)
    (h : createFlow w m (getIpv4_5tuple m ipv4Mask) env = some r) :
    ∃ c, r.world.portPool.items = List.range' (n + 2) c := by
  obtain ⟨-, -, -, hpool⟩ := frame_of_createFlow h
  obtain ⟨c, hitems⟩ := hinv.items
  refine ⟨c - 1, ?_⟩
  rw [hpool, dequeuePortObject_items, hitems]
  cases c with
  | zero => rfl
  | succ c => rw [List.range'_succ, List.tail_cons, Nat.add_sub_cancel]

/-- A new forward flow holds the next number. -/
theorem PoolInv.natPort_createFlow {w : World} {m : RteMbuf} {env : PacketEnv}
    {r : PacketResult} {n : ℕ} (hinv : PoolInv w n)
    (hleft : ∃ v ∈ w.portPool.items.head?, v < UInt16.size)
    (h : createFlow w m (getIpv4_5tuple m ipv4Mask) env = some r) (hadd : env.addOut = true) :
    n + 1 < UInt16.size ∧ natPort r.world (.out w.serial) = portOfNumber (n + 1) := by
  obtain ⟨v, hv, hlt⟩ := hleft
  have hv' : w.portPool.items.head? = some v := hv
  obtain ⟨c, hitems⟩ := hinv.items
  cases c with
  | zero =>
      rw [hitems] at hv'
      cases hv'
  | succ c =>
      rw [hitems, List.range'_succ, List.head?_cons] at hv'
      obtain rfl := Option.some.inj hv'
      exact ⟨hlt, natPort_of_createFlow h hadd hv⟩

/-- **Opening a flow keeps the invariant**, while a port is left: the new flow holds
the next number, and no other flow does. -/
theorem poolInv_createFlow {w : World} {m : RteMbuf} {env : PacketEnv} {r : PacketResult}
    {n : ℕ} (hinv : PoolInv w n) (hflow : FlowInv w)
    (hleft : env.addOut = true → ∃ v ∈ w.portPool.items.head?, v < UInt16.size)
    (h : createFlow w m (getIpv4_5tuple m ipv4Mask) env = some r) :
    PoolInv r.world (n + 1) := by
  have hold : ∀ k, Forward w k → natPort r.world k = natPort w k := by
    rintro k ⟨-, t, ht⟩
    rw [natPort, natPort, keys_of_createFlow h (hflow.stored t k ht).1.ne]
  -- the new number is larger than every number held
  have hfresh : env.addOut = true → ∀ k, Forward w k →
      natPort w k ≠ natPort r.world (.out w.serial) := by
    intro hadd k hk heq
    obtain ⟨v, -, hle, hlt, hport⟩ := hinv.held k hk
    obtain ⟨hlt', hport'⟩ := hinv.natPort_createFlow (hleft hadd) h hadd
    rw [hport, hport'] at heq
    have := portOfNumber_inj hlt hlt' heq
    omega
  constructor
  · exact hinv.items_createFlow h
  · intro k hk
    rcases forward_of_createFlow h hk with hk | ⟨hadd, rfl⟩
    · obtain ⟨v, hpos, hle, hlt, hport⟩ := hinv.held k hk
      exact ⟨v, hpos, Nat.le_succ_of_le hle, hlt, (hold k hk).trans hport⟩
    · obtain ⟨hlt, hport⟩ := hinv.natPort_createFlow (hleft hadd) h hadd
      exact ⟨n + 1, Nat.le_add_left 1 n, le_refl _, hlt, hport⟩
  · intro k k' hk hk' hne
    rcases forward_of_createFlow h hk with hk | ⟨hadd, rfl⟩
    · rw [hold k hk]
      rcases forward_of_createFlow h hk' with hk' | ⟨hadd, rfl⟩
      · rw [hold k' hk']
        exact hinv.distinct k k' hk hk' hne
      · exact hfresh hadd k hk
    · rcases forward_of_createFlow h hk' with hk' | ⟨-, rfl⟩
      · rw [hold k' hk']
        exact (hfresh hadd k' hk').symm
      · exact absurd rfl hne

/-- The step lemma. -/
theorem poolInv_step {w w' : World} {e : OffloadEvent} {os : List Obs}
    (hinv : ∃ n, PoolInv w n) (hflow : FlowInv w) (hleft : PortLeft w e)
    (h : Stepped w e w' os) : ∃ n, PoolInv w' n := by
  obtain ⟨n, hinv⟩ := hinv
  rcases h.opens_or_keepsFlows with ⟨portId, m, env, r, rfl, hopen, hr, rfl⟩ | hkeep
  · exact ⟨n + 1, poolInv_createFlow hinv hflow (hleft hopen) hr⟩
  · exact ⟨n, hinv.of_keepsFlows hkeep⟩

/-- **Ports are exclusive while they last.**  In a run whose every inserted flow finds
a number below 2^16 at the head of the pool, in every state visited. -/
theorem portsExclusive_of_portLeft {w₀ w : World} {es : List OffloadEvent} {tr : List Obs}
    (hinit : offloadMachine.Init w₀) (hrun : offloadMachine.RunWhile PortLeft w₀ es tr w)
    {t : World} (hvis : offloadMachine.Visits w₀ es t) : PortsExclusive t := by
  obtain ⟨es₁, tr₁, hrun₁⟩ := hrun.of_visits hvis
  have hinv : FlowInv t ∧ ∃ n, PoolInv t n :=
    hrun₁.state_invariant (P := fun w => FlowInv w ∧ ∃ n, PoolInv w n)
      ⟨flowInv_of_init hinit, 0, poolInv_of_init hinit⟩
      fun hs hleft hstep => ⟨flowInv_step hs.1 (stepped_of_step hstep),
        poolInv_step hs.2 hs.1 hleft (stepped_of_step hstep)⟩
  obtain ⟨-, n, hpool⟩ := hinv
  exact hpool.portsExclusive

instance (w : World) : DecidablePred (PortLeft w)
  | .packet _ m env => inferInstanceAs (Decidable (OpensFlow w m → env.addOut = true → _))
  | .dequeueBurst => inferInstanceAs (Decidable True)
  | .flowEngine _ _ => inferInstanceAs (Decidable True)
  | .ageing _ _ => inferInstanceAs (Decidable True)
  | .traffic _ _ _ => inferInstanceAs (Decidable True)
  | .timeout _ => inferInstanceAs (Decidable True)

/-- Two flows hold different ports. -/
theorem portsExclusive_twoFlows :
    Forward ((offloadMachine.exec initialSingle twoFlows).get twoFlows_isSome).1 (.out 0) ∧
      Forward ((offloadMachine.exec initialSingle twoFlows).get twoFlows_isSome).1 (.out 1) ∧
      PortsExclusive ((offloadMachine.exec initialSingle twoFlows).get twoFlows_isSome).1 := by
  obtain ⟨hfirst, hsecond⟩ := lookup_twoFlows
  have hrun := Machine.run_exec_get twoFlows_isSome
  refine ⟨⟨rfl, _, hfirst⟩, ⟨rfl, _, hsecond⟩, ?_⟩
  exact portsExclusive_of_portLeft init_initialSingle (hrun.runWhile (by decide +kernel))
    hrun.visits_end

/-! ### Running out of ports -/

/-- The `i`-th flow of one client to one server. -/
def clientPacket (i : ℕ) : OffloadEvent := .udp (endpoint 10 0 0 1 (UInt16.ofNat i)) server

/-- The tuple of the `i`-th flow. -/
def clientTuple (i : ℕ) : RdarmFiveTuple :=
  .ofAddressing ipprotoUdp ⟨endpoint 10 0 0 1 (UInt16.ofNat i), server⟩

/-- What the table holds after `n` flows: tuples of these flows, and of replies. -/
structure ClientFlows (w : World) (n : ℕ) : Prop where
  items : w.portPool.items = List.range' (n + 1) (maxHashEntries - 1 - n)
  stored : ∀ t ∈ w.flowHashMap, t.ip1 = server.1 ∨ ∃ i < n, t = clientTuple i

theorem clientFlows_initialSingle : ClientFlows initialSingle 0 where
  items := rfl
  stored t ht := by
    have hmem : t ∉ (∅ : FlowTable) := AList.notMem_empty t
    exact absurd ht hmem

/-- **One more flow of the client**, while its port is new: it is inserted and given the
head of the pool. -/
theorem step_clientPacket {w : World} {n : ℕ} (hflows : ClientFlows w n)
    (hn : n < UInt16.size) :
    ∃ w' os, offloadMachine.step w (clientPacket n) = some (w', os) ∧ ClientFlows w' (n + 1) ∧
      ∃ k, Forward w' k ∧ natPort w' k = portOfNumber (n + 1) := by
  have htuple : getIpv4_5tuple (udpFrame 100 ⟨endpoint 10 0 0 1 (UInt16.ofNat n), server⟩)
      ipv4Mask = clientTuple n := getIpv4_5tuple_udpFrame _ _
  generalize hm : udpFrame 100 ⟨endpoint 10 0 0 1 (UInt16.ofNat n), server⟩ = m at htuple
  -- neither a reply nor an earlier flow has this tuple
  have hserver : (clientTuple n).ip1 ≠ server.1 := by
    show (endpoint 10 0 0 1 0).1 ≠ server.1
    decide
  have hopen : OpensFlow w m := by
    refine ⟨by rw [← hm, udpFrame_supported], ?_⟩
    rw [htuple]
    intro hmem
    rcases hflows.stored _ hmem with hip | ⟨i, hi, heq⟩
    · exact hserver hip
    · have hport : portOfNumber n = portOfNumber i := congrArg RdarmFiveTuple.port1 heq
      have := portOfNumber_inj hn (hi.trans hn) hport
      omega
  obtain ⟨r, hr⟩ : ∃ r, createFlow w m (getIpv4_5tuple m ipv4Mask) .allSucceed = some r := by
    simp [createFlow, PacketEnv.allSucceed]
  obtain ⟨os, hstep⟩ := exists_step_of_createFlow 0 hopen hr
  have hcount : maxHashEntries - 1 - n = maxHashEntries - 1 - (n + 1) + 1 := by
    have : UInt16.size ≤ maxHashEntries - 1 := by decide
    omega
  have hhead : w.portPool.items.head? = some (n + 1) := by
    rw [hflows.items, hcount, List.range'_succ, List.head?_cons]
  have hreply : replyTuple w m ≠ clientTuple n := by
    intro heq
    apply hserver
    rw [← heq, ← hm, replyTuple, udpFrame_addressing]
    rfl
  refine ⟨r.world, os, ?_, ⟨?_, ?_⟩, .out w.serial, ⟨rfl, clientTuple n, ?_⟩,
    natPort_of_createFlow hr rfl hhead⟩
  · rw [clientPacket, OffloadEvent.udp, hm]
    exact hstep
  · obtain ⟨-, -, -, hpool⟩ := frame_of_createFlow hr
    rw [hpool, dequeuePortObject_items, hflows.items, hcount, List.range'_succ, List.tail_cons]
  · intro t ht
    obtain ⟨k, hk⟩ := Option.isSome_iff_exists.mp (AList.lookup_isSome.mpr ht)
    rcases lookup_of_createFlow hr hk with hk | ⟨-, ⟨rfl, -⟩ | ⟨rfl, -⟩⟩
    · rcases hflows.stored t (AList.lookup_isSome.mp (by rw [hk]; rfl)) with hip | ⟨i, hi, heq⟩
      · exact Or.inl hip
      · exact Or.inr ⟨i, Nat.lt_succ_of_lt hi, heq⟩
    · exact Or.inr ⟨n, Nat.lt_succ_self n, htuple⟩
    · refine Or.inl ?_
      rw [← hm, replyTuple, udpFrame_addressing]
      rfl
  · rw [table_of_createFlow hr, lookup_rteHashAddKeyData, lookup_rteHashAddKeyData, htuple,
      if_neg (fun h => hreply h.2.symm), if_pos ⟨rfl, rfl⟩]

/-- The first `n` flows of the client are a run. -/
theorem run_clientPackets {n : ℕ} (hn : n ≤ UInt16.size) :
    ∃ tr w, offloadMachine.Run initialSingle ((List.range n).map clientPacket) tr w ∧
      ClientFlows w n := by
  induction n with
  | zero => exact ⟨[], initialSingle, .nil _, clientFlows_initialSingle⟩
  | succ n ih =>
      obtain ⟨tr, w, hrun, hflows⟩ := ih (Nat.le_of_succ_le hn)
      obtain ⟨w', os, hstep, hflows', -⟩ := step_clientPacket hflows hn
      refine ⟨tr ++ os, w', ?_, hflows'⟩
      rw [List.range_succ, List.map_append]
      exact hrun.snoc hstep

/-- **The 65536th flow is given port 0**: the pool hands out 65536, which is cut to
sixteen bits. -/
theorem not_portsExclusive_exhausted :
    ∃ tr w, offloadMachine.Init initialSingle ∧
      offloadMachine.Run initialSingle ((List.range 65536).map clientPacket) tr w ∧
      ¬ PortsExclusive w := by
  obtain ⟨tr, w, hrun, hflows⟩ := run_clientPackets (n := 65535) (by decide)
  obtain ⟨w', os, hstep, -, k, hk, hport⟩ := step_clientPacket hflows (by decide)
  refine ⟨tr ++ os, w', init_initialSingle, ?_, ?_⟩
  · rw [show 65536 = 65535 + 1 from rfl, List.range_succ, List.map_append]
    exact hrun.snoc hstep
  · intro hexcl
    apply hexcl.nonzero k hk
    rw [hport]
    decide

end SmartOffload
