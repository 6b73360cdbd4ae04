import SmartOffload.Lib.Ledger
import SmartOffload.SharedFlow

/-!
# The loop of a packet worker

`process_loop` of `smto_worker.c`: receive a burst, hand each frame to
`packet_processing`, hand the whole burst to `rte_eth_tx_burst`, free what was not
sent.  An `Iteration` is what the environment decides in one turn: the burst, what the
other threads do before each call and how the calls inside it turn out, and how many
mbufs are taken.

`nb_tx` keeps its value, and the array its pointers, from one turn to the next; before
the first turn `nb_tx` is anything.  None of this matters for who owns an mbuf
(`mbufs_balanced`).  The result of `packet_processing` is dropped, and that does matter:
a frame whose call failed is sent as it came.  Where the headers of a frame are somewhere
else than the worker writes them, the frame is not translated either
(`not_noLeak_taggedTurn`); `noLeak_iff` is about frames that have them there.
-/

namespace SmartOffload

/-- `MAX_BULK_SIZE`. -/
def maxBulkSize : ℕ := 32

/-- An mbuf as `rte_eth_rx_burst` hands it over: its address, and the frame in it. -/
structure Mbuf where
  ptr : ℕ
  frame : RteMbuf

/-- What a call of `packet_processing` depends on: what the other threads do before it,
and what the environment decides in it. -/
structure CallInput where
  others : List OffloadEvent
  env : PacketEnv

/-- **What the environment decides in one turn.** -/
structure Iteration where
  /-- The burst of `rte_eth_rx_burst`. -/
  received : List Mbuf
  /-- The calls, by packet index. -/
  calls : ℕ → CallInput
  /-- The result of `rte_eth_tx_burst`. -/
  sent : ℕ
  length_le : received.length ≤ maxBulkSize
  nodup : (received.map Mbuf.ptr).Nodup
  sent_le : sent ≤ received.length

/-- The shared state and the locals of the loop that outlive a turn. -/
structure ProcessLoop where
  world : World
  /-- `mbufs[MAX_BULK_SIZE]`; `none` is NULL. -/
  mbufs : List (Option Mbuf)
  nbTx : ℕ
  length_mbufs : mbufs.length = maxBulkSize

/-- A frame after its call: the mbuf as it is now, the frame that was received, and the
flow key its tuple leads to when the call returns. -/
structure Processed where
  mbuf : Mbuf
  received : RteMbuf
  entry : Option SmtoFlowKey

/-- What a turn shows. -/
inductive LoopObs where
  | received (ptr : ℕ)
  /-- Handed to `rte_eth_tx_burst`. -/
  | offered (packet : Processed)
  /-- Taken by `rte_eth_tx_burst`. -/
  | taken (ptr : ℕ)
  /-- `rte_pktmbuf_free`. -/
  | freed (ptr : ℕ)

/-- `rte_eth_rx_burst` writes the first slots and leaves the others. -/
def rxBurst (mbufs : List (Option Mbuf)) (received : List Mbuf) : List (Option Mbuf) :=
  received.map some ++ mbufs.drop received.length

/-- The addresses in some slots. -/
def slotPtrs (mbufs : List (Option Mbuf)) : List ℕ := mbufs.filterMap (Option.map Mbuf.ptr)

/-- `for (packet_index = …; …) packet_processing(mbufs[packet_index], …)`, from a packet
index on; `none` where NULL is dereferenced. -/
def processPackets (w : World) (calls : ℕ → CallInput) (packetIndex : ℕ) :
    List (Option Mbuf) → Option (World × List Processed)
  | [] => some (w, [])
  | none :: _ => none
  | some m :: rest =>
      match offloadMachine.exec w (calls packetIndex).others with
      | none => none
      | some (w, _) =>
          match packetProcessing w m.frame (calls packetIndex).env with
          | none => none
          | some r =>
              -- `r.ret` is dropped
              match processPackets r.world calls (packetIndex + 1) rest with
              | none => none
              | some (w', done) =>
                  let entry := r.world.flowHashMap.lookup (getIpv4_5tuple m.frame ipv4Mask)
                  some (w', ⟨⟨m.ptr, r.mbuf⟩, m.frame, entry.map r.world.keys⟩ :: done)

/-- `if (nb_tx < nb_rx) for (buf = nb_tx; buf < nb_rx; buf++) rte_pktmbuf_free(mbufs[buf])`. -/
def freeUnsent (mbufs : List (Option Mbuf)) (nbTx nbRx : ℕ) : List (Option Mbuf) :=
  if nbTx < nbRx then (mbufs.take nbRx).drop nbTx else []

theorem length_rxBurst (s : ProcessLoop) (it : Iteration) :
    (rxBurst s.mbufs it.received).length = maxBulkSize := by
  have := it.length_le
  rw [rxBurst, List.length_append, List.length_map, List.length_drop, s.length_mbufs]
  omega

/-- One turn of the loop. -/
def processLoopBody (s : ProcessLoop) (it : Iteration) :
    Option (ProcessLoop × List LoopObs) :=
  let nbRx := it.received.length
  let mbufs := rxBurst s.mbufs it.received
  if nbRx ≠ 0 then
    match processPackets s.world it.calls 0 (mbufs.take nbRx) with
    | none => none
    | some (w', done) =>
        some (⟨w', mbufs, it.sent, length_rxBurst s it⟩,
          (it.received.map fun m => .received m.ptr) ++ done.map .offered ++
            (slotPtrs (mbufs.take it.sent)).map .taken ++
            (slotPtrs (freeUnsent mbufs it.sent nbRx)).map .freed)
  else
    -- `nb_tx` is the one of an earlier turn, or was never set
    some (⟨s.world, mbufs, s.nbTx, length_rxBurst s it⟩,
      (slotPtrs (freeUnsent mbufs s.nbTx nbRx)).map .freed)

/-- **`process_loop`**: the turns of one worker, from any reachable state of the system. -/
def processLoopMachine : Machine ProcessLoop Iteration LoopObs where
  Init s := offloadMachine.Reachable s.world ∧ s.mbufs = List.replicate maxBulkSize none
  step := processLoopBody

@[simp] theorem take_rxBurst (mbufs : List (Option Mbuf)) (received : List Mbuf) :
    (rxBurst mbufs received).take received.length = received.map some := by
  rw [rxBurst, List.take_append_of_le_length (by simp), List.take_of_length_le (by simp)]

@[simp] theorem slotPtrs_map_some (ms : List Mbuf) :
    slotPtrs (ms.map some) = ms.map Mbuf.ptr := by
  simp [slotPtrs, List.filterMap_map]

/-- The front of a burst. -/
theorem take_take_rxBurst {mbufs : List (Option Mbuf)} {received : List Mbuf} {n : ℕ}
    (hn : n ≤ received.length) :
    (rxBurst mbufs received).take n = (received.take n).map some := by
  rw [rxBurst, List.take_append_of_le_length (by simpa using hn), List.map_take]

/-- What was not sent is the rest of the burst. -/
theorem freeUnsent_rxBurst (mbufs : List (Option Mbuf)) (received : List Mbuf) (n : ℕ) :
    freeUnsent (rxBurst mbufs received) n received.length = (received.drop n).map some := by
  unfold freeUnsent
  split
  · rw [take_rxBurst, List.map_drop]
  next hle => rw [List.drop_eq_nil_of_le (Nat.le_of_not_lt hle), List.map_nil]

/-- **What a turn can do**, by cases: nothing was received, or the burst is processed,
its front taken and its rest freed. -/
theorem processLoopBody_cases {s s' : ProcessLoop} {it : Iteration} {os : List LoopObs}
    (h : processLoopBody s it = some (s', os)) :
    it.received = [] ∧ os = [] ∨
      ∃ done, processPackets s.world it.calls 0 (it.received.map some) = some (s'.world, done) ∧
        os = it.received.map (fun m => .received m.ptr) ++ done.map .offered ++
          (it.received.take it.sent).map (fun m => .taken m.ptr) ++
          (it.received.drop it.sent).map fun m => .freed m.ptr := by
  simp only [processLoopBody, take_rxBurst, take_take_rxBurst it.sent_le, freeUnsent_rxBurst,
    slotPtrs_map_some, List.map_map] at h
  split at h
  next hne =>
    split at h
    · cases h
    next w' done hdone =>
      obtain ⟨rfl, rfl⟩ := Prod.mk.inj (Option.some.inj h)
      exact Or.inr ⟨done, hdone, rfl⟩
  next hempty =>
    obtain ⟨-, rfl⟩ := Prod.mk.inj (Option.some.inj h)
    have hnil : it.received = [] := List.length_eq_zero_iff.mp (not_not.mp hempty)
    exact Or.inl ⟨hnil, by rw [hnil, List.drop_nil, List.map_nil]⟩

/-! ### Who owns an mbuf -/

/-- What an observation says about the ownership of mbufs. -/
def LoopObs.entry : LoopObs → Option (LedgerEntry ℕ)
  | .received ptr => some (.acquire ptr)
  | .offered _ => none
  | .taken ptr => some (.release ptr)
  | .freed ptr => some (.release ptr)

/-- The mbufs a turn disposes of: taken, or freed. -/
def LoopObs.disposed : LoopObs → Option ℕ
  | .taken ptr => some ptr
  | .freed ptr => some ptr
  | _ => none

/-- **Every mbuf is disposed of once**, over a run: in each turn those that were received,
and none but them; and over all turns, none while the loop does not own it. -/
structure MbufsOwned (s₀ : ProcessLoop) (its : List Iteration) (tr : List LoopObs) : Prop where
  turns : ∀ s it s' os, processLoopMachine.Visits s₀ its s →
    processLoopMachine.step s it = some (s', os) →
      (os.filterMap LoopObs.disposed).Perm (it.received.map Mbuf.ptr) ∧
        (os.filterMap LoopObs.disposed).Nodup
  ledger : Ledger.Balanced (tr.filterMap LoopObs.entry)
  once : ∀ ptr, (tr.filterMap LoopObs.entry).count (.acquire ptr) =
    (tr.filterMap LoopObs.entry).count (.release ptr)

section

variable {α : Type} (f : LoopObs → Option α)

theorem filterMap_offered (hf : ∀ p, f (.offered p) = none) (done : List Processed) :
    (done.map LoopObs.offered).filterMap f = [] := by
  rw [List.filterMap_map, List.filterMap_eq_nil_iff]
  exact fun p _ => hf p

/-- Observations of some mbufs, read one by one. -/
theorem filterMap_obs (obs : ℕ → LoopObs) (e : ℕ → α) (hf : ∀ ptr, f (obs ptr) = some (e ptr))
    (ms : List Mbuf) :
    (ms.map fun m => obs m.ptr).filterMap f = (ms.map Mbuf.ptr).map e := by
  rw [List.filterMap_map, List.map_map, ← List.filterMap_eq_map]
  exact List.filterMap_congr fun m _ => hf m.ptr

end

section

variable {s s' : ProcessLoop} {it : Iteration} {os : List LoopObs}
  (h : processLoopBody s it = some (s', os))
include h

/-- A turn disposes of its burst, in order. -/
theorem disposed_of_processLoopBody :
    os.filterMap LoopObs.disposed = it.received.map Mbuf.ptr := by
  rcases processLoopBody_cases h with ⟨hnil, rfl⟩ | ⟨done, -, rfl⟩
  · rw [hnil]
    rfl
  · have hreceived : (it.received.map fun m => LoopObs.received m.ptr).filterMap
        LoopObs.disposed = [] := by
      rw [List.filterMap_map, List.filterMap_eq_nil_iff]
      exact fun _ _ => rfl
    rw [List.filterMap_append, List.filterMap_append, List.filterMap_append, hreceived,
      filterMap_offered _ fun _ => rfl, filterMap_obs _ .taken id fun _ => rfl,
      filterMap_obs _ .freed id fun _ => rfl, List.nil_append, List.nil_append,
      ← List.map_append, ← List.map_append, List.take_append_drop, List.map_id]

/-- In the ledger the burst is acquired, then released. -/
theorem entries_of_processLoopBody :
    os.filterMap LoopObs.entry = (it.received.map Mbuf.ptr).map .acquire ++
      (it.received.map Mbuf.ptr).map .release := by
  rcases processLoopBody_cases h with ⟨hnil, rfl⟩ | ⟨done, -, rfl⟩
  · rw [hnil]
    rfl
  · rw [List.filterMap_append, List.filterMap_append, List.filterMap_append,
      filterMap_offered _ fun _ => rfl, filterMap_obs _ .received .acquire fun _ => rfl,
      filterMap_obs _ .taken .release fun _ => rfl, filterMap_obs _ .freed .release fun _ => rfl,
      List.append_nil, List.append_assoc, ← List.map_append, ← List.map_append,
      List.take_append_drop]

/-- The ledger of a turn is balanced. -/
theorem balanced_of_processLoopBody : Ledger.Balanced (os.filterMap LoopObs.entry) := by
  rw [entries_of_processLoopBody h, Ledger.Balanced, Ledger.replay_append_of_eq
    (Ledger.replay_acquires it.nodup fun _ _ => List.not_mem_nil)]
  exact Ledger.replay_releases (by rw [List.append_nil]; exact (List.reverse_perm _).symm)

end

/-- The ledger of a run is balanced. -/
theorem balanced_of_run {s₀ s : ProcessLoop} {its : List Iteration} {tr : List LoopObs}
    (hrun : processLoopMachine.Run s₀ its tr s) :
    Ledger.Balanced (tr.filterMap LoopObs.entry) := by
  refine hrun.invariant (P := fun _ tr => Ledger.Balanced (tr.filterMap LoopObs.entry))
    Ledger.balanced_nil fun hbalanced _ hstep => ?_
  rw [List.filterMap_append]
  exact hbalanced.append (balanced_of_processLoopBody hstep)

/-- **Every mbuf is taken or freed, once**: whatever is received, sent and left over in
every turn, and whatever `nb_tx` was before the first one. -/
theorem mbufs_owned {s₀ s : ProcessLoop} {its : List Iteration} {tr : List LoopObs}
    (hrun : processLoopMachine.Run s₀ its tr s) : MbufsOwned s₀ its tr where
  turns s it s' os _ hstep := by
    rw [disposed_of_processLoopBody hstep]
    exact ⟨.refl _, it.nodup⟩
  ledger := balanced_of_run hrun
  once := (balanced_of_run hrun).count_eq

/-- A run of three turns: two frames of one flow, of which one is taken; nothing; one
frame, not taken. -/
def threeTurns : List Iteration :=
  [⟨[⟨7, udpFrame 100 ⟨client, server⟩⟩, ⟨8, udpFrame 100 ⟨client, server⟩⟩],
      fun _ => ⟨[], .allSucceed⟩, 1, by decide, by decide, by decide⟩,
    ⟨[], fun _ => ⟨[], .allSucceed⟩, 0, by decide, by decide, by decide⟩,
    ⟨[⟨7, udpFrame 100 ⟨client, server⟩⟩], fun _ => ⟨[], .allSucceed⟩, 0, by decide, by decide,
      by decide⟩]

/-- A worker before its first turn; `nb_tx` holds some value. -/
def initialLoop : ProcessLoop :=
  ⟨initialSingle, List.replicate maxBulkSize none, 31, by decide⟩

theorem threeTurns_isSome : (processLoopMachine.exec initialLoop threeTurns).isSome = true := by
  decide +kernel

theorem mbufs_owned_threeTurns :
    ∃ tr s, processLoopMachine.Run initialLoop threeTurns tr s ∧
      MbufsOwned initialLoop threeTurns tr :=
  ⟨_, _, Machine.run_exec_get threeTurns_isSome,
    mbufs_owned (Machine.run_exec_get threeTurns_isSome)⟩

/-! ### What is sent -/

/-- A frame of a supported type **carries its translation**: the flow key its tuple leads
to exists, and the frame is addressed in its own headers as its `modify_tuple` says. -/
def Processed.Translated (p : Processed) : Prop :=
  supportedPacketType p.received.packetType = true →
    ∃ entry ∈ p.entry, p.mbuf.frame.ownAddressing = entry.modifyTuple.addressing

instance : DecidablePred Processed.Translated := fun _ =>
  inferInstanceAs (Decidable (_ → ∃ entry ∈ _, _))

/-- No frame that is handed to `rte_eth_tx_burst` leaks its inside source. -/
def LoopObs.Translated : LoopObs → Prop
  | .offered packet => packet.Translated
  | _ => True

instance : DecidablePred LoopObs.Translated
  | .offered packet => inferInstanceAs (Decidable packet.Translated)
  | .received _ => inferInstanceAs (Decidable True)
  | .taken _ => inferInstanceAs (Decidable True)
  | .freed _ => inferInstanceAs (Decidable True)

/-- The condition on a burst: the headers of its frames are where the worker writes them. -/
def TurnFixedLayout (_ : ProcessLoop) (it : Iteration) : Prop :=
  ∀ m ∈ it.received, supportedPacketType m.frame.packetType = true → m.frame.FixedLayout

instance decidableTurnFixedLayout (s : ProcessLoop) : DecidablePred (TurnFixedLayout s) :=
  fun it => inferInstanceAs (Decidable (∀ m ∈ it.received, _ → _))

/-- The frames of such a burst, in their slots. -/
theorem TurnFixedLayout.slots {s : ProcessLoop} {it : Iteration} (h : TurnFixedLayout s it) :
    ∀ m, some m ∈ it.received.map some →
      supportedPacketType m.frame.packetType = true → m.frame.FixedLayout := by
  intro m hm
  obtain ⟨m', hm', heq⟩ := List.mem_map.mp hm
  exact Option.some.inj heq ▸ h m' hm'

/-- The condition on one call: a frame that opens a flow has both its keys inserted, or
the first one, when it already has the source it would be translated to. -/
def Translates (w : World) (m : RteMbuf) (env : PacketEnv) : Prop :=
  OpensFlow w m → env.addOut = true ∧
    (env.addBack = true ∨ m.addressing.src = natSource (dequeuePortObject w.portPool).1)

/-- The condition on the calls of a burst, each in the state it finds. -/
def BurstTranslates (w : World) (calls : ℕ → CallInput) (packetIndex : ℕ) :
    List (Option Mbuf) → Prop
  | some m :: rest =>
      match offloadMachine.exec w (calls packetIndex).others with
      | none => True
      | some (w, _) =>
          Translates w m.frame (calls packetIndex).env ∧
            match packetProcessing w m.frame (calls packetIndex).env with
            | none => True
            | some r => BurstTranslates r.world calls (packetIndex + 1) rest
  | _ => True

/-- The condition on the calls of a turn. -/
def TurnTranslates (s : ProcessLoop) (it : Iteration) : Prop :=
  BurstTranslates s.world it.calls 0 (it.received.map some)

/-- The key of a new flow rewrites to the source the flow is given, whether or not the
second insertion replaced the first. -/
theorem translation_of_createFlow {w : World} {m : RteMbuf} {env : PacketEnv}
    {r : PacketResult} (h : createFlow w m (getIpv4_5tuple m ipv4Mask) env = some r)
    (hadd : env.addOut = true) :
    ∃ k, r.world.flowHashMap.lookup (getIpv4_5tuple m ipv4Mask) = some k ∧
      (r.world.keys k).modifyTuple.addressing =
        ⟨natSource (dequeuePortObject w.portPool).1, m.addressing.dst⟩ := by
  have hpair := pairAt_createFlow h hadd
  rw [table_of_createFlow h, lookup_rteHashAddKeyData]
  split
  next hsame =>
    -- the tuple is its own reply tuple
    have htuple := hsame.2
    rw [getIpv4_5tuple_eq] at htuple
    refine ⟨_, rfl, ?_⟩
    rw [hpair.backModify, RdarmFiveTuple.addressing_ofAddressing]
    exact Binding.inLeg_out_of_self (RdarmFiveTuple.ofAddressing_inj.mp htuple).2
  · refine ⟨.out w.serial, ?_, ?_⟩
    · rw [lookup_rteHashAddKeyData, if_pos ⟨hadd, rfl⟩]
    · rw [hpair.outModify]
      rfl

/-- **A call translates its frame exactly under the condition.** -/
theorem translated_iff {w : World} {m : RteMbuf} {env : PacketEnv} {r : PacketResult}
    (hlayout : supportedPacketType m.packetType = true → m.FixedLayout)
    (h : packetProcessing w m env = some r) (ptr : ℕ) :
    (⟨⟨ptr, r.mbuf⟩, m, (r.world.flowHashMap.lookup (getIpv4_5tuple m ipv4Mask)).map
      r.world.keys⟩ : Processed).Translated ↔ Translates w m env := by
  rcases packetProcessing_cases w m env with ⟨-, hno⟩ | ⟨heq, hopen⟩ | ⟨k, heq, hs, hk⟩
  · -- not admitted: nothing is asked of the frame
    have hno' : ¬ supportedPacketType m.packetType = true := by simp [hno]
    exact iff_of_true (fun hs => absurd hs hno') fun hopen => absurd hopen.1 hno'
  · rw [heq] at h
    have hfound := translation_of_createFlow h
    rcases (createFlow_cases h).2 with ⟨hadd, rfl⟩ | ⟨hadd, -, hr⟩
    · -- the first insertion failed: there is no entry
      refine iff_of_false (fun htrans => ?_) fun htrans => ?_
      · obtain ⟨entry, hentry, -⟩ := htrans hopen.1
        simp [addFlow, rteHashAddKeyData, hadd, hopen.lookup] at hentry
      · exact absurd (htrans hopen).1 (by simp [hadd])
    · obtain ⟨k, hk, hmodify⟩ := hfound hadd
      have hiff : (⟨⟨ptr, r.mbuf⟩, m, (r.world.flowHashMap.lookup
          (getIpv4_5tuple m ipv4Mask)).map r.world.keys⟩ : Processed).Translated ↔
            r.mbuf.ownAddressing =
              ⟨natSource (dequeuePortObject w.portPool).1, m.addressing.dst⟩ := by
        simp only [Processed.Translated, hopen.1, hk, Option.map_some, Option.mem_some_iff,
          exists_eq_left', hmodify, true_implies]
      have hguard : Translates w m env ↔ env.addBack = true ∨
          m.addressing.src = natSource (dequeuePortObject w.portPool).1 := by
        simp only [Translates, hopen, hadd, true_implies, true_and]
      rw [hiff, hguard]
      cases hadd' : env.addBack with
      | true =>
          refine iff_of_true ?_ (Or.inl rfl)
          have hmbuf : r.mbuf = modifyPacket m
              (nextFlowKey w m (getIpv4_5tuple m ipv4Mask) env).modifyTuple := by
            rw [hr, hadd']
            rfl
          rw [hmbuf, ownAddressing_modifyPacket (hlayout hopen.1), getIpv4_5tuple_eq]
          rfl
      | false =>
          -- the frame is as it came
          have hmbuf : r.mbuf = m := by rw [hr, hadd']; rfl
          rw [hmbuf, ownAddressing_of_fixedLayout (hlayout hopen.1), Addressing.ext_iff]
          simp
  · rw [heq] at h
    obtain rfl := Option.some.inj h
    have hkeep : KeepsFlows w (knownFlow w m k).world :=
      (keepsFlows_countPacket w k m.pktLen).trans (keepsFlows_requestOffload _ k)
    refine iff_of_true (fun _ => ?_) fun hopen => absurd hopen (not_opensFlow_of_lookup hk)
    rw [hkeep.flowHashMap, hk]
    exact ⟨_, rfl, ownAddressing_modifyPacket (hlayout hs) _⟩

/-- The step lemma: over a burst. -/
theorem translated_processPackets_iff {calls : ℕ → CallInput} {slots : List (Option Mbuf)} :
    ∀ {w w' : World} {i : ℕ} {done : List Processed},
      (∀ m, some m ∈ slots → supportedPacketType m.frame.packetType = true →
        m.frame.FixedLayout) →
      processPackets w calls i slots = some (w', done) →
        ((∀ p ∈ done, p.Translated) ↔ BurstTranslates w calls i slots) := by
  induction slots with
  | nil =>
      intro w w' i done _ h
      obtain ⟨-, rfl⟩ := Prod.mk.inj (Option.some.inj h)
      simp [BurstTranslates]
  | cons slot rest ih =>
      intro w w' i done hlayout h
      cases slot with
      | none => cases h
      | some m =>
          have hfirst := hlayout m List.mem_cons_self
          simp only [processPackets] at h
          split at h
          · cases h
          next w₁ os hothers =>
            split at h
            · cases h
            next r hr =>
              split at h
              · cases h
              next w₂ done' hrest =>
                obtain ⟨rfl, rfl⟩ := Prod.mk.inj (Option.some.inj h)
                have hothers' := ih (fun m hm => hlayout m (List.mem_cons_of_mem _ hm)) hrest
                simp only [BurstTranslates, hothers, hr, List.forall_mem_cons,
                  translated_iff hfirst hr, hothers']

/-- The step lemma, over a turn. -/
theorem translated_turn_iff {s s' : ProcessLoop} {it : Iteration} {os : List LoopObs}
    (hlayout : TurnFixedLayout s it) (hstep : processLoopBody s it = some (s', os)) :
    (∀ o ∈ os, o.Translated) ↔ TurnTranslates s it := by
  rcases processLoopBody_cases hstep with ⟨hnil, rfl⟩ | ⟨done, hdone, rfl⟩
  · rw [TurnTranslates, hnil]
    exact iff_of_true (fun o ho => by cases ho) trivial
  · rw [TurnTranslates, ← translated_processPackets_iff hlayout.slots hdone]
    constructor
    · intro hall p hp
      refine hall (.offered p) ?_
      simp only [List.mem_append, List.mem_map]
      exact Or.inl (Or.inl (Or.inr ⟨p, hp, rfl⟩))
    · intro hall o ho
      simp only [List.mem_append, List.mem_map] at ho
      rcases ho with ((⟨m, -, rfl⟩ | ⟨p, hp, rfl⟩) | ⟨m, -, rfl⟩) | ⟨m, -, rfl⟩
      · trivial
      · exact hall p hp
      · trivial
      · trivial

/-- **When nothing leaks.**  Over any run of the loop on frames that have their headers where
the worker writes them: exactly when every frame that opens a flow has both its keys
inserted, or the first one while it already has the source it would be translated to. -/
theorem noLeak_iff {s₀ s : ProcessLoop} {its : List Iteration} {tr : List LoopObs}
    (hrun : processLoopMachine.RunWhile TurnFixedLayout s₀ its tr s) :
    (∀ o ∈ tr, o.Translated) ↔ processLoopMachine.RunWhile TurnTranslates s₀ its tr s := by
  refine hrun.forall_obs_iff (J := fun _ => True) trivial (fun _ _ _ => trivial) ?_
  exact fun _ hlayout hstep => translated_turn_iff hlayout hstep

theorem init_initialLoop : processLoopMachine.Init initialLoop :=
  ⟨⟨_, [], [], init_initialSingle, .nil _⟩, rfl⟩

/-- Two frames of one new flow, nothing, and a frame of the flow. -/
theorem noLeak_threeTurns :
    ∃ tr s, processLoopMachine.Run initialLoop threeTurns tr s ∧
      processLoopMachine.RunWhile TurnTranslates initialLoop threeTurns tr s := by
  have hrun := Machine.run_exec_get threeTurns_isSome
  exact ⟨_, _, hrun, (noLeak_iff (hrun.runWhile (by decide +kernel))).mp (by decide +kernel)⟩

/-- One frame of a new flow, whose first insertion fails; it is taken. -/
def fullTableTurn : List Iteration :=
  [⟨[⟨7, udpFrame 100 ⟨client, server⟩⟩],
    fun _ => ⟨[], { PacketEnv.allSucceed with addOut := false }⟩, 1, by decide, by decide,
    by decide⟩]

theorem fullTableTurn_isSome :
    (processLoopMachine.exec initialLoop fullTableTurn).isSome = true := by
  decide +kernel

/-- The source of a frame that is handed to `rte_eth_tx_burst`. -/
def LoopObs.sourceSent : LoopObs → Option (UInt32 × UInt16)
  | .offered packet => some packet.mbuf.frame.ownAddressing.src
  | _ => none

/-- **A frame leaks.**  The call fails with `SMTO_ERROR_HASH_MAP_OPERATION`, and the frame
goes out from the client's own address. -/
theorem not_noLeak_fullTableTurn :
    ∃ tr s, processLoopMachine.Init initialLoop ∧
      processLoopMachine.Run initialLoop fullTableTurn tr s ∧
        (¬ ∀ o ∈ tr, o.Translated) ∧ tr.filterMap LoopObs.sourceSent = [client] := by
  refine ⟨_, _, init_initialLoop, Machine.run_exec_get fullTableTurn_isSome, ?_⟩
  constructor
  · decide +kernel
  · decide +kernel

/-- A UDP frame with a VLAN tag. -/
def taggedUdp (a : Addressing (UInt32 × UInt16)) : RteMbuf :=
  let data : ByteMemory := Function.update (Function.update (fun _ => 0) 12 0x81) 16 0x08
  let data : ByteMemory := Function.update (Function.update data 18 0x45) 27 ipprotoUdp
  let data := (data.store32 30 a.src.1).store32 34 a.dst.1
  { udpFrame 100 a with data := (data.store16 38 a.src.2).store16 40 a.dst.2 }

/-- One tagged frame of a new flow, about which nothing fails. -/
def taggedTurn : List Iteration :=
  [⟨[⟨7, taggedUdp ⟨client, server⟩⟩], fun _ => ⟨[], .allSucceed⟩, 1, by decide, by decide,
    by decide⟩]

theorem taggedTurn_isSome :
    (processLoopMachine.exec initialLoop taggedTurn).isSome = true := by
  decide +kernel

/-- **A tagged frame leaks**, although its call succeeds: what is written for the source
address does not reach it. -/
theorem not_noLeak_taggedTurn :
    ∃ tr s, processLoopMachine.Init initialLoop ∧
      processLoopMachine.Run initialLoop taggedTurn tr s ∧
        (¬ ∀ o ∈ tr, o.Translated) ∧ tr.filterMap LoopObs.sourceSent = [client] := by
  refine ⟨_, _, init_initialLoop, Machine.run_exec_get taggedTurn_isSome, ?_⟩
  constructor
  · decide +kernel
  · decide +kernel

end SmartOffload
