import SmartOffload.Pairing
import Mathlib.Algebra.BigOperators.Group.List.Basic
import Mathlib.Algebra.Group.Prod

/-!
# Traffic accounting

A flow key counts its packets and bytes in two 32-bit words, which two threads add
to: the worker for every frame, the ageing handler for every rule it takes out.
What they should add up to is read off the trace of a run (`amount`): the frames
of the key, and the counters of its rules at the moment they were destroyed.

The handler merges the counters of the rule its handle denotes before it destroys
that rule, and neither looks at the result of the other.  The words are right as
long as the two succeed or fail together, on a rule of the key, once per key and
batch (`accounted_of_countsOnce`).  A destroy that fails after a successful query
is retried, and the same counters are added again (`not_accounted_retryEvents`).
-/

namespace SmartOffload

/-! ### What a run should count -/

/-- The rule a successful destroy takes out. -/
def NicCall.destroyed : NicCall → Option RteFlow
  | .destroy _ _ portId passed nic true =>
      (nic.flows passed).filter fun r => r.portId == portId
  | _ => none

/-- Packets and bytes an observation adds to a flow key: a frame of it, or a destroyed
rule of it with its cumulative counters. -/
def Obs.amount (k : KeyPtr) : Obs → ℕ × ℕ
  | .frame k' pktLen => if k' = k then (1, pktLen.toNat) else 0
  | .hashAdd _ => 0
  | .nicCall call =>
      match call.destroyed with
      | some r => if r.ageContext = some k then (r.hits.toNat, r.bytes.toNat) else 0
      | none => 0

/-- Packets and bytes of a flow key over a trace. -/
def amount (k : KeyPtr) (tr : List Obs) : ℕ × ℕ := (tr.map (Obs.amount k)).sum

@[simp] theorem amount_nil (k : KeyPtr) : amount k [] = 0 := rfl

@[simp] theorem amount_cons (k : KeyPtr) (o : Obs) (tr : List Obs) :
    amount k (o :: tr) = o.amount k + amount k tr := by
  simp [amount]

@[simp] theorem amount_append (k : KeyPtr) (tr tr' : List Obs) :
    amount k (tr ++ tr') = amount k tr + amount k tr' := by
  simp [amount]

theorem amount_hashAdds (k : KeyPtr) (adds : List HashAdd) :
    amount k (adds.map Obs.hashAdd) = 0 := by
  induction adds with
  | nil => rfl
  | cons add adds ih => rw [List.map_cons, amount_cons, ih]; rfl

/-! ### Counting in 32-bit words -/

/-- The two counters of a flow key. -/
def SmtoFlowKey.counters (k : SmtoFlowKey) : UInt32 × UInt32 := (k.packetAmount, k.flowSize)

/-- Two words hold two numbers, modulo 2^32. -/
def Counted (c : UInt32 × UInt32) (a : ℕ × ℕ) : Prop :=
  c.1.toNat = a.1 % 2 ^ 32 ∧ c.2.toNat = a.2 % 2 ^ 32

instance (c : UInt32 × UInt32) (a : ℕ × ℕ) : Decidable (Counted c a) :=
  inferInstanceAs (Decidable (_ ∧ _))

/-- Adding words adds the numbers they hold. -/
theorem Counted.add {c d : UInt32 × UInt32} {a b : ℕ × ℕ} (hc : Counted c a)
    (hd : Counted d b) : Counted (c.1 + d.1, c.2 + d.2) (a + b) := by
  constructor
  · show (c.1 + d.1).toNat = (a.1 + b.1) % 2 ^ 32
    rw [UInt32.toNat_add, hc.1, hd.1, ← Nat.add_mod]
  · show (c.2 + d.2).toNat = (a.2 + b.2) % 2 ^ 32
    rw [UInt32.toNat_add, hc.2, hd.2, ← Nat.add_mod]

/-- One frame, in words. -/
theorem counted_frame (pktLen : UInt32) : Counted (1, pktLen) (1, pktLen.toNat) :=
  ⟨rfl, (Nat.mod_eq_of_lt pktLen.toNat_lt).symm⟩

/-- Hardware counters, cut to words. -/
theorem counted_rule (hits bytes : UInt64) :
    Counted (hits.toUInt32, bytes.toUInt32) (hits.toNat, bytes.toNat) :=
  ⟨UInt64.toNat_toUInt32 hits, UInt64.toNat_toUInt32 bytes⟩

/-- **Accounting**: every flow key counts its frames and its destroyed rules. -/
def Accounted (w : World) (tr : List Obs) : Prop :=
  ∀ k, Counted (w.keys k).counters (amount k tr)

/-! ### What writes the counters -/

theorem counters_countPacket_self (w : World) (k : KeyPtr) (pktLen : UInt32) :
    ((countPacket w k pktLen).keys k).counters =
      ((w.keys k).counters.1 + 1, (w.keys k).counters.2 + pktLen) := by
  rw [countPacket, World.modifyKey_keys_self]
  rfl

theorem counters_countPacket_of_ne (w : World) {k k' : KeyPtr} (hne : k' ≠ k)
    (pktLen : UInt32) :
    ((countPacket w k pktLen).keys k').counters = (w.keys k').counters := by
  rw [countPacket, World.modifyKey_keys_of_ne w k _ hne]

theorem counters_requestOffload (w : World) (k k' : KeyPtr) :
    ((requestOffload w k).keys k').counters = (w.keys k').counters := by
  rcases requestOffload_cases w k with heq | ⟨ring, -, -, heq⟩
  · rw [heq]
  · rw [heq]
    exact World.modifyKey_keys_congr _ k _ SmtoFlowKey.counters rfl k'

theorem counters_offloadKey (w : World) (portId : UInt16) (k k' : KeyPtr) (ok : Bool) :
    ((offloadKey w portId k ok).2.keys k').counters = (w.keys k').counters := by
  by_cases hk : k' = k
  · subst hk
    rcases offloadKey_cases w portId k' ok with ⟨heq, -⟩ | ⟨-, pattern, heq⟩
    · rw [heq, markNotOffload_keys_self]
      rfl
    · rw [heq, markOffloadSuccess_keys_self]
      rfl
  · rw [keys_offloadKey_of_ne hk]

theorem counters_createFlowLoopBody {w w' : World} {k partner : KeyPtr}
    {ok okSymmetrical : Bool} (hlink : (w.keys k).symmetricalFlowKey = some partner)
    (hbody : createFlowLoopBody w k ok okSymmetrical = some w') (k' : KeyPtr) :
    (w'.keys k').counters = (w.keys k').counters := by
  rw [createFlowLoopBody_of_link hlink] at hbody
  obtain rfl := Option.some.inj hbody
  split
  · rw [counters_offloadKey, counters_offloadKey]
  · rw [counters_offloadKey]

/-- Opening a flow counts its first frame, for the new out-direction key. -/
theorem counters_createFlow {w : World} {m : RteMbuf} {t : RdarmFiveTuple} {env : PacketEnv}
    {r : PacketResult} (h : createFlow w m t env = some r) :
    (r.world.keys (.out w.serial)).counters = (1, m.pktLen) ∧
      ((r.world.keys (.back w.serial)).counters = (w.keys (.back w.serial)).counters ∨
        (r.world.keys (.back w.serial)).counters = (0, 0)) := by
  have hne : KeyPtr.back w.serial ≠ KeyPtr.out w.serial := (KeyPtr.out_ne_back _ _).symm
  rcases (createFlow_cases h).2 with ⟨-, rfl⟩ | ⟨-, -, rfl⟩
  · refine ⟨?_, Or.inl ?_⟩
    · simp only [addFlow, Function.update_self]
      rfl
    · simp only [addFlow, Function.update_of_ne hne]
  · refine ⟨?_, Or.inr ?_⟩
    · simp only [addSymmetricalFlow, Function.update_self]
      rfl
    · simp only [addSymmetricalFlow, Function.update_of_ne hne, Function.update_self]
      rfl

/-! ### Ageing -/

/-- A batch of contexts that counts each destroyed rule once: query and destroy come
out alike; where they succeed, the handle denotes a rule of the key on the port; and
no key is handled twice with success. -/
structure CountsBatch (w : World) (portId : UInt16)
    (batch : List (AgedReport × Option KeyPtr)) : Prop where
  outcome : ∀ x ∈ batch, x.1.queryOk = x.1.destroyOk
  live : ∀ x ∈ batch, x.1.destroyOk = true → ∀ k ∈ x.2, ∀ flow ∈ (w.keys k).flow,
    w.nic.owner flow = some k ∧ w.nic.portOf flow = some portId
  once : batch.Pairwise fun x y => x.1.destroyOk = true → y.1.destroyOk = true →
    ∀ k ∈ x.2, y.2 ≠ some k

/-- A rule of a key on a port, from its handle. -/
theorem exists_rule {nic : Nic} {portId : UInt16} {flow : FlowHandle} {k : KeyPtr}
    (hown : nic.owner flow = some k) (hport : nic.portOf flow = some portId) :
    ∃ r, nic.flows flow = some r ∧ r.portId = portId ∧ r.ageContext = some k := by
  cases hr : nic.flows flow with
  | none =>
      rw [Nic.portOf, hr] at hport
      cases hport
  | some r =>
      rw [Nic.portOf, hr] at hport
      rw [Nic.owner, hr] at hown
      exact ⟨r, rfl, Option.some.inj hport, hown⟩

theorem counters_mergeCounter_self (w : World) (k : KeyPtr) (hits bytes : UInt64) :
    ((mergeCounter w k (some (hits, bytes))).keys k).counters =
      ((w.keys k).counters.1 + hits.toUInt32, (w.keys k).counters.2 + bytes.toUInt32) := by
  rw [mergeCounter, World.modifyKey_keys_self]
  rfl

theorem counters_markNotOffload (w : World) (k k' : KeyPtr) :
    ((markNotOffload w k).keys k').counters = (w.keys k').counters :=
  w.modifyKey_keys_congr k _ SmtoFlowKey.counters rfl k'

/-- **Handling one context counts what it destroys.** -/
theorem counted_deleteTimeoutFlow {w : World} {portId : UInt16} {report : AgedReport}
    {context : Option KeyPtr} (houtcome : report.queryOk = report.destroyOk)
    (hlive : report.destroyOk = true → ∀ k ∈ context, ∀ flow ∈ (w.keys k).flow,
      w.nic.owner flow = some k ∧ w.nic.portOf flow = some portId)
    {k : KeyPtr} {a : ℕ × ℕ} (hc : Counted (w.keys k).counters a) :
    Counted ((deleteTimeoutFlow w portId report context).1.keys k).counters
      (a + amount k ((deleteTimeoutFlow w portId report context).2.map Obs.nicCall)) := by
  rcases deleteTimeoutFlow_cases w portId report context with
    ⟨heq, -⟩ | ⟨k', flow, hk', hflow, heq⟩
  · rw [heq, List.map_nil, amount_nil, add_zero]
    exact hc
  · rw [heq, houtcome]
    cases hok : report.destroyOk with
    | false =>
        -- nothing is merged and nothing is destroyed
        have hnone : amount k [.nicCall (.query report.flow k' portId flow w.nic),
            .nicCall (.destroy report.flow k' portId flow w.nic false)] = 0 := rfl
        rw [List.map_cons, List.map_cons, List.map_nil, hnone, add_zero]
        exact hc
    | true =>
        obtain ⟨hown, hport⟩ := hlive hok k' hk' flow hflow
        obtain ⟨r, hr, hrport, hrk⟩ := exists_rule hown hport
        have hquery : queryCounter w.nic portId flow true report.stale =
            some (r.hits, r.bytes) := rteFlowQuery_of_installed hr hrport report.stale
        have hdestroyed : (NicCall.destroy report.flow k' portId flow w.nic true).destroyed =
            some r := by
          simp [NicCall.destroyed, hr, hrport]
        have hamount : amount k [.nicCall (.query report.flow k' portId flow w.nic),
            .nicCall (.destroy report.flow k' portId flow w.nic true)] =
              if k' = k then (r.hits.toNat, r.bytes.toNat) else 0 := by
          rw [amount_cons, amount_cons, amount_nil, add_zero]
          simp only [Obs.amount, hdestroyed, hrk, Option.some.injEq]
          exact zero_add _
        rw [List.map_cons, List.map_cons, List.map_nil, hamount, hquery,
          destroyTimeoutFlow_true, counters_markNotOffload]
        by_cases hk : k' = k
        · rw [if_pos hk, ← hk]
          show Counted ((mergeCounter w k' (some (r.hits, r.bytes))).keys k').counters _
          rw [counters_mergeCounter_self, hk]
          exact hc.add (counted_rule r.hits r.bytes)
        · rw [if_neg hk, add_zero]
          show Counted ((mergeCounter w k' (some (r.hits, r.bytes))).keys k).counters _
          rw [mergeCounter, World.modifyKey_keys_of_ne w k' _ (Ne.symm hk)]
          exact hc

/-- What is left of a batch still counts once. -/
theorem CountsBatch.tail {w : World} {portId : UInt16} {x : AgedReport × Option KeyPtr}
    {rest : List (AgedReport × Option KeyPtr)} (h : CountsBatch w portId (x :: rest)) :
    CountsBatch (deleteTimeoutFlow w portId x.1 x.2).1 portId rest := by
  obtain ⟨honce, hrest⟩ := List.pairwise_cons.mp h.once
  refine ⟨fun y hy => h.outcome y (List.mem_cons_of_mem x hy), ?_, hrest⟩
  intro y hy hok k hk flow hflow
  rw [flow_deleteTimeoutFlow] at hflow
  obtain ⟨hown, hport⟩ := h.live y (List.mem_cons_of_mem x hy) hok k hk flow hflow
  rcases deleteTimeoutFlow_cases w portId x.1 x.2 with ⟨heq, -⟩ | ⟨k₀, flow₀, hk₀, hflow₀, heq⟩
  · rw [heq]
    exact ⟨hown, hport⟩
  · rw [heq, destroyTimeoutFlow_nic, mergeCounter_nic]
    cases hok₀ : x.1.destroyOk with
    | false => exact ⟨hown, hport⟩
    | true =>
        -- the rule taken out is of another key
        have hne : flow ≠ flow₀ := by
          rintro rfl
          obtain ⟨hown₀, -⟩ := h.live x List.mem_cons_self hok₀ k₀ hk₀ flow hflow₀
          rw [hown₀] at hown
          have hkk : k₀ = k := Option.some.inj hown
          exact honce y hy hok₀ hok k₀ hk₀ (by rw [hkk]; exact hk)
        rw [owner_rteFlowDestroy_of_ne hne, portOf_rteFlowDestroy_of_ne hne]
        exact ⟨hown, hport⟩

theorem counted_deleteTimeoutBatch {portId : UInt16}
    (batch : List (AgedReport × Option KeyPtr)) :
    ∀ {w : World} {a : ℕ × ℕ} {k : KeyPtr}, CountsBatch w portId batch →
      Counted (w.keys k).counters a →
        Counted ((deleteTimeoutBatch w portId batch).1.keys k).counters
          (a + amount k ((deleteTimeoutBatch w portId batch).2.map Obs.nicCall)) := by
  induction batch with
  | nil =>
      intro w a k _ hc
      rw [deleteTimeoutBatch, List.map_nil, amount_nil, add_zero]
      exact hc
  | cons x rest ih =>
      intro w a k h hc
      have hfirst := counted_deleteTimeoutFlow (h.outcome x List.mem_cons_self)
        (h.live x List.mem_cons_self) hc
      have hrest := ih h.tail hfirst
      show Counted _ (a + amount k (((deleteTimeoutFlow w portId x.1 x.2).2 ++
        (deleteTimeoutBatch _ portId rest).2).map Obs.nicCall))
      rw [List.map_append, amount_append, ← add_assoc]
      exact hrest

/-! ### The keys of calls still to come -/

/-- The keys of calls still to come count nothing. -/
def UnopenedZero (w : World) : Prop := ∀ k, w.serial ≤ k.serial → (w.keys k).counters = (0, 0)

/-- A step that opens no flow and writes to keys of opened flows keeps this. -/
theorem UnopenedZero.congr {w w' : World} (hzero : UnopenedZero w)
    (hserial : w'.serial = w.serial)
    (hcounters : ∀ k, w.serial ≤ k.serial → (w'.keys k).counters = (w.keys k).counters) :
    UnopenedZero w' := by
  intro k hk
  rw [hserial] at hk
  rw [hcounters k hk]
  exact hzero k hk

theorem unopenedZero_createFlow {w : World} {m : RteMbuf} {t : RdarmFiveTuple}
    {env : PacketEnv} {r : PacketResult} (hzero : UnopenedZero w)
    (h : createFlow w m t env = some r) : UnopenedZero r.world := by
  obtain ⟨hserial, -, -, -⟩ := frame_of_createFlow h
  intro k hk
  rw [hserial] at hk
  rw [keys_of_createFlow h (Nat.lt_of_succ_le hk).ne']
  exact hzero k (Nat.le_of_succ_le hk)

theorem unopenedZero_known {w : World} {k : KeyPtr} (hzero : UnopenedZero w)
    (hlt : k.serial < w.serial) (pktLen : UInt32) :
    UnopenedZero (requestOffload (countPacket w k pktLen) k) := by
  refine hzero.congr (keepsFlows_requestOffload (countPacket w k pktLen) k).serial ?_
  intro k' hk'
  have hne : k' ≠ k := by
    rintro rfl
    exact absurd hlt (Nat.not_lt.mpr hk')
  rw [counters_requestOffload, counters_countPacket_of_ne w hne]

/-- The ageing handler writes to keys of opened flows only. -/
theorem unopenedZero_deleteTimeoutFlows {w : World} (hflow : FlowInv w)
    (hzero : UnopenedZero w) (portId : UInt16) (reports : List AgedReport) :
    UnopenedZero (deleteTimeoutFlows w portId (some reports)).1 := by
  refine hzero.congr (keepsFlows_deleteTimeoutFlows w portId (some reports)).serial ?_
  intro k hk
  have hne : ∀ x ∈ reports.map fun report => (report, w.nic.owner report.flow),
      x.2 ≠ some k := by
    intro x hx ho
    obtain ⟨report, -, rfl⟩ := List.mem_map.mp hx
    exact absurd (hflow.owned _ k ho).1 (Nat.not_lt.mpr hk)
  rw [deleteTimeoutFlows, keys_deleteTimeoutBatch_of_ne _ hne]

/-- **Every step keeps it.** -/
theorem unopenedZero_step {w w' : World} {e : OffloadEvent} {os : List Obs}
    (hflow : FlowInv w) (hzero : UnopenedZero w) (h : Stepped w e w' os) : UnopenedZero w' := by
  cases h with
  | ignored _ => exact hzero
  | opened _ hr => exact unopenedZero_createFlow hzero hr
  | known hk => exact unopenedZero_known hzero (hflow.stored _ _ hk).1 _
  | dequeued _ => exact hzero
  | @engine k rest _ _ _ hburst hbody =>
      refine hzero.congr (keepsFlows_createFlowLoopBody hbody).serial fun k' _ => ?_
      exact counters_createFlowLoopBody (w := { w with burst := rest })
        (hflow.link_of_burst hburst) hbody k'
  | @aged portId aged _ =>
      cases aged with
      | none => exact hzero
      | some reports => exact unopenedZero_deleteTimeoutFlows hflow hzero portId reports
  | traffic _ _ _ => exact hzero
  | timeout _ => exact hzero

/-! ### Runs -/

/-- The guard: every batch of aged contexts counts once. -/
def CountsOnce (w : World) : OffloadEvent → Prop
  | .ageing portId aged => ∀ reports ∈ aged, CountsBatch w portId
      (reports.map fun report => (report, w.nic.owner report.flow))
  | _ => True

/-- **The accounting invariant**: the counters are right, and zero for the keys of calls
still to come. -/
structure AccountInv (w : World) (tr : List Obs) : Prop where
  accounted : Accounted w tr
  unopened : ∀ k, w.serial ≤ k.serial → (w.keys k).counters = (0, 0)

/-- Steps that show nothing and write no counter. -/
theorem AccountInv.congr {w w' : World} {tr : List Obs} (hinv : AccountInv w tr)
    (hserial : w'.serial = w.serial)
    (hcounters : ∀ k, (w'.keys k).counters = (w.keys k).counters) :
    AccountInv w' (tr ++ []) := by
  rw [List.append_nil]
  constructor
  · intro k
    rw [hcounters]
    exact hinv.accounted k
  · intro k hk
    rw [hserial] at hk
    rw [hcounters]
    exact hinv.unopened k hk

theorem accountInv_of_init {w : World} (h : offloadMachine.Init w) : AccountInv w [] := by
  obtain ⟨mode, port0, port1, portPool, readSpec, -, -, rfl⟩ := h
  exact ⟨fun _ => ⟨rfl, rfl⟩, fun _ _ => rfl⟩

/-- Opening a flow counts its first frame. -/
theorem accountInv_createFlow {w : World} {tr : List Obs} {m : RteMbuf} {t : RdarmFiveTuple}
    {env : PacketEnv} {r : PacketResult} (hinv : AccountInv w tr)
    (h : createFlow w m t env = some r) :
    AccountInv r.world (tr ++ .frame (.out w.serial) m.pktLen :: r.adds.map Obs.hashAdd) := by
  obtain ⟨hout, hback⟩ := counters_createFlow h
  constructor
  · intro k
    rw [amount_append, amount_cons, amount_hashAdds, add_zero]
    have hold := hinv.accounted k
    by_cases hk : k = .out w.serial
    · -- the key of this call has counted nothing yet
      subst hk
      rw [hinv.unopened _ (le_refl _)] at hold
      have hadd := hold.add (counted_frame m.pktLen)
      rw [hout]
      simpa [Obs.amount] using hadd
    · have hzero : (Obs.frame (.out w.serial) m.pktLen).amount k = 0 := if_neg (Ne.symm hk)
      rw [hzero, add_zero]
      by_cases hk' : k = .back w.serial
      · subst hk'
        rcases hback with heq | heq
        · rw [heq]
          exact hold
        · rw [heq, ← hinv.unopened (.back w.serial) (le_refl _)]
          exact hold
      · have hne : k.serial ≠ w.serial := by
          intro hs
          rcases k.eq_out_or_eq_back with heq | heq
          · exact hk (hs ▸ heq)
          · exact hk' (hs ▸ heq)
        rw [keys_of_createFlow h hne]
        exact hold
  · exact unopenedZero_createFlow hinv.unopened h

/-- A frame of a known flow is counted for its key. -/
theorem accountInv_known {w : World} {tr : List Obs} {k : KeyPtr} (hinv : AccountInv w tr)
    (hlt : k.serial < w.serial) (pktLen : UInt32) :
    AccountInv (requestOffload (countPacket w k pktLen) k) (tr ++ [.frame k pktLen]) := by
  constructor
  · intro k'
    rw [amount_append, amount_cons, amount_nil, add_zero, counters_requestOffload]
    by_cases hk : k' = k
    · subst hk
      rw [counters_countPacket_self]
      have hadd := (hinv.accounted k').add (counted_frame pktLen)
      simpa [Obs.amount] using hadd
    · have hzero : (Obs.frame k pktLen).amount k' = 0 := if_neg (Ne.symm hk)
      rw [hzero, add_zero, counters_countPacket_of_ne w hk]
      exact hinv.accounted k'
  · exact unopenedZero_known hinv.unopened hlt pktLen

/-- Ageing counts what it destroys, and writes to keys of opened flows only. -/
theorem accountInv_deleteTimeoutFlows {w : World} {tr : List Obs} {portId : UInt16}
    {reports : List AgedReport} (hflow : FlowInv w) (hinv : AccountInv w tr)
    (hbatch : CountsBatch w portId
      (reports.map fun report => (report, w.nic.owner report.flow))) :
    AccountInv (deleteTimeoutFlows w portId (some reports)).1
      (tr ++ (deleteTimeoutFlows w portId (some reports)).2.map Obs.nicCall) := by
  constructor
  · intro k
    rw [amount_append]
    exact counted_deleteTimeoutBatch _ hbatch (hinv.accounted k)
  · exact unopenedZero_deleteTimeoutFlows hflow hinv.unopened portId reports

/-- The step lemma. -/
theorem accountInv_step {w w' : World} {tr : List Obs} {e : OffloadEvent} {os : List Obs}
    (hflow : FlowInv w) (hinv : AccountInv w tr) (honce : CountsOnce w e)
    (h : Stepped w e w' os) : AccountInv w' (tr ++ os) := by
  cases h with
  | ignored _ => exact hinv.congr rfl fun _ => rfl
  | opened _ hr => exact accountInv_createFlow hinv hr
  | known hk => exact accountInv_known hinv (hflow.stored _ _ hk).1 _
  | dequeued _ => exact hinv.congr rfl fun _ => rfl
  | @engine k rest _ _ _ hburst hbody =>
      have hlink := hflow.link_of_burst hburst
      refine hinv.congr ?_ ?_
      · exact (keepsFlows_createFlowLoopBody hbody).serial
      · exact counters_createFlowLoopBody (w := { w with burst := rest }) hlink hbody
  | @aged portId aged _ =>
      cases aged with
      | none => exact hinv.congr rfl fun _ => rfl
      | some reports => exact accountInv_deleteTimeoutFlows hflow hinv (honce reports rfl)
  | traffic _ _ _ => exact hinv.congr rfl fun _ => rfl
  | timeout _ => exact hinv.congr rfl fun _ => rfl

/-- **When the counters are right.**  In a run whose every batch of aged contexts counts
once, every flow key holds, modulo 2^32, the packets and bytes of its frames and of
its destroyed rules. -/
theorem accounted_of_countsOnce {w₀ w : World} {es : List OffloadEvent} {tr : List Obs}
    (hinit : offloadMachine.Init w₀)
    (hrun : offloadMachine.RunWhile CountsOnce w₀ es tr w) : Accounted w tr := by
  have hinv : FlowInv w ∧ AccountInv w tr :=
    hrun.invariant (P := fun w tr => FlowInv w ∧ AccountInv w tr)
      ⟨flowInv_of_init hinit, accountInv_of_init hinit⟩
      fun hs honce hstep => ⟨flowInv_step hs.1 (stepped_of_step hstep),
        accountInv_step hs.1 hs.2 honce (stepped_of_step hstep)⟩
  exact hinv.2.accounted

instance (w : World) (portId : UInt16) (batch : List (AgedReport × Option KeyPtr)) :
    Decidable (CountsBatch w portId batch) :=
  decidable_of_iff
    ((∀ x ∈ batch, x.1.queryOk = x.1.destroyOk) ∧
      (∀ x ∈ batch, x.1.destroyOk = true → ∀ k ∈ x.2, ∀ flow ∈ (w.keys k).flow,
        w.nic.owner flow = some k ∧ w.nic.portOf flow = some portId) ∧
      batch.Pairwise fun x y => x.1.destroyOk = true → y.1.destroyOk = true →
        ∀ k ∈ x.2, y.2 ≠ some k)
    ⟨fun h => ⟨h.1, h.2.1, h.2.2⟩, fun h => ⟨h.outcome, h.live, h.once⟩⟩

instance (w : World) : DecidablePred (CountsOnce w)
  | .ageing portId aged => inferInstanceAs (Decidable (∀ reports ∈ aged,
      CountsBatch w portId (reports.map fun report => (report, w.nic.owner report.flow))))
  | .packet _ _ _ => inferInstanceAs (Decidable True)
  | .dequeueBurst => inferInstanceAs (Decidable True)
  | .flowEngine _ _ => inferInstanceAs (Decidable True)
  | .traffic _ _ _ => inferInstanceAs (Decidable True)
  | .timeout _ => inferInstanceAs (Decidable True)

/-- A flow that is offloaded and aged is counted. -/
theorem accounted_ageEvents :
    Accounted ((offloadMachine.exec initialSingle ageEvents).get ageRun_isSome).1
      ((offloadMachine.exec initialSingle ageEvents).get ageRun_isSome).2 :=
  accounted_of_countsOnce init_initialSingle
    ((Machine.run_exec_get ageRun_isSome).runWhile (by decide +kernel))

/-- A rule forwards 100 packets and times out; its first destroy fails after the query
has been merged, the second succeeds. -/
def retryEvents : List OffloadEvent :=
  offloadEvents ++ [.traffic 2 100 10000, .timeout 2,
    .ageing 0 (some [⟨2, true, (0, 0), false⟩]), .ageing 0 (some [⟨2, true, (0, 0), true⟩])]

theorem retryRun_isSome : (offloadMachine.exec initialSingle retryEvents).isSome = true := by
  decide +kernel

/-- **The counters of one rule are added twice**: 205 packets instead of 105. -/
theorem not_accounted_retryEvents :
    ∃ tr w, offloadMachine.Init initialSingle ∧
      offloadMachine.Run initialSingle retryEvents tr w ∧ ¬ Accounted w tr := by
  refine ⟨_, _, init_initialSingle, Machine.run_exec_get retryRun_isSome, fun h => ?_⟩
  have hwrong : ¬ Counted
      (((offloadMachine.exec initialSingle retryEvents).get retryRun_isSome).1.keys
        (.out 0)).counters
      (amount (.out 0)
        ((offloadMachine.exec initialSingle retryEvents).get retryRun_isSome).2) := by
    decide +kernel
  exact hwrong (h (.out 0))

end SmartOffload
