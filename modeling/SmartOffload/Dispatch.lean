import SmartOffload.Lib.MatchAction
import SmartOffload.Pairing

/-!
# How the NIC dispatches frames

The rules of a port are a match-action table.  `init_smto` puts two default rules
on `ports[0]`: everything IPv4 jumps from group 0 to group 1, and is spread over the
receive queues there unless a rule of better priority matches.  The offload rules
of all ports are in group 1.

What the table of a port holds in a reachable state is `RulesInv`: the default
rules stay, and every other rule is the offload rule of a flow key.  Its pattern has
the addresses and the protocol of the key's tuple; its ports are what the driver read
through a pointer to an object that was gone (`matches_generalOffloadPattern_iff`).

On the first port frames are then dispatched as they should be exactly if the ports
were read so (`dispatchedRight_port0_iff`), and on the second one while no rule for
them is installed there; group 1 of the second port is never entered, so a rule
installed there is dead (`dispatchedRight_iff`).
-/

namespace SmartOffload

open RuleTable

/-! ### Frames and patterns -/

/-- An untagged, option-less, unfragmented TCP or UDP frame. -/
structure RteMbuf.Plain (m : RteMbuf) : Prop where
  untagged : m.Untagged
  optionLess : m.OptionLess
  unfragmented : m.Unfragmented
  proto : m.proto = ipprotoTcp ∨ m.proto = ipprotoUdp

/-- The frames that rules are matched against here. -/
abbrev PlainFrame := {m : RteMbuf // m.Plain}

/-- `rte_flow_item_ipv4_mask`. -/
def rteFlowItemIpv4Mask : RteFlowItemIpv4 :=
  { srcAddr := 0xffffffff, dstAddr := 0xffffffff, nextProtoId := 0 }

/-- `rte_flow_item_tcp_mask` and `rte_flow_item_udp_mask`. -/
def rteFlowItemL4Mask : RteFlowItemL4 := { srcPort := 0xffff, dstPort := 0xffff }

/-- The fields of an IPv4 item that a mask selects. -/
def RteFlowItemIpv4.select (x mask : RteFlowItemIpv4) : RteFlowItemIpv4 where
  srcAddr := x.srcAddr &&& mask.srcAddr
  dstAddr := x.dstAddr &&& mask.dstAddr
  nextProtoId := x.nextProtoId &&& mask.nextProtoId

/-- The fields of a TCP or UDP item that a mask selects. -/
def RteFlowItemL4.select (x mask : RteFlowItemL4) : RteFlowItemL4 where
  srcPort := x.srcPort &&& mask.srcPort
  dstPort := x.dstPort &&& mask.dstPort

/-- What an IPv4 item sees of a frame. -/
def RteMbuf.ipv4Item (m : RteMbuf) : RteFlowItemIpv4 where
  srcAddr := m.addressing.src.1
  dstAddr := m.addressing.dst.1
  nextProtoId := m.proto

/-- What a TCP or UDP item sees of a frame. -/
def RteMbuf.l4Item (m : RteMbuf) : RteFlowItemL4 where
  srcPort := m.addressing.src.2
  dstPort := m.addressing.dst.2

/-- **When an item matches a plain frame.**  An item without `spec` matches its
protocol; an item without `mask` uses the default mask of its type. -/
def RteFlowItem.Matches (m : RteMbuf) : RteFlowItem → Prop
  | .eth => True
  | .ipv4 spec mask => ∀ s ∈ spec,
      m.ipv4Item.select (mask.getD rteFlowItemIpv4Mask) =
        s.select (mask.getD rteFlowItemIpv4Mask)
  | .void => True
  | .tcp spec mask => m.proto = ipprotoTcp ∧ ∀ s ∈ spec,
      m.l4Item.select (mask.getD rteFlowItemL4Mask) = s.select (mask.getD rteFlowItemL4Mask)
  | .udp spec mask => m.proto = ipprotoUdp ∧ ∀ s ∈ spec,
      m.l4Item.select (mask.getD rteFlowItemL4Mask) = s.select (mask.getD rteFlowItemL4Mask)
  | .endItem => True

/-- What the IPv4 item of a key's rule asks for. -/
def SmtoFlowKey.ipv4Item (k : SmtoFlowKey) : RteFlowItemIpv4 where
  srcAddr := k.tuple.ip1
  dstAddr := k.tuple.ip2
  nextProtoId := k.tuple.proto

/-- What the TCP or UDP item of a key's rule is written to ask for. -/
def SmtoFlowKey.l4Item (k : SmtoFlowKey) : RteFlowItemL4 where
  srcPort := k.tuple.port1
  dstPort := k.tuple.port2

theorem select_ipv4_full (x : RteFlowItemIpv4) :
    x.select { srcAddr := 0xffffffff, dstAddr := 0xffffffff, nextProtoId := 0xff } = x := by
  have h32 (v : UInt32) : v &&& 0xffffffff = v := UInt32.and_neg_one
  have h8 (v : UInt8) : v &&& 0xff = v := UInt8.and_neg_one
  simp [RteFlowItemIpv4.select, h32, h8]

theorem select_l4_default (x : RteFlowItemL4) : x.select rteFlowItemL4Mask = x := by
  have h16 (v : UInt16) : v &&& 0xffff = v := UInt16.and_neg_one
  simp [RteFlowItemL4.select, rteFlowItemL4Mask, h16]

/-- A tuple is a frame's if both items ask for what the frame has. -/
theorem tuple_eq_iff {k : SmtoFlowKey} {p : UInt8} {a : Addressing (UInt32 × UInt16)}
    (htuple : k.tuple = .ofAddressing p a) (m : RteMbuf) :
    k.tuple = getIpv4_5tuple m ipv4Mask ↔ k.ipv4Item = m.ipv4Item ∧ k.l4Item = m.l4Item := by
  rw [getIpv4_5tuple_eq, SmtoFlowKey.ipv4Item, SmtoFlowKey.l4Item, htuple,
    RdarmFiveTuple.ofAddressing_inj]
  obtain ⟨⟨ip1, port1⟩, ip2, port2⟩ := a
  generalize hb : m.addressing = b
  obtain ⟨⟨ip1', port1'⟩, ip2', port2'⟩ := b
  simp only [RteMbuf.ipv4Item, RteMbuf.l4Item, hb, RdarmFiveTuple.ofAddressing,
    RteFlowItemIpv4.mk.injEq, RteFlowItemL4.mk.injEq, Addressing.mk.injEq, Prod.mk.injEq]
  constructor
  · rintro ⟨rfl, ⟨rfl, rfl⟩, rfl, rfl⟩
    exact ⟨⟨rfl, rfl, rfl⟩, rfl, rfl⟩
  · rintro ⟨⟨rfl, rfl, rfl⟩, rfl, rfl⟩
    exact ⟨rfl, ⟨rfl, rfl⟩, rfl, rfl⟩

/-- **The pattern of a key matches** the frames with its addresses, its protocol and the
ports that were read, and no others. -/
theorem matches_generalOffloadPattern_iff {readSpec : RteFlowItemL4 → RteFlowItemL4}
    {k : SmtoFlowKey} {pattern : List RteFlowItem}
    (hp : generalOffloadPattern readSpec k = some pattern) (m : RteMbuf) :
    (∀ item ∈ pattern, item.Matches m) ↔
      k.ipv4Item = m.ipv4Item ∧ readSpec k.l4Item = m.l4Item := by
  have hproto : k.ipv4Item = m.ipv4Item → k.tuple.proto = m.proto :=
    congrArg RteFlowItemIpv4.nextProtoId
  rw [eq_comm (a := k.ipv4Item), eq_comm (a := readSpec k.l4Item)]
  unfold generalOffloadPattern at hp
  dsimp only at hp
  split at hp
  next htcp =>
    obtain rfl := Option.some.inj hp
    simp only [List.forall_mem_cons, RteFlowItem.Matches, Option.mem_some_iff, forall_eq',
      Option.getD_some, Option.getD_none, select_ipv4_full, select_l4_default, true_and,
      and_true, List.not_mem_nil, false_implies, implies_true]
    exact and_congr_right fun h => and_iff_right ((hproto h.symm).symm.trans htcp)
  · split at hp
    next hudp =>
      obtain rfl := Option.some.inj hp
      simp only [List.forall_mem_cons, RteFlowItem.Matches, Option.mem_some_iff, forall_eq',
        Option.getD_some, Option.getD_none, select_ipv4_full, select_l4_default, true_and,
        and_true, List.not_mem_nil, false_implies, implies_true]
      exact and_congr_right fun h => and_iff_right ((hproto h.symm).symm.trans hudp)
    · cases hp

/-! ### The table of a port -/

/-- The group a rule sends frames to, if it does. -/
def RteFlow.jump (r : RteFlow) : Option ℕ :=
  r.actions.findSome? fun
    | .jump group => some group
    | _ => none

/-- A rule as an entry of a match-action table. -/
def RteFlow.matchRule (r : RteFlow) : MatchRule PlainFrame where
  group := r.attr.group
  priority := r.attr.priority
  Matches m := r.attr.ingress = true ∧ ∀ item ∈ r.pattern, item.Matches m.1
  jump := r.jump

/-- **The table of a port**: the rules installed on it. -/
def Nic.table (nic : Nic) (portId : UInt16) : RuleTable FlowHandle PlainFrame := fun h =>
  match nic.flows h with
  | some r => if r.portId = portId then some r.matchRule else none
  | none => none

theorem Nic.table_eq_some_iff {nic : Nic} {portId : UInt16} {h : FlowHandle}
    {x : MatchRule PlainFrame} :
    nic.table portId h = some x ↔ ∃ r, nic.flows h = some r ∧ r.portId = portId ∧
      r.matchRule = x := by
  unfold Nic.table
  cases nic.flows h with
  | none => simp
  | some r => simp

/-- What identifies a rule: everything but its counters and its age. -/
def RteFlow.spec (r : RteFlow) : RteFlow := { r with hits := 0, bytes := 0, aged := false }

@[simp] theorem spec_offloadRule (portId : UInt16) (k : KeyPtr) (pattern : List RteFlowItem) :
    (offloadRule portId k pattern).spec = offloadRule portId k pattern := rfl

/-- The rule of `create_default_jump_flow`. -/
def defaultJumpRule (portId : UInt16) : RteFlow where
  portId := portId
  attr := { group := 0, priority := 0, ingress := true }
  pattern := [.eth, .ipv4 none none, .void, .endItem]
  actions := [.jump 1, .endAction]
  hits := 0
  bytes := 0
  aged := false

/-- The rule of `create_default_rss_flow`. -/
def defaultRssRule (portId : UInt16) : RteFlow where
  portId := portId
  attr := { group := 1, priority := 1, ingress := true }
  pattern := [.eth, .ipv4 none none, .void, .endItem]
  actions := [.rss { level := 1, queue := List.range generalQueuesQuantity, types := ethRssIp,
                     key := symmetricRssKey },
    .endAction]
  hits := 0
  bytes := 0
  aged := false

theorem initialNic_eq (readSpec : FlowHandle → RteFlowItemL4 → RteFlowItemL4)
    (port0 : UInt16) :
    initialNic readSpec port0 =
      ((Nic.empty readSpec).install (defaultJumpRule port0)).install (defaultRssRule port0) :=
  rfl

/-! ### What the NIC holds -/

/-- The rule of a flow key, with the pattern read for its handle. -/
def IsOffloadRule (w : World) (h : FlowHandle) (r : RteFlow) : Prop :=
  ∃ k pattern, generalOffloadPattern (w.nic.readSpec h) (w.keys k) = some pattern ∧
    r.spec = offloadRule r.portId k pattern

/-- **What the NIC holds**: the default rules of the first port under the first two
handles, and offload rules under the others.  No key holds a handle of a default
rule, so none is ever destroyed. -/
structure RulesInv (w : World) : Prop where
  jump : (w.nic.flows 0).map RteFlow.spec = some (defaultJumpRule w.port0)
  rss : (w.nic.flows 1).map RteFlow.spec = some (defaultRssRule w.port0)
  offload : ∀ (h : ℕ) (r : RteFlow), w.nic.flows h = some r → 2 ≤ h → IsOffloadRule w h r
  handles : ∀ (k : KeyPtr) (h : ℕ), (w.keys k).flow = some h → 2 ≤ h
  next : 2 ≤ w.nic.next

/-- From one NIC to another the default rules stay, and every rule was there before or
is one of the new ones. -/
structure RulesKept (New : FlowHandle → RteFlow → Prop) (nic nic' : Nic) : Prop where
  next : nic.next ≤ nic'.next
  readSpec : nic'.readSpec = nic.readSpec
  default : ∀ h : ℕ, h < 2 → (nic'.flows h).map RteFlow.spec = (nic.flows h).map RteFlow.spec
  rules : ∀ (h : ℕ) (r : RteFlow), nic'.flows h = some r →
    (∃ r₀, nic.flows h = some r₀ ∧ r.spec = r₀.spec) ∨ New h r

namespace RulesKept

variable {New : FlowHandle → RteFlow → Prop} {nic : Nic}

theorem refl (nic : Nic) : RulesKept New nic nic where
  next := le_refl _
  readSpec := rfl
  default _ _ := rfl
  rules _ r hr := Or.inl ⟨r, hr, rfl⟩

theorem modify (h : FlowHandle) {f : RteFlow → RteFlow} (hf : ∀ r, (f r).spec = r.spec) :
    RulesKept New nic (nic.modify h f) where
  next := le_refl _
  readSpec := rfl
  default h' _ := by
    rw [Nic.flows_modify]
    split
    next heq =>
      rw [heq, Option.map_map]
      exact congrArg (fun g => (nic.flows h).map g) (funext hf)
    · rfl
  rules h' r hr := by
    rw [Nic.flows_modify] at hr
    split at hr
    next heq =>
      obtain ⟨r₀, hr₀, rfl⟩ := Option.map_eq_some_iff.mp hr
      exact Or.inl ⟨r₀, heq ▸ hr₀, hf r₀⟩
    · exact Or.inl ⟨r, hr, rfl⟩

theorem destroy {flow : ℕ} (hflow : 2 ≤ flow) (portId : UInt16) (ok : Bool) :
    RulesKept New nic (rteFlowDestroy nic portId flow ok).2 := by
  rcases rteFlowDestroy_cases nic portId flow ok with heq | heq <;> rw [heq]
  · exact .refl nic
  · refine ⟨le_refl _, rfl, fun h hlt => ?_, fun h r hr => ?_⟩
    · rw [Nic.flows_remove, if_neg (hlt.trans_le hflow).ne]
    · rw [Nic.flows_remove] at hr
      split at hr
      · cases hr
      · exact Or.inl ⟨r, hr, rfl⟩

theorem install {r : RteFlow} (hnext : 2 ≤ nic.next) (hnew : New nic.next r) :
    RulesKept New nic (nic.install r) where
  next := Nat.le_succ nic.next
  readSpec := rfl
  default h hlt := by
    rw [Nic.flows_install, if_neg (hlt.trans_le hnext).ne]
  rules h r' hr' := by
    rw [Nic.flows_install] at hr'
    split at hr'
    next heq =>
      obtain rfl := Option.some.inj hr'
      exact Or.inr (heq ▸ hnew)
    · exact Or.inl ⟨r', hr', rfl⟩

end RulesKept

/-- The pattern of a key is built from its tuple. -/
theorem generalOffloadPattern_congr {k k' : SmtoFlowKey} (h : k.tuple = k'.tuple)
    (readSpec : RteFlowItemL4 → RteFlowItemL4) :
    generalOffloadPattern readSpec k = generalOffloadPattern readSpec k' := by
  unfold generalOffloadPattern
  rw [h]

theorem ageContext_spec (r : RteFlow) : r.spec.ageContext = r.ageContext := rfl

/-- An offload rule stays one while the tuple of its key does. -/
theorem IsOffloadRule.congr {w w' : World} {h : FlowHandle} {r r' : RteFlow}
    (hrule : IsOffloadRule w h r) (hspec : r'.spec = r.spec)
    (hread : w'.nic.readSpec = w.nic.readSpec)
    (htuple : ∀ k, r.ageContext = some k → (w'.keys k).tuple = (w.keys k).tuple) :
    IsOffloadRule w' h r' := by
  obtain ⟨k, pattern, hp, hr⟩ := hrule
  have hport : r'.portId = r.portId := by
    show r'.spec.portId = r.spec.portId
    rw [hspec]
  have hcontext : r.ageContext = some k := by
    rw [← ageContext_spec, hr, offloadRule_ageContext]
  refine ⟨k, pattern, ?_, ?_⟩
  · rw [hread, generalOffloadPattern_congr (htuple k hcontext), hp]
  · rw [hspec, hr, hport]

/-- **The invariant survives** what keeps the default rules, the tuples of owners and
the handles. -/
theorem RulesInv.of_kept {w w' : World} (hinv : RulesInv w) (hport : w'.port0 = w.port0)
    (hkept : RulesKept (IsOffloadRule w') w.nic w'.nic)
    (htuple : ∀ h k, w.nic.owner h = some k → (w'.keys k).tuple = (w.keys k).tuple)
    (hflow : ∀ (k : KeyPtr) (h : ℕ), (w'.keys k).flow = some h →
      (w.keys k).flow = some h ∨ 2 ≤ h) : RulesInv w' where
  jump := by rw [hkept.default 0 (by decide), hport, hinv.jump]
  rss := by rw [hkept.default 1 (by decide), hport, hinv.rss]
  offload h r hr hle := by
    rcases hkept.rules h r hr with ⟨r₀, hr₀, hspec⟩ | hnew
    · refine (hinv.offload h r₀ hr₀ hle).congr hspec hkept.readSpec fun k hk => htuple h k ?_
      rw [Nic.owner, hr₀]
      exact hk
    · exact hnew
  handles k h hk := (hflow k h hk).elim (hinv.handles k h) id
  next := hinv.next.trans hkept.next

/-- Keeping flows, handles and the NIC keeps the invariant. -/
theorem RulesInv.of_keepsFlows {w w' : World} (hinv : RulesInv w) (hkeep : KeepsFlows w w')
    (hkept : RulesKept (IsOffloadRule w') w.nic w'.nic)
    (hflow : ∀ k, (w'.keys k).flow = (w.keys k).flow) : RulesInv w' :=
  hinv.of_kept hkeep.port0 hkept (fun _ k _ => hkeep.tuple k) fun k h hk => by
    rw [hflow k] at hk
    exact Or.inl hk

theorem rulesInv_of_init {w : World} (h : offloadMachine.Init w) : RulesInv w := by
  obtain ⟨mode, port0, port1, portPool, readSpec, -, -, rfl⟩ := h
  have hflows : ∀ h : ℕ, (initialWorld mode port0 port1 portPool readSpec).nic.flows h =
      if h = 1 then some (defaultRssRule port0)
      else if h = 0 then some (defaultJumpRule port0) else none := by
    intro h
    rw [initialWorld, initialNic_eq, Nic.flows_install, Nic.flows_install]
    rfl
  constructor
  · rw [hflows]
    rfl
  · rw [hflows]
    rfl
  · intro h r hr hle
    rw [hflows, if_neg (by omega), if_neg (by omega)] at hr
    cases hr
  · intro k h hk
    simp [initialWorld, SmtoFlowKey.zeroed] at hk
  · exact le_refl 2

/-- **Offloading a key keeps the invariant**: a new rule has the pattern of its key and
a handle past the default ones. -/
theorem rulesInv_offloadKey {w : World} (hinv : RulesInv w) (portId : UInt16) (k : KeyPtr)
    (ok : Bool) : RulesInv (offloadKey w portId k ok).2 := by
  have hkeep := keepsFlows_offloadKey w portId k ok
  refine hinv.of_kept hkeep.port0 ?_ (fun _ k _ => hkeep.tuple k) fun k' h hk => ?_
  · rcases nic_offloadKey_cases w portId k ok with hnic | ⟨pattern, hp, hnic⟩
    · rw [hnic]
      exact .refl _
    · rw [hnic]
      refine .install hinv.next ⟨k, pattern, ?_, rfl⟩
      rw [hnic, generalOffloadPattern_congr (hkeep.tuple k)]
      exact hp
  · rcases flow_offloadKey hk with hk | rfl
    · exact Or.inl hk
    · exact Or.inr hinv.next

theorem rulesInv_createFlowLoopBody {w w' : World} {k : KeyPtr} {ok okSymmetrical : Bool}
    (hinv : RulesInv w) (h : createFlowLoopBody w k ok okSymmetrical = some w') :
    RulesInv w' := by
  have hfirst : RulesInv (offloadKey w w.port0 k ok).2 := rulesInv_offloadKey hinv _ k ok
  unfold createFlowLoopBody at h
  split at h
  next w₁ heq =>
    rw [heq] at hfirst
    obtain rfl := Option.some.inj h
    exact hfirst
  next w₁ heq =>
    rw [heq] at hfirst
    split at h
    · cases h
    next partner _ =>
      obtain rfl := Option.some.inj h
      exact rulesInv_offloadKey hfirst _ partner okSymmetrical

/-- **Handling a context keeps the invariant**: the rule destroyed is named by a key. -/
theorem rulesInv_deleteTimeoutFlow {w : World} (hinv : RulesInv w) (portId : UInt16)
    (report : AgedReport) (context : Option KeyPtr) :
    RulesInv (deleteTimeoutFlow w portId report context).1 := by
  refine hinv.of_keepsFlows (keepsFlows_deleteTimeoutFlow w portId report context) ?_
    fun k => flow_deleteTimeoutFlow w portId report context k
  rcases deleteTimeoutFlow_cases w portId report context with
    ⟨heq, -⟩ | ⟨k, flow, -, hflow, heq⟩
  · rw [heq]
    exact .refl _
  · rw [heq, destroyTimeoutFlow_nic, mergeCounter_nic]
    exact .destroy (hinv.handles k flow hflow) portId _

theorem rulesInv_deleteTimeoutBatch {portId : UInt16}
    (batch : List (AgedReport × Option KeyPtr)) :
    ∀ {w : World}, RulesInv w → RulesInv (deleteTimeoutBatch w portId batch).1 := by
  induction batch with
  | nil => exact fun hinv => hinv
  | cons x rest ih => exact fun hinv => ih (rulesInv_deleteTimeoutFlow hinv portId x.1 x.2)

/-- The step lemma. -/
theorem rulesInv_step {w w' : World} {e : OffloadEvent} {os : List Obs} (hflow : FlowInv w)
    (hinv : RulesInv w) (h : Stepped w e w' os) : RulesInv w' := by
  have hconfig := config_of_stepped h
  cases h with
  | ignored _ => exact hinv
  | opened _ hr =>
      obtain ⟨-, hnic, -, -⟩ := frame_of_createFlow hr
      refine hinv.of_kept hconfig.2.1 ?_ ?_ fun k h hk => ?_
      · rw [hnic]
        exact .refl _
      · intro h k ho
        rw [keys_of_createFlow hr (hflow.owned h k ho).1.ne]
      · rcases keys_createFlow_cases hr k with heq | ⟨-, -, hnone⟩
        · rw [heq] at hk
          exact Or.inl hk
        · rw [hnone] at hk
          cases hk
  | @known _ m _ k _ =>
      refine hinv.of_keepsFlows ((keepsFlows_countPacket w k m.pktLen).trans
        (keepsFlows_requestOffload _ k)) ?_ fun k' => ?_
      · rw [requestOffload_nic]
        exact .refl _
      · rw [flow_requestOffload, flow_countPacket]
  | dequeued _ => exact hinv.of_keepsFlows (.setQueue w _ _) (.refl _) fun _ => rfl
  | @engine k rest _ _ _ _ hbody =>
      refine rulesInv_createFlowLoopBody (w := { w with burst := rest }) ?_ hbody
      exact hinv.of_keepsFlows (.setQueue w _ _) (.refl _) fun _ => rfl
  | @aged portId aged _ =>
      cases aged with
      | none => exact hinv
      | some reports => exact rulesInv_deleteTimeoutBatch _ hinv
  | traffic flow hits bytes =>
      exact hinv.of_keepsFlows (.setNic w _) (.modify flow fun _ => rfl) fun _ => rfl
  | timeout flow =>
      exact hinv.of_keepsFlows (.setNic w _) (.modify flow fun _ => rfl) fun _ => rfl

/-- **The invariant holds in every reachable state.** -/
theorem rulesInv_of_reachable {w : World} (h : offloadMachine.Reachable w) :
    FlowInv w ∧ RulesInv w :=
  h.state_invariant (P := fun w => FlowInv w ∧ RulesInv w)
    (fun _ hinit => ⟨flowInv_of_init hinit, rulesInv_of_init hinit⟩)
    fun hinv hstep => ⟨flowInv_step hinv.1 (stepped_of_step hstep),
      rulesInv_step hinv.1 hinv.2 (stepped_of_step hstep)⟩

/-! ### What the driver reads -/

theorem readSpec_offloadKey (w : World) (portId : UInt16) (k : KeyPtr) (ok : Bool) :
    (offloadKey w portId k ok).2.nic.readSpec = w.nic.readSpec := by
  rcases nic_offloadKey_cases w portId k ok with hnic | ⟨pattern, -, hnic⟩ <;> rw [hnic]
  rfl

theorem readSpec_createFlowLoopBody {w w' : World} {k : KeyPtr} {ok okSymmetrical : Bool}
    (h : createFlowLoopBody w k ok okSymmetrical = some w') :
    w'.nic.readSpec = w.nic.readSpec := by
  have hfirst := readSpec_offloadKey w w.port0 k ok
  unfold createFlowLoopBody at h
  split at h
  next w₁ heq =>
    rw [heq] at hfirst
    rw [← Option.some.inj h, hfirst]
  next w₁ heq =>
    rw [heq] at hfirst
    split at h
    · cases h
    next partner _ =>
      rw [← Option.some.inj h, readSpec_offloadKey, hfirst]

theorem readSpec_deleteTimeoutFlow (w : World) (portId : UInt16) (report : AgedReport)
    (context : Option KeyPtr) :
    (deleteTimeoutFlow w portId report context).1.nic.readSpec = w.nic.readSpec := by
  rcases deleteTimeoutFlow_cases w portId report context with
    ⟨heq, -⟩ | ⟨k, flow, -, -, heq⟩
  · rw [heq]
  · rw [heq, destroyTimeoutFlow_nic, mergeCounter_nic]
    rcases rteFlowDestroy_cases w.nic portId flow report.destroyOk with hnic | hnic <;> rw [hnic]
    rfl

theorem readSpec_deleteTimeoutBatch (portId : UInt16)
    (batch : List (AgedReport × Option KeyPtr)) :
    ∀ w : World, (deleteTimeoutBatch w portId batch).1.nic.readSpec = w.nic.readSpec := by
  induction batch with
  | nil => exact fun _ => rfl
  | cons x rest ih => exact fun w => (ih _).trans (readSpec_deleteTimeoutFlow w portId x.1 x.2)

/-- The step lemma: it stays what it was. -/
theorem readSpec_of_stepped {w w' : World} {e : OffloadEvent} {os : List Obs}
    (h : Stepped w e w' os) : w'.nic.readSpec = w.nic.readSpec := by
  cases h with
  | ignored _ => rfl
  | opened _ hr => rw [(frame_of_createFlow hr).2.1]
  | known _ => rw [requestOffload_nic]; rfl
  | dequeued _ => rfl
  | @engine _ rest _ _ _ _ hbody =>
      exact readSpec_createFlowLoopBody (w := { w with burst := rest }) hbody
  | @aged portId aged _ =>
      cases aged with
      | none => rfl
      | some reports => exact readSpec_deleteTimeoutBatch portId _ w
  | traffic flow hits bytes => rfl
  | timeout flow => rfl

theorem readSpec_of_run {w₀ w : World} {es : List OffloadEvent} {tr : List Obs}
    (hrun : offloadMachine.Run w₀ es tr w) : w.nic.readSpec = w₀.nic.readSpec :=
  hrun.state_invariant (P := fun w => w.nic.readSpec = w₀.nic.readSpec) rfl
    fun hread _ hstep => (readSpec_of_stepped (stepped_of_step hstep)).trans hread

/-! ### Where frames go -/

/-- The receive queues a rule may send frames to. -/
def RteFlow.queues (r : RteFlow) : List ℕ :=
  r.actions.flatMap fun
    | .queue index => [index]
    | .rss conf => conf.queue
    | _ => []

/-- The queue for frames that no rule matches. -/
def defaultReceiveQueue : ℕ := 0

/-- The receive queues a frame may be delivered to. -/
def Nic.receiveQueues (nic : Nic) : Option FlowHandle → List ℕ
  | none => [defaultReceiveQueue]
  | some h => ((nic.flows h).map RteFlow.queues).getD []

/-- A rule for the frame's exact tuple is installed on the port, under `h`, for `k`. -/
structure LiveRule (w : World) (portId : UInt16) (m : RteMbuf) (h : FlowHandle)
    (k : KeyPtr) : Prop where
  owner : w.nic.owner h = some k
  port : w.nic.portOf h = some portId
  tuple : (w.keys k).tuple = getIpv4_5tuple m ipv4Mask

/-- **A rule catches a frame**: it has the frame's addresses and protocol, and the driver
has read the frame's ports for it. -/
structure Catches (w : World) (portId : UInt16) (m : RteMbuf) (h : FlowHandle)
    (k : KeyPtr) : Prop where
  owner : w.nic.owner h = some k
  port : w.nic.portOf h = some portId
  addresses : (w.keys k).ipv4Item = m.ipv4Item
  ports : w.nic.readSpec h (w.keys k).l4Item = m.l4Item

/-- **The ports are read right** for a frame: only rules of its tuple catch it, and one does
if there is one. -/
structure ReadRight (w : World) (portId : UInt16) (m : RteMbuf) : Prop where
  own : ∀ h k, Catches w portId m h k → (w.keys k).tuple = getIpv4_5tuple m ipv4Mask
  caught : (∃ h k, LiveRule w portId m h k) → ∃ h k, Catches w portId m h k

/-- Handled by a rule of the flow: sent to the hairpin queue, counted, and aged for the
flow key. -/
def HandledForFlow (w : World) (portId : UInt16) (m : RteMbuf) : Option FlowHandle → Prop
  | none => False
  | some h => ∃ k r, LiveRule w portId m h k ∧ w.nic.flows h = some r ∧
      r.queues = [hairpinQueueIndex] ∧ .count ∈ r.actions ∧
      .age k flowTimeoutSecond ∈ r.actions

/-- Delivered to one of the general receive queues. -/
def DeliveredToGeneral (nic : Nic) (o : Option FlowHandle) : Prop :=
  nic.receiveQueues o ≠ [] ∧ ∀ q ∈ nic.receiveQueues o, q < generalQueuesQuantity

/-- The default queue is a general one. -/
theorem deliveredToGeneral_none (nic : Nic) : DeliveredToGeneral nic none := by
  refine ⟨List.cons_ne_nil _ _, fun q hq => ?_⟩
  rw [List.mem_singleton.mp hq]
  decide

/-- **Dispatch is right** for a frame on a port: the table decides, and whatever it may
decide, a frame with a live rule is handled for its flow, and one without is delivered
to a general queue. -/
structure DispatchedRight (w : World) (portId : UInt16) (m : PlainFrame) : Prop where
  decided : ∃ o, Handled (w.nic.table portId) m 0 o
  offloaded : ∀ o, Handled (w.nic.table portId) m 0 o →
    (∃ h k, LiveRule w portId m.1 h k) → HandledForFlow w portId m.1 o
  received : ∀ o, Handled (w.nic.table portId) m 0 o →
    (∀ h k, ¬ LiveRule w portId m.1 h k) → DeliveredToGeneral w.nic o

/-! ### The candidates -/

/-- The fields of an offload rule. -/
theorem IsOffloadRule.fields {w : World} {h : FlowHandle} {r : RteFlow}
    (hrule : IsOffloadRule w h r) :
    ∃ k, generalOffloadPattern (w.nic.readSpec h) (w.keys k) = some r.pattern ∧
      r.ageContext = some k ∧ r.attr = { group := 1, priority := 0, ingress := true } ∧
      r.actions = generalOffloadActions k := by
  obtain ⟨k, pattern, hp, hspec⟩ := hrule
  have hpattern := congrArg RteFlow.pattern hspec
  have hattr := congrArg RteFlow.attr hspec
  have hactions := congrArg RteFlow.actions hspec
  have hcontext := congrArg RteFlow.ageContext hspec
  refine ⟨k, hp.trans (congrArg some hpattern.symm), hcontext, hattr, hactions⟩

/-- A rule with the identity of a default one. -/
theorem eq_of_map_spec {o : Option RteFlow} {r₀ : RteFlow} (h : o.map RteFlow.spec = some r₀) :
    ∃ r, o = some r ∧ r.portId = r₀.portId ∧ r.attr = r₀.attr ∧ r.pattern = r₀.pattern ∧
      r.actions = r₀.actions := by
  obtain ⟨r, rfl, rfl⟩ := Option.map_eq_some_iff.mp h
  exact ⟨r, rfl, rfl, rfl, rfl, rfl⟩

/-- The default pattern matches every plain frame. -/
theorem matches_default (m : RteMbuf) :
    ∀ item ∈ [RteFlowItem.eth, .ipv4 none none, .void, .endItem], item.Matches m := by
  simp [RteFlowItem.Matches]

/-- A default rule is a candidate for every frame, in its group on its port. -/
theorem exists_candidate_of_default {nic : Nic} {h : ℕ} {r₀ : RteFlow}
    (hspec : (nic.flows h).map RteFlow.spec = some r₀) (hingress : r₀.attr.ingress = true)
    (hdefault : r₀.pattern = [.eth, .ipv4 none none, .void, .endItem]) (m : PlainFrame) :
    ∃ x, Candidate (nic.table r₀.portId) r₀.attr.group m h x := by
  obtain ⟨r, hr, hport, hattr, hpattern, -⟩ := eq_of_map_spec hspec
  refine ⟨r.matchRule, Nic.table_eq_some_iff.mpr ⟨r, hr, hport, rfl⟩, ?_, ?_, ?_⟩
  · exact congrArg RteFlowAttr.group hattr
  · exact (congrArg RteFlowAttr.ingress hattr).trans hingress
  · rw [hpattern, hdefault]
    exact matches_default m.1

section

variable {w : World} (hinv : RulesInv w)
include hinv

/-- The first port lets every frame jump from group 0 to group 1. -/
theorem RulesInv.candidate_jump (m : PlainFrame) :
    ∃ x, Candidate (w.nic.table w.port0) 0 m (0 : ℕ) x :=
  exists_candidate_of_default hinv.jump rfl rfl m

/-- The first port spreads every frame in group 1, if nothing better matches. -/
theorem RulesInv.candidate_rss (m : PlainFrame) :
    ∃ x, Candidate (w.nic.table w.port0) 1 m (1 : ℕ) x :=
  exists_candidate_of_default hinv.rss rfl rfl m

/-- The default rules belong to no key. -/
theorem RulesInv.two_le_of_owner {h : ℕ} {k : KeyPtr} (ho : w.nic.owner h = some k) :
    2 ≤ h := by
  have hnone : ∀ {h : ℕ} {r₀ : RteFlow}, (w.nic.flows h).map RteFlow.spec = some r₀ →
      r₀.ageContext = none → w.nic.owner h = none := by
    intro h r₀ hspec hcontext
    obtain ⟨r, hr, -, -, -, hactions⟩ := eq_of_map_spec hspec
    rw [Nic.owner, hr, Option.bind_some, RteFlow.ageContext, hactions]
    exact hcontext
  by_contra hlt
  obtain rfl | rfl : h = 0 ∨ h = 1 := by omega
  · rw [hnone hinv.jump rfl] at ho
    cases ho
  · rw [hnone hinv.rss rfl] at ho
    cases ho

/-- **The candidates of group 0**: only the jump rule, on the first port. -/
theorem RulesInv.candidate_zero {portId : UInt16} {m : PlainFrame} {h : ℕ}
    {x : MatchRule PlainFrame} (hc : Candidate (w.nic.table portId) 0 m h x) :
    portId = w.port0 ∧ x.jump = some 1 := by
  obtain ⟨r, hr, rfl, rfl⟩ := Nic.table_eq_some_iff.mp hc.installed
  have hgroup : r.attr.group = 0 := hc.group
  rcases Nat.lt_or_ge h 2 with hlt | hge
  · obtain rfl | rfl : h = 0 ∨ h = 1 := by omega
    · obtain ⟨r', hr', hport, -, -, hactions⟩ := eq_of_map_spec hinv.jump
      rw [hr] at hr'
      obtain rfl := Option.some.inj hr'
      refine ⟨hport, ?_⟩
      show r.jump = some 1
      rw [RteFlow.jump, hactions]
      rfl
    · obtain ⟨r', hr', -, hattr, -⟩ := eq_of_map_spec hinv.rss
      rw [hr] at hr'
      obtain rfl := Option.some.inj hr'
      rw [hattr] at hgroup
      cases hgroup
  · obtain ⟨k, -, -, hattr, -⟩ := (hinv.offload h r hr hge).fields
    rw [hattr] at hgroup
    cases hgroup

/-- **The candidates of group 1**: the spreading rule, after all rules that catch the
frame. -/
theorem RulesInv.candidate_one {portId : UInt16} {m : PlainFrame} {h : ℕ}
    {x : MatchRule PlainFrame} (hc : Candidate (w.nic.table portId) 1 m h x) :
    x.jump = none ∧
      (x.priority = 1 ∧ DeliveredToGeneral w.nic (some h) ∨
        x.priority = 0 ∧ ∃ k r, Catches w portId m.1 h k ∧ w.nic.flows h = some r ∧
          r.actions = generalOffloadActions k) := by
  obtain ⟨r, hr, rfl, rfl⟩ := Nic.table_eq_some_iff.mp hc.installed
  have hgroup : r.attr.group = 1 := hc.group
  rcases Nat.lt_or_ge h 2 with hlt | hge
  · obtain rfl | rfl : h = 0 ∨ h = 1 := by omega
    · obtain ⟨r', hr', -, hattr, -⟩ := eq_of_map_spec hinv.jump
      rw [hr] at hr'
      obtain rfl := Option.some.inj hr'
      rw [hattr] at hgroup
      cases hgroup
    · obtain ⟨r', hr', -, hattr, -, hactions⟩ := eq_of_map_spec hinv.rss
      rw [hr] at hr'
      obtain rfl := Option.some.inj hr'
      have hqueues : r.queues = List.range generalQueuesQuantity := by
        rw [RteFlow.queues, hactions]
        simp [defaultRssRule]
      refine ⟨?_, Or.inl ⟨congrArg RteFlowAttr.priority hattr, ?_⟩⟩
      · show r.jump = none
        rw [RteFlow.jump, hactions]
        rfl
      · have hto : w.nic.receiveQueues (some (1 : ℕ)) = List.range generalQueuesQuantity := by
          rw [Nic.receiveQueues, hr, Option.map_some, Option.getD_some, hqueues]
        rw [DeliveredToGeneral, hto]
        exact ⟨by decide, fun q hq => List.mem_range.mp hq⟩
  · obtain ⟨k, hp, hcontext, hattr, hactions⟩ := (hinv.offload h r hr hge).fields
    have ho : w.nic.owner h = some k := by rw [Nic.owner, hr, Option.bind_some, hcontext]
    have hport : w.nic.portOf h = some r.portId := by rw [Nic.portOf, hr, Option.map_some]
    obtain ⟨haddresses, hports⟩ :=
      (matches_generalOffloadPattern_iff hp m.1).mp hc.matched.2
    refine ⟨?_, Or.inr ⟨congrArg RteFlowAttr.priority hattr, k, r,
      ⟨ho, hport, haddresses, hports⟩, hr, hactions⟩⟩
    show r.jump = none
    rw [RteFlow.jump, hactions]
    rfl

/-- The rule of a key. -/
theorem RulesInv.rule_of_owner {h : ℕ} {k : KeyPtr} (ho : w.nic.owner h = some k) :
    ∃ r, w.nic.flows h = some r ∧
      generalOffloadPattern (w.nic.readSpec h) (w.keys k) = some r.pattern ∧
      r.attr = { group := 1, priority := 0, ingress := true } ∧
      r.actions = generalOffloadActions k := by
  obtain ⟨r, hr, hcontext⟩ := Option.bind_eq_some_iff.mp ho
  obtain ⟨k', hp, hcontext', hattr, hactions⟩ :=
    (hinv.offload h r hr (hinv.two_le_of_owner ho)).fields
  rw [hcontext] at hcontext'
  obtain rfl := Option.some.inj hcontext'
  exact ⟨r, hr, hp, hattr, hactions⟩

/-- A rule that catches a frame is a candidate of the best priority. -/
theorem RulesInv.candidate_of_catches {portId : UInt16} {m : PlainFrame} {h : FlowHandle}
    {k : KeyPtr} (hcatch : Catches w portId m.1 h k) :
    ∃ x, Candidate (w.nic.table portId) 1 m h x ∧ x.priority = 0 := by
  obtain ⟨r, hr, hp, hattr, -⟩ := hinv.rule_of_owner hcatch.owner
  have hport := hcatch.port
  rw [Nic.portOf, hr, Option.map_some, Option.some.injEq] at hport
  refine ⟨r.matchRule, ⟨Nic.table_eq_some_iff.mpr ⟨r, hr, hport, rfl⟩, ?_, ?_, ?_⟩, ?_⟩
  · exact congrArg RteFlowAttr.group hattr
  · exact congrArg RteFlowAttr.ingress hattr
  · exact (matches_generalOffloadPattern_iff hp m.1).mpr ⟨hcatch.addresses, hcatch.ports⟩
  · exact congrArg RteFlowAttr.priority hattr

/-- Frames under the rule of a key are not for a general queue. -/
theorem RulesInv.not_delivered_of_owner {h : FlowHandle} {k : KeyPtr}
    (ho : w.nic.owner h = some k) : ¬ DeliveredToGeneral w.nic (some h) := by
  obtain ⟨r, hr, -, -, hactions⟩ := hinv.rule_of_owner ho
  have hto : w.nic.receiveQueues (some h) = [hairpinQueueIndex] := by
    rw [Nic.receiveQueues, hr, Option.map_some, Option.getD_some, RteFlow.queues, hactions]
    rfl
  intro hdelivered
  rw [DeliveredToGeneral, hto] at hdelivered
  exact absurd (hdelivered.2 _ (List.mem_singleton_self _)) (by decide)

end

/-! ### Right dispatch -/

/-- **The first port decides in group 1.** -/
theorem handled_port0_iff {w : World} (hinv : RulesInv w) (m : PlainFrame)
    (o : Option FlowHandle) :
    Handled (w.nic.table w.port0) m 0 o ↔
      ∃ h x, o = some h ∧ Wins (w.nic.table w.port0) 1 m h x := by
  obtain ⟨jump, hjump⟩ := hinv.candidate_jump m
  obtain ⟨rss, hrss⟩ := hinv.candidate_rss m
  rw [handled_iff_of_jump hjump fun _ _ hc => (hinv.candidate_zero hc).2]
  exact handled_iff_of_final hrss (fun _ _ hc => (hinv.candidate_one hc).1) o

/-- On the first port, a rule that catches a frame may be the one. -/
theorem Catches.handled {w : World} (hinv : RulesInv w) {m : PlainFrame} {h : FlowHandle}
    {k : KeyPtr} (hcatch : Catches w w.port0 m.1 h k) :
    Handled (w.nic.table w.port0) m 0 (some h) := by
  obtain ⟨x, hx, hpriority⟩ := hinv.candidate_of_catches hcatch
  refine (handled_port0_iff hinv m _).mpr ⟨h, x, rfl, hx, fun _ _ _ => ?_⟩
  rw [hpriority]
  exact Nat.zero_le _

/-- **What the first port does with a frame**: a rule that catches it handles it, or it is
delivered to a general queue and no rule catches it. -/
theorem handled_port0_cases {w : World} (hinv : RulesInv w) {m : PlainFrame}
    {o : Option FlowHandle} (ho : Handled (w.nic.table w.port0) m 0 o) :
    (∃ h k r, o = some h ∧ Catches w w.port0 m.1 h k ∧ w.nic.flows h = some r ∧
        r.actions = generalOffloadActions k) ∨
      DeliveredToGeneral w.nic o ∧ ∀ h k, ¬ Catches w w.port0 m.1 h k := by
  obtain ⟨h, x, rfl, hwins⟩ := (handled_port0_iff hinv m o).mp ho
  rcases (hinv.candidate_one hwins.toCandidate).2 with ⟨hone, hdelivered⟩ | ⟨-, k, r, hcatch⟩
  · refine Or.inr ⟨hdelivered, fun h' k hcatch => ?_⟩
    -- the winner is at least as good as a rule that catches the frame
    obtain ⟨y, hy, hpriority⟩ := hinv.candidate_of_catches hcatch
    have hbest := hwins.best h' y hy
    rw [hone, hpriority] at hbest
    exact absurd hbest (by decide)
  · exact Or.inl ⟨h, k, r, rfl, hcatch⟩

/-- **Every other port misses every frame**: group 0 is empty there. -/
theorem handled_of_ne_port0_iff {w : World} (hinv : RulesInv w) {portId : UInt16}
    (hne : portId ≠ w.port0) (m : PlainFrame) (o : Option FlowHandle) :
    Handled (w.nic.table portId) m 0 o ↔ o = none :=
  handled_iff_of_miss (fun _ _ hc => hne (hinv.candidate_zero hc).1) o

/-- **On the first port** dispatch is right exactly if the ports of the rules were read
right. -/
theorem dispatchedRight_port0_iff {w : World} (hinv : RulesInv w) (m : PlainFrame) :
    DispatchedRight w w.port0 m ↔ ReadRight w w.port0 m.1 := by
  constructor
  · intro hright
    constructor
    · intro h k hcatch
      by_cases hlive : ∃ h k, LiveRule w w.port0 m.1 h k
      · obtain ⟨k', r, hlive', -⟩ := hright.offloaded _ (hcatch.handled hinv) hlive
        obtain rfl := Option.some.inj (hcatch.owner.symm.trans hlive'.owner)
        exact hlive'.tuple
      · refine absurd (hright.received _ (hcatch.handled hinv) fun h k hl => hlive ⟨h, k, hl⟩) ?_
        exact hinv.not_delivered_of_owner hcatch.owner
    · intro hlive
      obtain ⟨o, ho⟩ := hright.decided
      have hhandled := hright.offloaded o ho hlive
      rcases handled_port0_cases hinv ho with ⟨h, k, r, -, hcatch, -⟩ | ⟨hdelivered, -⟩
      · exact ⟨h, k, hcatch⟩
      · cases o with
        | none => exact absurd hhandled id
        | some h =>
            obtain ⟨k, r, hlive', -⟩ := hhandled
            exact absurd hdelivered (hinv.not_delivered_of_owner hlive'.owner)
  · intro hread
    constructor
    · obtain ⟨rss, hrss⟩ := hinv.candidate_rss m
      obtain ⟨h, x, hwins⟩ := exists_wins hrss
      exact ⟨some h, (handled_port0_iff hinv m _).mpr ⟨h, x, rfl, hwins⟩⟩
    · intro o ho hlive
      rcases handled_port0_cases hinv ho with ⟨h, k, r, rfl, hcatch, hr, hactions⟩ | ⟨-, hnone⟩
      · refine ⟨k, r, ⟨hcatch.owner, hcatch.port, hread.own h k hcatch⟩, hr, ?_⟩
        rw [RteFlow.queues, hactions]
        exact ⟨rfl, by simp [generalOffloadActions], by simp [generalOffloadActions]⟩
      · obtain ⟨h, k, hcatch⟩ := hread.caught hlive
        exact absurd hcatch (hnone h k)
    · intro o ho hno
      rcases handled_port0_cases hinv ho with ⟨h, k, r, rfl, hcatch, -⟩ | ⟨hdelivered, -⟩
      · exact absurd ⟨hcatch.owner, hcatch.port, hread.own h k hcatch⟩ (hno h k)
      · exact hdelivered

/-- **When dispatch is right.**  In a reachable state, for any plain frame: on the first
port if the ports of its rules were read right, and on another one while no rule for the
frame is installed there. -/
theorem dispatchedRight_iff {w : World} (hw : offloadMachine.Reachable w) (portId : UInt16)
    (m : PlainFrame) :
    DispatchedRight w portId m ↔
      if portId = w.port0 then ReadRight w portId m.1
      else ∀ h k, ¬ LiveRule w portId m.1 h k := by
  obtain ⟨-, hinv⟩ := rulesInv_of_reachable hw
  split
  next hport =>
    subst hport
    exact dispatchedRight_port0_iff hinv m
  next hport =>
    have hiff := handled_of_ne_port0_iff hinv hport m
    constructor
    · intro hright h k hlive
      exact hright.offloaded none ((hiff none).mpr rfl) ⟨h, k, hlive⟩
    · intro hnone
      refine ⟨⟨none, (hiff none).mpr rfl⟩, fun o _ hlive => ?_, fun o ho _ => ?_⟩
      · obtain ⟨h, k, hlive⟩ := hlive
        exact absurd hlive (hnone h k)
      · obtain rfl := (hiff o).mp ho
        exact deliveredToGeneral_none w.nic

/-- Where the driver reads what was written, the ports are read right for every frame. -/
theorem readRight_of_asWritten {w : World} (hflow : FlowInv w)
    (hread : ∀ h, w.nic.readSpec h = id) (portId : UInt16) (m : RteMbuf) :
    ReadRight w portId m := by
  have hiff : ∀ h k, w.nic.owner h = some k → ((w.keys k).tuple = getIpv4_5tuple m ipv4Mask ↔
      (w.keys k).ipv4Item = m.ipv4Item ∧ w.nic.readSpec h (w.keys k).l4Item = m.l4Item) := by
    intro h k ho
    obtain ⟨p, l, -, htuple, -⟩ := (hflow.owned h k ho).2.mutual
    rw [hread]
    exact tuple_eq_iff htuple m
  constructor
  · intro h k hcatch
    exact (hiff h k hcatch.owner).mpr ⟨hcatch.addresses, hcatch.ports⟩
  · rintro ⟨h, k, hlive⟩
    obtain ⟨haddresses, hports⟩ := (hiff h k hlive.owner).mp hlive.tuple
    exact ⟨h, k, hlive.owner, hlive.port, haddresses, hports⟩

/-- A plain UDP frame. -/
def plainUdp (a : Addressing (UInt32 × UInt16)) : PlainFrame :=
  ⟨ipv4Frame ipprotoUdp (0x1 ||| rtePtypeL3Ipv4 ||| rtePtypeL4Udp) 100 a,
    ipv4Frame_untagged .., ipv4Frame_optionLess .., ipv4Frame_unfragmented ..,
    Or.inr (ipv4Frame_proto ..)⟩

/-- An offloaded flow in `SINGLE_PORT_MODE` is dispatched right in both directions. -/
theorem dispatchedRight_offloadEvents :
    ∃ tr w, offloadMachine.Run initialSingle offloadEvents tr w ∧
      DispatchedRight w 0 (plainUdp ⟨client, server⟩) ∧
      DispatchedRight w 0 (plainUdp ⟨server, endpoint 5 1 1 1 1⟩) := by
  have hreach := Machine.reachable_exec_get init_initialSingle offloadRun_isSome
  have hrun := Machine.run_exec_get offloadRun_isSome
  have hport : (0 : UInt16) =
      ((offloadMachine.exec initialSingle offloadEvents).get offloadRun_isSome).1.port0 := by
    decide +kernel
  have hread := readRight_of_asWritten (rulesInv_of_reachable hreach).1
    (fun h => congrFun (readSpec_of_run hrun) h) 0
  exact ⟨_, _, hrun,
    (dispatchedRight_iff hreach 0 _).mpr (by rw [if_pos hport]; exact hread _),
    (dispatchedRight_iff hreach 0 _).mpr (by rw [if_pos hport]; exact hread _)⟩

theorem doubleRun_isSome : (offloadMachine.exec initialDouble offloadEvents).isSome = true := by
  decide +kernel

/-- **A dead rule.**  In `DOUBLE_PORT_MODE` the rule for the replies of an offloaded flow
is on the second port, and replies arriving there are delivered to the default queue
all the same. -/
theorem not_dispatchedRight_second :
    ∃ tr w, offloadMachine.Init initialDouble ∧
      offloadMachine.Run initialDouble offloadEvents tr w ∧ 1 ∈ w.portsInUse ∧
      LiveRule w 1 (plainUdp ⟨server, endpoint 5 1 1 1 1⟩).1 3 (.back 0) ∧
      ¬ DispatchedRight w 1 (plainUdp ⟨server, endpoint 5 1 1 1 1⟩) := by
  have hreach := Machine.reachable_exec_get init_initialDouble doubleRun_isSome
  have hne : (1 : UInt16) ≠
      ((offloadMachine.exec initialDouble offloadEvents).get doubleRun_isSome).1.port0 := by
    decide +kernel
  have hlive : LiveRule
      ((offloadMachine.exec initialDouble offloadEvents).get doubleRun_isSome).1 1
      (plainUdp ⟨server, endpoint 5 1 1 1 1⟩).1 3 (.back 0) := by
    constructor <;> decide +kernel
  refine ⟨_, _, init_initialDouble, Machine.run_exec_get doubleRun_isSome, by decide +kernel,
    hlive, fun hright => ?_⟩
  refine hright.offloaded none ?_ ⟨3, .back 0, hlive⟩
  exact (handled_of_ne_port0_iff (rulesInv_of_reachable hreach).2 hne _ none).mpr rfl

/-- The start in `SINGLE_PORT_MODE`, where the driver finds zeros instead of the ports. -/
def initialMisread : World := initialWorld .singlePortMode 0 0 initialPortPool fun _ _ => ⟨0, 0⟩

theorem misreadRun_isSome :
    (offloadMachine.exec initialMisread offloadEvents).isSome = true := by decide +kernel

/-- **A misread rule.**  There the rules of an offloaded flow wait for other ports, so its
frames are spread over the receive queues although their rule is installed. -/
theorem not_dispatchedRight_misread :
    ∃ tr w, offloadMachine.Init initialMisread ∧
      offloadMachine.Run initialMisread offloadEvents tr w ∧
      LiveRule w 0 (plainUdp ⟨client, server⟩).1 2 (.out 0) ∧
      ¬ DispatchedRight w 0 (plainUdp ⟨client, server⟩) := by
  have hinit : offloadMachine.Init initialMisread :=
    init_iff.mpr ⟨.singlePortMode, 0, 0, _, by simp, rfl⟩
  have hreach := Machine.reachable_exec_get hinit misreadRun_isSome
  have hrun := Machine.run_exec_get misreadRun_isSome
  have hport : (0 : UInt16) =
      ((offloadMachine.exec initialMisread offloadEvents).get misreadRun_isSome).1.port0 := by
    decide +kernel
  have hlive : LiveRule
      ((offloadMachine.exec initialMisread offloadEvents).get misreadRun_isSome).1 0
      (plainUdp ⟨client, server⟩).1 2 (.out 0) := by
    constructor <;> decide +kernel
  refine ⟨_, _, hinit, hrun, hlive, fun hright => ?_⟩
  have hread := (dispatchedRight_iff hreach 0 _).mp hright
  rw [if_pos hport] at hread
  obtain ⟨h, k, hcatch⟩ := hread.caught ⟨_, _, hlive⟩
  have hports := hcatch.ports
  rw [readSpec_of_run hrun] at hports
  have hzero : (plainUdp ⟨client, server⟩).1.l4Item = ⟨0, 0⟩ := hports.symm
  exact absurd hzero (by decide +kernel)

end SmartOffload
