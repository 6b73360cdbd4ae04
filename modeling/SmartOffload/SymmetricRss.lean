import SmartOffload.FlowEngine
import SmartOffload.Lib.Toeplitz

/-!
# Symmetric receive-side scaling

The default rule of `create_default_rss_flow` spreads frames over the general queues by a hash
of their addresses.  Its key repeats after 32 bits, the width of an address, so both directions
of a flow have the same hash and go to the same queue (`rssQueue_comm`).

The hash is the Toeplitz hash of source and destination; how the NIC picks a queue by the hash
is left open.
-/

namespace SmartOffload

open Toeplitz (toeplitz Repeats)

/-- The RSS configuration of `create_default_rss_flow`, for so many queues in the schedule. -/
def defaultRssConf (queuesQuantity : ℕ) : RteFlowActionRss where
  level := 1
  queue := List.range queuesQuantity
  types := ethRssIp
  key := symmetricRssKey

/-- The default rule has this configuration, for the general queues. -/
theorem createDefaultRssFlow_conf (nic : Nic) (portId : UInt16) (ok : Bool) :
    createDefaultRssFlow nic portId ok =
      rteFlowCreate nic portId { group := 1, priority := 1, ingress := true }
        [.eth, .ipv4 none none, .void, .endItem]
        [.rss (defaultRssConf generalQueuesQuantity), .endAction] ok := rfl

/-- The bits of an address as on the wire, most significant first. -/
def addressBits (ip : UInt32) : List Bool :=
  (List.range 32).map fun i => ip.toNat.testBit (31 - i)

/-- The hash of a frame: over source and destination, under the configured key. -/
def rssHash (conf : RteFlowActionRss) (src dst : UInt32) : BitVec 32 :=
  toeplitz 32 conf.key 0 (addressBits src ++ addressBits dst)

/-- The queue of a frame: one of the schedule, picked by the hash. -/
def rssQueue (pick : List ℕ → BitVec 32 → ℕ) (conf : RteFlowActionRss) (src dst : UInt32) : ℕ :=
  pick conf.queue (rssHash conf src dst)

theorem length_addressBits (ip : UInt32) : (addressBits ip).length = 32 := by
  rw [addressBits, List.length_map, List.length_range]

/-- The key repeats at the distance of the two addresses. -/
theorem repeats_symmetricRssKey : Repeats 32 32 symmetricRssKey := by decide

/-- **Both directions have the same hash, and the same queue**: under the configuration of the
rule that is created, at any number of queues, for any two addresses and any way to pick a queue
by the hash. -/
theorem rssQueue_comm (nic : Nic) (portId : UInt16) (ok : Bool) (queuesQuantity : ℕ)
    (pick : List ℕ → BitVec 32 → ℕ) (a b : UInt32) :
    createDefaultRssFlow nic portId ok =
        rteFlowCreate nic portId { group := 1, priority := 1, ingress := true }
          [.eth, .ipv4 none none, .void, .endItem]
          [.rss (defaultRssConf generalQueuesQuantity), .endAction] ok ∧
      rssHash (defaultRssConf queuesQuantity) a b = rssHash (defaultRssConf queuesQuantity) b a ∧
      rssQueue pick (defaultRssConf queuesQuantity) a b =
        rssQueue pick (defaultRssConf queuesQuantity) b a := by
  have hhash : rssHash (defaultRssConf queuesQuantity) a b =
      rssHash (defaultRssConf queuesQuantity) b a :=
    Toeplitz.toeplitz_append_comm repeats_symmetricRssKey (length_addressBits a)
      (length_addressBits b)
  refine ⟨createDefaultRssFlow_conf nic portId ok, hhash, ?_⟩
  exact congrArg (pick (defaultRssConf queuesQuantity).queue) hhash

end SmartOffload
