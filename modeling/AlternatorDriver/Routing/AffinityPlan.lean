import AlternatorDriver.Foundation.SortDedup
import AlternatorDriver.Foundation.Tally
import AlternatorDriver.KeyRouting.Classifier
import AlternatorDriver.KeyRouting.Resolver
import AlternatorDriver.Routing.QueryPlan

/-!
# The plans of key-route affinity

The affinity interceptor routes a write by the hash of its partition key. A single-item
write follows the seeded order of its hash; the keys of a batch vote for the first node
of their seeded orders, and the voted nodes come first. Every other request uses a
round-robin plan over the ordinary view.
-/

namespace AlternatorDriver

open Foundation

variable {Url : Type} [LinearOrder Url]

/-- `routingNodes` and `affinityNodes` are the views as the request meets them, and
`resolver` is the partition-key resolver. -/
structure AffinityQueryPlanInterceptor (Url : Type) where
  affinityType : KeyRouteAffinityType
  routingNodes : NodeView Url
  affinityNodes : NodeView Url
  resolver : PartitionKeyResolver

/-- What a candidate comes to: a table whose key name is not cached, which triggers its
discovery; a key that is missing or of another type; or a hash. -/
inductive KeyLookup where
  | miss (tableName : String)
  | unusable
  | hash (hash : BitVec 64)

/-- An iteration order of the votes, which a hash map does not specify. -/
structure VoteIteration (Url : Type) where
  intoIter : Tally Url → List (Url × Nat)
  lists : ∀ votes, (intoIter votes).Perm (votes.entries.map fun vote => (vote.1, vote.2))

/-- The comparison of votes: the higher count first, then the lower address. -/
def VoteOrder (left right : Url × Nat) : Prop :=
  right.2 < left.2 ∨ left.2 = right.2 ∧ left.1 ≤ right.1

instance : DecidableRel (@VoteOrder Url _) := fun _ _ =>
  inferInstanceAs (Decidable (_ ∨ _))

/-- The voted nodes in order of preference, if there are any. -/
def votePreferenceOrder (votes : List (Url × Nat)) : Option (List Url) :=
  if votes.isEmpty then none
  else some ((votes.insertionSort VoteOrder).map Prod.fst)

namespace KeyLookup

def hash? : KeyLookup → Option (BitVec 64)
  | .hash h => some h
  | _ => none

/-- The first usable hash, and the tables whose discovery is triggered on the way. -/
def firstHash : List KeyLookup → Option (BitVec 64) × List String
  | [] => (none, [])
  | .hash h :: _ => (some h, [])
  | .unusable :: rest => firstHash rest
  | .miss table :: rest => ((firstHash rest).1, table :: (firstHash rest).2)

/-- Counts one vote for each usable hash, and stops if there is no node to vote for. -/
def castVotes (affinityNodes : List Url) (votes : Tally Url) :
    List KeyLookup → Option (Tally Url) × List String
  | [] => (some votes, [])
  | .hash h :: rest =>
      match preferredNodeForHash affinityNodes h with
      | some preferred => castVotes affinityNodes (votes.add preferred) rest
      | none => (none, [])
  | .unusable :: rest => castVotes affinityNodes votes rest
  | .miss table :: rest =>
      ((castVotes affinityNodes votes rest).1, table :: (castVotes affinityNodes votes rest).2)

end KeyLookup

namespace AffinityQueryPlanInterceptor

variable (murmur3X64128 : Murmur3) (iteration : VoteIteration Url)
variable (client : AffinityQueryPlanInterceptor Url)

def candidatePartitionKeyHash (candidate : PartitionKeyCandidate) : KeyLookup :=
  match client.resolver.getPartitionKey candidate.tableName with
  | none => .miss candidate.tableName
  | some pkName =>
      match (candidate.attributes pkName).bind (hashAttributeValue murmur3X64128) with
      | none => .unusable
      | some h => .hash h

/-- The affinity plan, if there is one, and the tables whose discovery is triggered. The look-ups of
a batch all find one cache here; a client at work makes them one after the other. -/
def tryAffinityPlan (input : Input) : Option (QueryPlan Url) × List String :=
  if client.affinityType = .none then (none, [])
  else match DynamoOp.fromInput input with
    | none => (none, [])
    | some op =>
        if op.shouldApply client.affinityType then
          let lookups := op.partitionKeyCandidates.map
            (client.candidatePartitionKeyHash murmur3X64128)
          if op.isBatchWrite then
            let affinityNodes := sortedAffinityNodes client.affinityNodes.liveNodes
            let cast := KeyLookup.castVotes affinityNodes ∅ lookups
            (do
              let votes ← cast.1
              let preferredNodes ← votePreferenceOrder (iteration.intoIter votes)
              some (.newWithPreferredNodes .affinity preferredNodes affinityNodes), cast.2)
          else
            let first := KeyLookup.firstHash lookups
            (first.1.map (.newWithHash .affinity client.affinityNodes.liveNodes), first.2)
        else (none, [])

/-- The plan that the request is given. -/
def getQueryPlan (input : Input) : QueryPlan Url :=
  ((client.tryAffinityPlan murmur3X64128 iteration input).1).getD (.newBasic .ordinary)

/-- The hashes of the usable partition keys of an operation. -/
def usableHashes (op : DynamoOp) : List (BitVec 64) :=
  op.partitionKeyCandidates.filterMap fun candidate =>
    (client.candidatePartitionKeyHash murmur3X64128 candidate).hash?

/-- Affinity applies to the operation of this input, which has a usable key. -/
def Routable (input : Input) : Prop :=
  ∃ op, DynamoOp.fromInput input = some op ∧ op.shouldApply client.affinityType = true ∧
    client.usableHashes murmur3X64128 op ≠ []

end AffinityQueryPlanInterceptor

end AlternatorDriver
