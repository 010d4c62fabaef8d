import AlternatorDriver.Routing.Agreement
import Mathlib.Algebra.GroupWithZero.Nat

/-!
# The orders that affinity plans capture

A seeded plan captures a permutation of the membership that starts at the node the hash
votes for. A batch plan captures the membership ranked by votes: the counts, the sort of
the voted nodes and the removals from the snapshot amount to one sort of all nodes.
-/

namespace AlternatorDriver

open Foundation

variable {Url : Type} [LinearOrder Url]

section Seeded

/-! ## Seeded plans -/

/-- A plan whose order is empty finds no node, however often it starts over. -/
theorem QueryPlan.attempt_empty (name : ViewName) (views : Nat → NodeView Url)
    (meanwhile : Nat → NodeView Url → NodeView Url) (n : Nat) :
    (⟨name, .ordered [] 0⟩ : QueryPlan Url).attempt views meanwhile n = none := by
  have stays : (⟨name, .ordered [] 0⟩ : QueryPlan Url).after views meanwhile n =
      ⟨name, .ordered [] 0⟩ := by
    induction n with
    | zero => rfl
    | succ n ih =>
        rw [after, ih]
        rfl
  rw [attempt, stays]
  rfl

omit [LinearOrder Url] in
theorem preferredNodeForHash_eq_none {nodes : List Url} {seed : BitVec 64} :
    preferredNodeForHash nodes seed = none ↔ nodes = [] := by
  constructor
  · intro absent
    by_contra populated
    have present := preferredNodeForHash_isSome populated seed
    rw [absent] at present
    cases present
  · rintro rfl
    rfl

theorem sortedAffinityNodes_eq_nil {nodes : List Url} :
    sortedAffinityNodes nodes = [] ↔ nodes = [] := by
  rw [← List.length_eq_zero_iff, sortedAffinityNodes, List.length_insertionSort,
    List.length_eq_zero_iff]

/-- A seeded plan captures a permutation of the membership, which starts at the node that
the hash votes for and which the attempts go round, whatever is published between them. -/
theorem seeded_plan_is_permutation (name : ViewName) (membership : List Url) (seed : BitVec 64) :
    ∃ order, (QueryPlan.newWithHash name membership seed).order = some order ∧
      order.Perm membership ∧
      order.head? = preferredNodeForHash (sortedAffinityNodes membership) seed ∧
      (order.head? = none ↔ membership = []) ∧
      ∀ views meanwhile k,
        (QueryPlan.newWithHash name membership seed).attempt views meanwhile k =
          order[k % membership.length]? := by
  have permuted : (drawOrder (.new seed) (sortedAffinityNodes membership)).Perm membership :=
    (drawOrder_perm _ _).trans (List.perm_insertionSort _ _)
  have first := head?_drawOrder (sortedAffinityNodes membership) seed
  refine ⟨_, rfl, permuted, first, ?_, ?_⟩
  · rw [first, preferredNodeForHash_eq_none, sortedAffinityNodes_eq_nil]
  · intro views meanwhile k
    obtain empty | populated := Nat.eq_zero_or_pos membership.length
    · have none : drawOrder (.new seed) (sortedAffinityNodes membership) = [] := by
        rw [← List.length_eq_zero_iff, permuted.length_eq, empty]
      rw [QueryPlan.newWithHash, none, QueryPlan.attempt_empty]
      rfl
    · rw [← permuted.length_eq] at populated ⊢
      exact QueryPlan.attempt_ordered views meanwhile name populated k

end Seeded

section Ranking

/-! ## The ranking by votes -/

/-- More votes come first, and among equals the lower address. -/
def RankedBefore (votes : Url → Nat) (left right : Url) : Prop :=
  VoteOrder (left, votes left) (right, votes right)

instance (votes : Url → Nat) : DecidableRel (RankedBefore votes) := fun left right =>
  inferInstanceAs (Decidable (VoteOrder (left, votes left) (right, votes right)))

instance (votes : Url → Nat) : Std.Total (RankedBefore votes) where
  total left right := Std.Total.total (r := VoteOrder) (left, votes left) (right, votes right)

instance (votes : Url → Nat) : IsTrans Url (RankedBefore votes) where
  trans _ _ _ := IsTrans.trans (r := VoteOrder) _ _ _

instance (votes : Url → Nat) : Std.Antisymm (RankedBefore votes) where
  antisymm left right before after := by
    have same := Std.Antisymm.antisymm (r := VoteOrder) (left, votes left) (right, votes right)
      before after
    exact congrArg Prod.fst same

/-- Every vote counts for one of the nodes. -/
theorem sum_map_count {nodes votes : List Url} (distinct : nodes.Nodup)
    (within : ∀ node ∈ votes, node ∈ nodes) :
    (nodes.map fun node => votes.count node).sum = votes.length := by
  have counted : (nodes.map fun node => votes.count node).sum = votes.countP (· ∈ nodes) := by
    clear within
    induction nodes with
    | nil => simp
    | cons node rest ih =>
        obtain ⟨absent, distinct⟩ := List.nodup_cons.mp distinct
        rw [List.map_cons, List.sum_cons, ih distinct]
        clear ih
        induction votes with
        | nil => rfl
        | cons vote votes ih =>
            simp only [List.count_cons, List.countP_cons, List.mem_cons, decide_eq_true_eq,
              beq_iff_eq] at ih ⊢
            by_cases first : vote = node
            · subst first
              simp only [absent, true_or, if_true, if_false]
              omega
            · simp only [first, false_or, if_false]
              omega
  rw [counted, List.countP_eq_length]
  simpa using within

/-- Preferred nodes that are in the snapshot come first, and the rest keeps its order. -/
theorem preferFirst_eq_append {preferredNodes snapshot : List Url}
    (distinct : preferredNodes.Nodup) (within : ∀ node ∈ preferredNodes, node ∈ snapshot) :
    QueryPlan.preferFirst preferredNodes snapshot =
      preferredNodes ++ snapshot.diff preferredNodes := by
  induction preferredNodes generalizing snapshot with
  | nil => rfl
  | cons preferred rest ih =>
      obtain ⟨absent, distinct⟩ := List.nodup_cons.mp distinct
      rw [QueryPlan.preferFirst, if_pos (within _ List.mem_cons_self), ih distinct, List.diff_cons,
        List.cons_append]
      intro node member
      refine (List.mem_erase_of_ne ?_).mpr (within node (List.mem_cons_of_mem _ member))
      rintro rfl
      exact absent member

section Voted

variable (iteration : VoteIteration Url) {votes order : List Url}
variable (ranked : votePreferenceOrder (iteration.intoIter (Tally.ofList votes)) = some order)
include ranked

theorem votePreferenceOrder_eq :
    order = ((iteration.intoIter (Tally.ofList votes)).insertionSort VoteOrder).map Prod.fst := by
  rw [votePreferenceOrder] at ranked
  split at ranked
  · cases ranked
  · cases ranked
    rfl

theorem mem_ranked (node : Url) : node ∈ order ↔ node ∈ votes := by
  rw [mem_votePreferenceOrder ranked]
  simp [iteration.mem_intoIter]

theorem nodup_ranked : order.Nodup := by
  rw [votePreferenceOrder_eq iteration ranked,
    ((List.perm_insertionSort VoteOrder _).map Prod.fst).nodup_iff,
    ((iteration.lists _).map Prod.fst).nodup_iff, List.map_map]
  exact (Tally.ofList votes).nodupKeys

theorem pairwise_ranked : order.Pairwise (RankedBefore fun node => votes.count node) := by
  rw [votePreferenceOrder_eq iteration ranked, List.pairwise_map]
  refine (List.pairwise_insertionSort VoteOrder _).imp_of_mem ?_
  intro left right member member' before
  rw [List.mem_insertionSort, iteration.mem_intoIter] at member member'
  rwa [RankedBefore, ← member.2, ← member'.2]

end Voted

/-- The voted nodes in order of preference, before the rest of the sorted snapshot, are
the nodes ranked by votes. -/
theorem preferFirst_ranked (iteration : VoteIteration Url) {nodes votes order : List Url}
    (distinct : nodes.Nodup) (within : ∀ node ∈ votes, node ∈ nodes)
    (ranked : votePreferenceOrder (iteration.intoIter (Tally.ofList votes)) = some order) :
    QueryPlan.preferFirst order (sortedAffinityNodes nodes) =
      nodes.insertionSort (RankedBefore fun node => votes.count node) := by
  have voted := mem_ranked iteration ranked
  have snapshot : (sortedAffinityNodes nodes).Perm nodes := List.perm_insertionSort _ _
  have snapshotNodup : (sortedAffinityNodes nodes).Nodup := snapshot.nodup_iff.mpr distinct
  have assembled := preferFirst_eq_append (nodup_ranked iteration ranked) fun node member =>
    snapshot.mem_iff.mpr (within node ((voted node).mp member))
  have whole := (QueryPlan.preferFirst_perm order (sortedAffinityNodes nodes)).trans snapshot
  refine (whole.trans (List.perm_insertionSort _ _).symm).eq_of_pairwise'
    ?_ (List.pairwise_insertionSort _ _)
  rw [assembled, List.pairwise_append]
  refine ⟨pairwise_ranked iteration ranked, ?_, ?_⟩
  · -- The rest has no votes, and keeps the order of the snapshot.
    have ascending : ((sortedAffinityNodes nodes).diff order).Pairwise (· ≤ ·) :=
      (List.pairwise_insertionSort (· ≤ ·) nodes).sublist (List.diff_sublist _ _)
    refine ascending.imp_of_mem ?_
    intro left right member member' lower
    rw [snapshotNodup.mem_sdiff_iff, voted] at member member'
    have none := List.count_eq_zero.mpr member.2
    have none' := List.count_eq_zero.mpr member'.2
    exact .inr ⟨none.trans none'.symm, lower⟩
  · intro left member right member'
    rw [voted] at member
    rw [snapshotNodup.mem_sdiff_iff, voted] at member'
    have none := List.count_eq_zero.mpr member'.2
    have some := List.count_pos_iff.mpr member
    refine .inl ?_
    change votes.count right < votes.count left
    omega

end Ranking

namespace AffinityQueryPlanInterceptor

variable (murmur3X64128 : Murmur3) (client : AffinityQueryPlanInterceptor Url)

/-- The write requests of a batch, each with its table. -/
def writeRequests (r : BatchWriteItemInput) : List (String × WriteRequest) :=
  (r.requestItems.getD []).flatMap fun table => table.2.map fun write => (table.1, write)

/-- The hash of a write request, if the key of its table is known and its map has that
attribute with a supported type. -/
def writeHash (write : String × WriteRequest) : Option (BitVec 64) :=
  (client.resolver.getPartitionKey write.1).bind fun pkName =>
    (batchWriteRequestAttributes write.2).bind fun attributes =>
      (attributes pkName).bind (hashAttributeValue murmur3X64128)

/-- The node that a write request votes for. -/
def preference (write : String × WriteRequest) : Option Url :=
  (client.writeHash murmur3X64128 write).bind
    (preferredNodeForHash (sortedAffinityNodes client.affinityNodes.liveNodes))

/-- The number of write requests of a batch that vote for a node. -/
def votes (r : BatchWriteItemInput) (node : Url) : Nat :=
  (writeRequests r).countP fun write => client.preference murmur3X64128 write = some node

variable {murmur3X64128 : Murmur3} {client : AffinityQueryPlanInterceptor Url}

omit [LinearOrder Url] in
theorem usableHashes_eq_writeHashes (r : BatchWriteItemInput) :
    client.usableHashes murmur3X64128 (.batchWrite r) =
      (writeRequests r).filterMap (client.writeHash murmur3X64128) := by
  rw [usableHashes_batchWrite, writeRequests, List.filterMap_flatMap]
  congr 1
  funext table
  rw [tableHashes, List.filterMap_map, ← List.filterMap_eq_flatMap_toList]
  congr 1
  funext write
  simp only [Function.comp_apply, writeHash, candidatePartitionKeyHash]
  cases batchWriteRequestAttributes write with
  | none => cases client.resolver.getPartitionKey table.1 <;> rfl
  | some attributes =>
      simp only [Option.map_some, Option.bind_some]
      cases client.resolver.getPartitionKey table.1 with
      | none => rfl
      | some pkName =>
          dsimp only [Option.bind_some]
          cases (attributes pkName).bind (hashAttributeValue murmur3X64128) <;> rfl

theorem preference_of_preferred {prefer : BitVec 64 → Url}
    (preferred : ∀ h, preferredNodeForHash
      (sortedAffinityNodes client.affinityNodes.liveNodes) h = some (prefer h)) :
    client.preference murmur3X64128 =
      fun write => (client.writeHash murmur3X64128 write).map prefer := by
  funext write
  rw [preference]
  cases client.writeHash murmur3X64128 write with
  | none => rfl
  | some hash => exact preferred hash

theorem votes_eq_count {prefer : BitVec 64 → Url}
    (preferred : ∀ h, preferredNodeForHash
      (sortedAffinityNodes client.affinityNodes.liveNodes) h = some (prefer h))
    (r : BatchWriteItemInput) :
    client.votes murmur3X64128 r = fun node =>
      ((client.usableHashes murmur3X64128 (.batchWrite r)).map prefer).count node := by
  funext node
  rw [votes, usableHashes_eq_writeHashes, List.map_filterMap, List.count_filterMap,
    preference_of_preferred preferred]
  refine List.countP_congr fun write _ => ?_
  rw [decide_eq_true_eq, beq_iff_eq]

theorem tryAffinityPlan_of_no_nodes {iteration : VoteIteration Url} {r : BatchWriteItemInput}
    (empty : client.affinityNodes.liveNodes = []) :
    (client.tryAffinityPlan murmur3X64128 iteration (.batchWriteItem r)).1 = none := by
  by_cases routable : client.Routable murmur3X64128 (.batchWriteItem r)
  · obtain ⟨op, ⟨⟩, applies, usable⟩ := routable
    have enabled := affinityType_ne_none applies
    rw [usableHashes_eq_filterMap] at usable
    have cast := @KeyLookup.castVotes_of_no_nodes Url _ ∅ _ usable
    simp [tryAffinityPlan, enabled, DynamoOp.fromInput, applies, DynamoOp.isBatchWrite,
      sortedAffinityNodes, empty, cast]
  · exact tryAffinityPlan_of_not_routable routable

/-- A batch plan is the vote ranking. Without votes there is no plan; otherwise the plan
follows the membership sorted by descending votes and then by ascending address. Every
write request that has a preferred node counts, and no other. -/
theorem batch_plan_is_vote_ranking (iteration : VoteIteration Url) (r : BatchWriteItemInput)
    (applies : (DynamoOp.batchWrite r).shouldApply client.affinityType = true)
    (distinct : client.affinityNodes.liveNodes.Nodup) :
    let votes := client.votes murmur3X64128 r
    let nodes := client.affinityNodes.liveNodes
    let plan := (client.tryAffinityPlan murmur3X64128 iteration (.batchWriteItem r)).1
    ((∀ node, votes node = 0) → plan = none) ∧
    (∀ node, votes node ≠ 0 →
      plan = some ⟨.affinity, .ordered (nodes.insertionSort (RankedBefore votes)) 0⟩) ∧
    (nodes.map votes).sum =
      (writeRequests r).countP (fun write => (client.preference murmur3X64128 write).isSome) ∧
    (nodes ≠ [] → ∀ write, (client.preference murmur3X64128 write).isSome =
      (client.writeHash murmur3X64128 write).isSome) := by
  intro votes nodes plan
  by_cases empty : nodes = []
  · have unpreferred (write : String × WriteRequest) :
        client.preference murmur3X64128 write = none := by
      rw [preference]
      cases client.writeHash murmur3X64128 write with
      | none => rfl
      | some hash => exact preferredNodeForHash_eq_none.mpr (sortedAffinityNodes_eq_nil.mpr empty)
    have unvoted (node : Url) : votes node = 0 := by
      simp [votes, AffinityQueryPlanInterceptor.votes, unpreferred]
    refine ⟨fun _ => tryAffinityPlan_of_no_nodes empty, fun node voted => absurd (unvoted node) voted,
      ?_, fun populated => absurd empty populated⟩
    simp [empty, unpreferred]
  · obtain ⟨prefer, preferred⟩ := exists_prefer (sortedAffinityNodes_ne_nil empty)
    have counted := @votes_eq_count Url _ murmur3X64128 client prefer preferred r
    have voters := @preference_of_preferred Url _ murmur3X64128 client prefer preferred
    have within : ∀ node ∈ (client.usableHashes murmur3X64128 (.batchWrite r)).map prefer,
        node ∈ nodes := by
      intro node member
      obtain ⟨hash, -, rfl⟩ := List.mem_map.mp member
      exact (List.mem_insertionSort _).mp (preferredNodeForHash_mem (preferred hash))
    refine ⟨?_, ?_, ?_, ?_⟩
    · intro unvoted
      refine tryAffinityPlan_of_not_routable ?_
      rintro ⟨op, ⟨⟩, -, usable⟩
      obtain ⟨hash, member⟩ := List.exists_mem_of_ne_nil _ usable
      have voted := List.count_pos_iff.mpr (List.mem_map_of_mem (f := prefer) member)
      have none := unvoted (prefer hash)
      rw [show votes = _ from counted] at none
      exact absurd none (Nat.ne_of_gt voted)
    · intro node voted
      rw [show votes = _ from counted] at voted ⊢
      have some : (client.usableHashes murmur3X64128 (.batchWrite r)).map prefer ≠ [] := by
        rintro unvoted
        rw [unvoted] at voted
        exact voted rfl
      obtain ⟨order, ranked, -⟩ := exists_votePreferenceOrder iteration some
      rw [← preferFirst_ranked iteration distinct within ranked]
      exact tryAffinityPlan_batchWrite rfl applies rfl preferred ranked
    · rw [show votes = _ from counted, sum_map_count distinct within, List.length_map,
        usableHashes_eq_writeHashes, List.length_filterMap_eq_countP, voters]
      simp
    · intro _ write
      rw [voters, Option.isSome_map]

end AffinityQueryPlanInterceptor

namespace ShuffledBatch

/-- Two votes for `c`, one for `a`, and a table whose key is of another type. -/
def threeVotes : BatchWriteItemInput :=
  ⟨some [("t", [⟨none, some (item low "old")⟩, ⟨some (item high "old"), none⟩]),
    ("u", [⟨none, some fun _ => some .other⟩, ⟨none, some (item low "new")⟩])]⟩

theorem batch_plan_is_vote_ranking_shuffled :
    (left.tryAffinityPlan fixedVectors entriesReversed (.batchWriteItem threeVotes)).1 =
      some ⟨.affinity, .ordered [PlainUrl.node ['c'], PlainUrl.node ['a'], PlainUrl.node ['b']] 0⟩ ∧
    (left.affinityNodes.liveNodes.map (left.votes fixedVectors threeVotes)).sum = 3 := by
  obtain ⟨-, ranked, total, -⟩ := @AffinityQueryPlanInterceptor.batch_plan_is_vote_ranking PlainUrl _
    fixedVectors left entriesReversed threeVotes rfl (by decide)
  have sorted : left.affinityNodes.liveNodes.insertionSort
      (RankedBefore (left.votes fixedVectors threeVotes)) =
        [PlainUrl.node ['c'], PlainUrl.node ['a'], PlainUrl.node ['b']] := by decide
  rw [← sorted, total]
  exact ⟨ranked (PlainUrl.node ['c']) (by decide), by decide⟩

end ShuffledBatch

end AlternatorDriver
