import AlternatorDriver.Routing.AffinityPlan
import AlternatorDriver.Url

/-!
# Clients agree on coordinators

Two clients with the same configuration may list the same nodes in different orders, and
the writes of a batch come in no particular order. Neither reaches the plan: the
membership is sorted, the votes are counted, and the seeded order and the vote for a hash
start at the same node.
-/

namespace AlternatorDriver

open Foundation

variable {Url : Type} [LinearOrder Url]

section Orders

/-! ## Canonical orders -/

instance : Std.Total (@VoteOrder Url _) where
  total left right := by
    obtain fewer | same | more := Nat.lt_trichotomy left.2 right.2
    · exact .inr (.inl fewer)
    · obtain lower | higher := le_total left.1 right.1
      · exact .inl (.inr ⟨same, lower⟩)
      · exact .inr (.inr ⟨same.symm, higher⟩)
    · exact .inl (.inl more)

instance : IsTrans (Url × Nat) (@VoteOrder Url _) where
  trans first second third := by
    rintro (more | ⟨same, lower⟩) (more' | ⟨same', lower'⟩)
    · exact .inl (Nat.lt_trans more' more)
    · exact .inl (by omega)
    · exact .inl (by omega)
    · exact .inr ⟨same.trans same', lower.trans lower'⟩

instance : Std.Antisymm (@VoteOrder Url _) where
  antisymm left right := by
    rintro (more | ⟨same, lower⟩) (more' | ⟨same', lower'⟩)
    · omega
    · omega
    · omega
    · exact Prod.ext (le_antisymm lower lower') same

/-- The order of preference does not depend on the iteration order of the votes. -/
theorem votePreferenceOrder_perm {votes votes' : List (Url × Nat)} (h : votes.Perm votes') :
    votePreferenceOrder votes = votePreferenceOrder votes' := by
  rw [votePreferenceOrder, votePreferenceOrder, insertionSort_eq_of_perm VoteOrder h,
    h.isEmpty_eq]

theorem mem_votePreferenceOrder {votes : List (Url × Nat)} {order : List Url}
    (h : votePreferenceOrder votes = some order) (node : Url) :
    node ∈ order ↔ ∃ count, (node, count) ∈ votes := by
  rw [votePreferenceOrder] at h
  split at h
  · cases h
  · cases h
    simp [List.mem_insertionSort]

theorem sortedAffinityNodes_perm {nodes nodes' : List Url} (h : nodes.Perm nodes') :
    sortedAffinityNodes nodes = sortedAffinityNodes nodes' :=
  insertionSort_eq_of_perm (· ≤ ·) h

theorem sortedAffinityNodes_ne_nil {nodes : List Url} (h : nodes ≠ []) :
    sortedAffinityNodes nodes ≠ [] := by
  rw [← List.length_pos_iff, sortedAffinityNodes, List.length_insertionSort]
  exact List.length_pos_iff.mpr h

end Orders

section Draws

/-! ## The seeded draw -/

variable {Url : Type}

theorem preferredNodeForHash_isSome {nodes : List Url} (h : nodes ≠ []) (seed : BitVec 64) :
    (preferredNodeForHash nodes seed).isSome := by
  simp [preferredNodeForHash, List.length_pos_iff.mpr h]

theorem exists_prefer {nodes : List Url} (populated : nodes ≠ []) :
    ∃ prefer : BitVec 64 → Url, ∀ h, preferredNodeForHash nodes h = some (prefer h) :=
  ⟨fun h => (preferredNodeForHash nodes h).get (preferredNodeForHash_isSome populated h),
    fun _ => (Option.some_get _).symm⟩

theorem preferredNodeForHash_mem {nodes : List Url} {seed : BitVec 64} {node : Url}
    (h : preferredNodeForHash nodes seed = some node) : node ∈ nodes := by
  rw [preferredNodeForHash] at h
  split at h
  · cases h
    exact List.getElem_mem _
  · cases h

/-- The vote of a hash is the first node of its seeded order. -/
theorem head?_drawOrder (nodes : List Url) (seed : BitVec 64) :
    (drawOrder (.new seed) nodes).head? = preferredNodeForHash nodes seed := by
  rw [drawOrder, preferredNodeForHash]
  split <;> rfl

end Draws

section Preferred

/-! ## Preferred nodes first -/

/-- The first preferred node is tried first. -/
theorem head?_preferFirst {preferred : Url} {rest nodes : List Url} (h : preferred ∈ nodes) :
    (QueryPlan.preferFirst (preferred :: rest) nodes).head? = some preferred := by
  rw [QueryPlan.preferFirst, if_pos h]
  rfl

end Preferred

namespace KeyLookup

theorem firstHash_eq_head? (lookups : List KeyLookup) :
    (firstHash lookups).1 = (lookups.filterMap hash?).head? := by
  induction lookups with
  | nil => rfl
  | cons lookup rest ih =>
      cases lookup with
      | miss table => exact ih
      | unusable => exact ih
      | hash h => rfl

/-- Where every hash has a preferred node, each usable hash adds its vote. -/
theorem castVotes_eq_addAll {nodes : List Url} {prefer : BitVec 64 → Url}
    (preferred : ∀ h, preferredNodeForHash nodes h = some (prefer h)) (votes : Tally Url)
    (lookups : List KeyLookup) :
    (castVotes nodes votes lookups).1 =
      some (votes.addAll ((lookups.filterMap hash?).map prefer)) := by
  induction lookups generalizing votes with
  | nil => rfl
  | cons lookup rest ih =>
      cases lookup with
      | miss table => exact ih votes
      | unusable => exact ih votes
      | hash h =>
          rw [castVotes, preferred h]
          exact ih (votes.add (prefer h))

/-- Without nodes, the first usable hash ends the count. -/
theorem castVotes_of_no_nodes (votes : Tally Url) {lookups : List KeyLookup}
    (usable : lookups.filterMap hash? ≠ []) : (castVotes [] votes lookups).1 = none := by
  induction lookups with
  | nil => exact absurd rfl usable
  | cons lookup rest ih =>
      cases lookup with
      | miss table => exact ih usable
      | unusable => exact ih usable
      | hash h => rfl

/-- Without a usable hash there are no votes, whatever the membership is. -/
theorem castVotes_of_no_hash {nodes : List Url} (votes : Tally Url) {lookups : List KeyLookup}
    (h : lookups.filterMap hash? = []) : (castVotes nodes votes lookups).1 = some votes := by
  induction lookups with
  | nil => rfl
  | cons lookup rest ih =>
      cases lookup with
      | miss table => exact ih h
      | unusable => exact ih h
      | hash hash => cases h

end KeyLookup

namespace AffinityQueryPlanInterceptor

section Lookups

variable {Url : Type} {murmur3X64128 : Murmur3} {client : AffinityQueryPlanInterceptor Url}
variable {op : DynamoOp}

theorem usableHashes_eq_filterMap (op : DynamoOp) :
    client.usableHashes murmur3X64128 op =
      (op.partitionKeyCandidates.map (client.candidatePartitionKeyHash murmur3X64128)).filterMap
        KeyLookup.hash? := by
  rw [usableHashes, List.filterMap_map]
  rfl

theorem affinityType_ne_none (h : op.shouldApply client.affinityType = true) :
    client.affinityType ≠ .none := by
  intro disabled
  simp [DynamoOp.shouldApply, disabled] at h

end Lookups

variable {murmur3X64128 : Murmur3} {iteration : VoteIteration Url}
variable {client : AffinityQueryPlanInterceptor Url} {input : Input} {op : DynamoOp}

/-! ## The plans of one client -/

/-- A routable single-item write follows the seeded order of its hash. -/
theorem getQueryPlan_singleItem (found : DynamoOp.fromInput input = some op)
    (applies : op.shouldApply client.affinityType = true) (single : op.isBatchWrite = false)
    {hash : BitVec 64} (first : (client.usableHashes murmur3X64128 op).head? = some hash) :
    client.getQueryPlan murmur3X64128 iteration input =
      .newWithHash .affinity client.affinityNodes.liveNodes hash := by
  have enabled := affinityType_ne_none applies
  rw [usableHashes_eq_filterMap, ← KeyLookup.firstHash_eq_head?] at first
  simp [getQueryPlan, tryAffinityPlan, enabled, found, applies, single, first]

/-- A routable batch tries the voted nodes first, in order of preference. -/
theorem tryAffinityPlan_batchWrite (found : DynamoOp.fromInput input = some op)
    (applies : op.shouldApply client.affinityType = true) (batch : op.isBatchWrite = true)
    {prefer : BitVec 64 → Url}
    (preferred : ∀ h, preferredNodeForHash
      (sortedAffinityNodes client.affinityNodes.liveNodes) h = some (prefer h))
    {order : List Url}
    (ranked : votePreferenceOrder (iteration.intoIter
      (Tally.ofList ((client.usableHashes murmur3X64128 op).map prefer))) = some order) :
    (client.tryAffinityPlan murmur3X64128 iteration input).1 =
      some (.newWithPreferredNodes .affinity order
        (sortedAffinityNodes client.affinityNodes.liveNodes)) := by
  have enabled := affinityType_ne_none applies
  have cast := KeyLookup.castVotes_eq_addAll preferred ∅
    (op.partitionKeyCandidates.map (client.candidatePartitionKeyHash murmur3X64128))
  rw [← usableHashes_eq_filterMap, ← Tally.ofList] at cast
  simp [tryAffinityPlan, enabled, found, applies, batch, cast, ranked]

theorem getQueryPlan_batchWrite (found : DynamoOp.fromInput input = some op)
    (applies : op.shouldApply client.affinityType = true) (batch : op.isBatchWrite = true)
    {prefer : BitVec 64 → Url}
    (preferred : ∀ h, preferredNodeForHash
      (sortedAffinityNodes client.affinityNodes.liveNodes) h = some (prefer h))
    {order : List Url}
    (ranked : votePreferenceOrder (iteration.intoIter
      (Tally.ofList ((client.usableHashes murmur3X64128 op).map prefer))) = some order) :
    client.getQueryPlan murmur3X64128 iteration input =
      .newWithPreferredNodes .affinity order
        (sortedAffinityNodes client.affinityNodes.liveNodes) := by
  rw [getQueryPlan, tryAffinityPlan_batchWrite found applies batch preferred ranked,
    Option.getD_some]

/-- Every other request has no affinity plan. -/
theorem tryAffinityPlan_of_not_routable (h : ¬ client.Routable murmur3X64128 input) :
    (client.tryAffinityPlan murmur3X64128 iteration input).1 = none := by
  rw [tryAffinityPlan]
  by_cases disabled : client.affinityType = .none
  · rw [if_pos disabled]
  rw [if_neg disabled]
  cases found : DynamoOp.fromInput input with
  | none => rfl
  | some op =>
      by_cases applies : op.shouldApply client.affinityType = true
      · have unusable : client.usableHashes murmur3X64128 op = [] := by
          by_contra usable
          exact h ⟨op, found, applies, usable⟩
        rw [usableHashes_eq_filterMap] at unusable
        have first := KeyLookup.firstHash_eq_head? (op.partitionKeyCandidates.map
          (client.candidatePartitionKeyHash murmur3X64128))
        rw [unusable, List.head?_nil] at first
        have listed : iteration.intoIter ∅ = [] := (iteration.lists ∅).eq_nil
        simp only [applies, if_true]
        split
        · simp [KeyLookup.castVotes_of_no_hash _ unusable, listed, votePreferenceOrder]
        · simp [first]
      · simp only [applies]
        rfl

/-- It draws round-robin from the client's ordinary view. -/
theorem getQueryPlan_of_not_routable (h : ¬ client.Routable murmur3X64128 input) :
    client.getQueryPlan murmur3X64128 iteration input = .newBasic .ordinary := by
  rw [getQueryPlan, tryAffinityPlan_of_not_routable h, Option.getD_none]

end AffinityQueryPlanInterceptor

section SameKeys

/-! ## Requests for the same keys -/

variable (cache : String → Option String)

/-- Both maps have the same value, or none, for the key of the table. -/
def SameKeyIn (table : String) (left right : Attributes) : Prop :=
  ∀ pkName, cache table = some pkName → left pkName = right pkName

def SameCandidate (left right : PartitionKeyCandidate) : Prop :=
  left.tableName = right.tableName ∧ SameKeyIn cache left.tableName left.attributes right.attributes

def SameWrite (table : String) (left right : WriteRequest) : Prop :=
  Option.Rel (SameKeyIn cache table) (batchWriteRequestAttributes left)
    (batchWriteRequestAttributes right)

/-- The lists are related element by element once one of them is reordered. -/
def Reordered {α : Type} (r : α → α → Prop) (left right : List α) : Prop :=
  ∃ middle, left.Perm middle ∧ List.Forall₂ r middle right

/-- The write requests of one table, in any order. -/
def SameTable (left right : String × List WriteRequest) : Prop :=
  left.1 = right.1 ∧ Reordered (SameWrite cache left.1) left.2 right.2

/-- Two operations write the same partition keys. Their other attributes are arbitrary,
and so are the orders of a batch's tables and of the write requests of each table. -/
def SameKeys : DynamoOp → DynamoOp → Prop
  | .batchWrite left, .batchWrite right =>
      Reordered (SameTable cache) (left.requestItems.getD []) (right.requestItems.getD [])
  | .batchWrite _, _ => False
  | _, .batchWrite _ => False
  | left, right =>
      List.Forall₂ (SameCandidate cache) left.partitionKeyCandidates right.partitionKeyCandidates

theorem Reordered.flatMap_perm {α β : Type} {r : α → α → Prop} {left right : List α}
    (h : Reordered r left right) (f g : α → List β) (step : ∀ a b, r a b → (f a).Perm (g b)) :
    (left.flatMap f).Perm (right.flatMap g) := by
  obtain ⟨middle, reordered, related⟩ := h
  refine (reordered.flatMap_right f).trans ?_
  clear reordered
  induction related with
  | nil => exact .nil
  | cons first rest ih =>
      rw [List.flatMap_cons, List.flatMap_cons]
      exact (step _ _ first).append ih

variable {cache} in
/-- Operations that write the same keys write to the same tables. -/
theorem SameKeys.tables_perm {op op' : DynamoOp} (same : SameKeys cache op op') :
    (op.partitionKeyCandidates.map PartitionKeyCandidate.tableName).Perm
      (op'.partitionKeyCandidates.map PartitionKeyCandidate.tableName) := by
  have single {found found' : List PartitionKeyCandidate}
      (candidates : List.Forall₂ (SameCandidate cache) found found') :
      found.map PartitionKeyCandidate.tableName = found'.map PartitionKeyCandidate.tableName := by
    induction candidates with
    | nil => rfl
    | cons first rest ih => rw [List.map_cons, List.map_cons, ih, first.1]
  cases op <;> cases op'
  case batchWrite.batchWrite r r' =>
    rw [DynamoOp.partitionKeyCandidates, DynamoOp.partitionKeyCandidates, List.map_flatMap,
      List.map_flatMap]
    apply Reordered.flatMap_perm same
    rintro ⟨table, writes⟩ ⟨table', writes'⟩ ⟨sameTable, sameWrites⟩
    cases sameTable
    rw [List.map_filterMap, List.map_filterMap, List.filterMap_eq_flatMap_toList,
      List.filterMap_eq_flatMap_toList]
    apply sameWrites.flatMap_perm
    intro write write' sameWrite
    rw [SameWrite] at sameWrite
    generalize batchWriteRequestAttributes write = found at sameWrite ⊢
    generalize batchWriteRequestAttributes write' = found' at sameWrite ⊢
    cases sameWrite with
    | none => rfl
    | some key => rfl
  all_goals first
    | exact absurd same id
    | exact .of_eq (single same)

namespace AffinityQueryPlanInterceptor

variable {Url : Type} {murmur3X64128 : Murmur3} {left right : AffinityQueryPlanInterceptor Url}
variable {op op' : DynamoOp}

/-- Only the cached key of the table is read from a candidate. -/
theorem candidatePartitionKeyHash_congr (sameCache : left.resolver.cache = right.resolver.cache)
    {candidate candidate' : PartitionKeyCandidate}
    (same : SameCandidate left.resolver.cache candidate candidate') :
    left.candidatePartitionKeyHash murmur3X64128 candidate =
      right.candidatePartitionKeyHash murmur3X64128 candidate' := by
  obtain ⟨table, key⟩ := same
  rw [candidatePartitionKeyHash, candidatePartitionKeyHash, PartitionKeyResolver.getPartitionKey,
    PartitionKeyResolver.getPartitionKey, ← sameCache, ← table]
  cases cached : left.resolver.cache candidate.tableName with
  | none => rfl
  | some pkName => simp only [key pkName cached]

/-- The usable hashes of the write requests of one table. -/
def tableHashes (client : AffinityQueryPlanInterceptor Url) (murmur3X64128 : Murmur3)
    (table : String × List WriteRequest) : List (BitVec 64) :=
  table.2.flatMap fun write =>
    (((batchWriteRequestAttributes write).map (PartitionKeyCandidate.mk table.1)).bind fun
      candidate => (client.candidatePartitionKeyHash murmur3X64128 candidate).hash?).toList

theorem usableHashes_batchWrite (r : BatchWriteItemInput) :
    left.usableHashes murmur3X64128 (.batchWrite r) =
      (r.requestItems.getD []).flatMap (left.tableHashes murmur3X64128) := by
  rw [usableHashes, DynamoOp.partitionKeyCandidates, List.filterMap_flatMap]
  congr 1
  funext table
  rw [List.filterMap_filterMap, tableHashes, ← List.filterMap_eq_flatMap_toList]

theorem usableHashes_batchWrite_perm (sameCache : left.resolver.cache = right.resolver.cache)
    {r r' : BatchWriteItemInput}
    (same : SameKeys left.resolver.cache (.batchWrite r) (.batchWrite r')) :
    (left.usableHashes murmur3X64128 (.batchWrite r)).Perm
      (right.usableHashes murmur3X64128 (.batchWrite r')) := by
  rw [usableHashes_batchWrite, usableHashes_batchWrite]
  apply same.flatMap_perm
  rintro ⟨table, writes⟩ ⟨table', writes'⟩ ⟨sameTable, sameWrites⟩
  cases sameTable
  apply sameWrites.flatMap_perm
  intro write write' sameWrite
  apply List.Perm.of_eq
  rw [SameWrite] at sameWrite
  generalize batchWriteRequestAttributes write = found at sameWrite ⊢
  generalize batchWriteRequestAttributes write' = found' at sameWrite ⊢
  cases sameWrite with
  | none => rfl
  | @some attributes attributes' key =>
      have same : SameCandidate left.resolver.cache ⟨table, attributes⟩ ⟨table, attributes'⟩ :=
        ⟨rfl, key⟩
      simp only [Option.map_some, Option.bind_some]
      rw [candidatePartitionKeyHash_congr sameCache same]

/-- Requests for the same keys have the same usable hashes, those of a single-item write
in the same order. -/
theorem usableHashes_perm (sameCache : left.resolver.cache = right.resolver.cache)
    (same : SameKeys left.resolver.cache op op') :
    op.isBatchWrite = op'.isBatchWrite ∧
      (left.usableHashes murmur3X64128 op).Perm (right.usableHashes murmur3X64128 op') ∧
      (op.isBatchWrite = false →
        left.usableHashes murmur3X64128 op = right.usableHashes murmur3X64128 op') := by
  have single (candidates : List.Forall₂ (SameCandidate left.resolver.cache)
      op.partitionKeyCandidates op'.partitionKeyCandidates) :
      left.usableHashes murmur3X64128 op = right.usableHashes murmur3X64128 op' := by
    rw [usableHashes, usableHashes]
    generalize op.partitionKeyCandidates = found at candidates ⊢
    generalize op'.partitionKeyCandidates = found' at candidates ⊢
    induction candidates with
    | nil => rfl
    | cons first rest ih =>
        rw [List.filterMap_cons, List.filterMap_cons, ih,
          candidatePartitionKeyHash_congr sameCache first]
  cases op <;> cases op'
  case batchWrite.batchWrite =>
    exact ⟨rfl, usableHashes_batchWrite_perm sameCache same, fun single => nomatch single⟩
  all_goals first
    | exact absurd same id
    | exact ⟨rfl, .of_eq (single same), fun _ => single same⟩

end AffinityQueryPlanInterceptor

end SameKeys

section Agreement

/-! ## Agreement -/

variable {Url : Type} [LinearOrder Url]

/-- The ranking of votes forgets the order of the votes and of the iteration. -/
theorem votePreferenceOrder_congr (iteration iteration' : VoteIteration Url) {votes votes' : List Url}
    (h : votes.Perm votes') :
    votePreferenceOrder (iteration.intoIter (Tally.ofList votes)) =
      votePreferenceOrder (iteration'.intoIter (Tally.ofList votes')) :=
  votePreferenceOrder_perm
    (((iteration.lists _).trans ((Tally.ofList_perm h).map _)).trans (iteration'.lists _).symm)

/-- Whatever the iteration order, the entries are the voted nodes with their counts. -/
theorem VoteIteration.mem_intoIter (iteration : VoteIteration Url) {votes : List Url}
    {vote : Url × Nat} :
    vote ∈ iteration.intoIter (Tally.ofList votes) ↔
      vote.1 ∈ votes ∧ vote.2 = votes.count vote.1 := by
  rw [(iteration.lists _).mem_iff, ← Tally.mem_entries_ofList, List.mem_map]
  constructor
  · rintro ⟨⟨node, count⟩, entry, rfl⟩
    exact entry
  · exact fun entry => ⟨⟨vote.1, vote.2⟩, entry, rfl⟩

/-- The ranked nodes are those that were voted for. -/
theorem exists_votePreferenceOrder (iteration : VoteIteration Url) {votes : List Url}
    (voted : votes ≠ []) :
    ∃ order, votePreferenceOrder (iteration.intoIter (Tally.ofList votes)) = some order ∧
      ∀ node, node ∈ order ↔ node ∈ votes := by
  have populated : iteration.intoIter (Tally.ofList votes) ≠ [] := by
    obtain ⟨node, voteOf⟩ := List.exists_mem_of_ne_nil votes voted
    have entry : (node, votes.count node) ∈ iteration.intoIter (Tally.ofList votes) :=
      iteration.mem_intoIter.mpr ⟨voteOf, rfl⟩
    exact List.ne_nil_of_mem entry
  have ranked : votePreferenceOrder (iteration.intoIter (Tally.ofList votes)) =
      some (((iteration.intoIter (Tally.ofList votes)).insertionSort VoteOrder).map Prod.fst) := by
    rw [votePreferenceOrder, if_neg]
    rwa [List.isEmpty_iff]
  refine ⟨_, ranked, fun node => ?_⟩
  rw [mem_votePreferenceOrder ranked]
  simp [iteration.mem_intoIter]

namespace AffinityQueryPlanInterceptor

variable {murmur3X64128 : Murmur3} {left right : AffinityQueryPlanInterceptor Url}
variable {iteration iteration' : VoteIteration Url} {input input' : Input} {op op' : DynamoOp}

/-- Permuted memberships and requests for the same keys give one and the same plan. -/
theorem getQueryPlan_congr (sameType : left.affinityType = right.affinityType)
    (sameCache : left.resolver.cache = right.resolver.cache)
    (sameNodes : left.affinityNodes.liveNodes.Perm right.affinityNodes.liveNodes)
    (populated : left.affinityNodes.liveNodes ≠ [])
    (found : DynamoOp.fromInput input = some op) (found' : DynamoOp.fromInput input' = some op')
    (applies : op.shouldApply left.affinityType = true)
    (applies' : op'.shouldApply left.affinityType = true)
    (usable : left.usableHashes murmur3X64128 op ≠ [])
    (same : SameKeys left.resolver.cache op op') :
    ∃ nodes : List Url, 0 < nodes.length ∧
      left.getQueryPlan murmur3X64128 iteration input = ⟨.affinity, .ordered nodes 0⟩ ∧
      right.getQueryPlan murmur3X64128 iteration' input' = ⟨.affinity, .ordered nodes 0⟩ := by
  obtain ⟨sameKind, sameHashes, sameFirst⟩ :=
    usableHashes_perm sameCache same
  have sorted := sortedAffinityNodes_perm sameNodes
  have listed := sortedAffinityNodes_ne_nil populated
  rw [sameType] at applies'
  cases batch : op.isBatchWrite with
  | false =>
      obtain ⟨hash, rest, hashes⟩ := List.exists_cons_of_ne_nil usable
      have first : (left.usableHashes murmur3X64128 op).head? = some hash := by rw [hashes]; rfl
      have first' := first
      rw [sameFirst batch] at first'
      refine ⟨_, ?_, getQueryPlan_singleItem found applies batch first, ?_⟩
      · rw [(drawOrder_perm _ _).length_eq]
        exact List.length_pos_iff.mpr listed
      · rw [getQueryPlan_singleItem found' applies' (sameKind ▸ batch) first',
          QueryPlan.newWithHash, sorted]
  | true =>
      obtain ⟨prefer, preferred⟩ := exists_prefer listed
      have voted : (left.usableHashes murmur3X64128 op).map prefer ≠ [] := by simpa using usable
      obtain ⟨order, ranked, -⟩ := exists_votePreferenceOrder iteration voted
      have ranked' := ranked
      rw [votePreferenceOrder_congr iteration iteration' (sameHashes.map prefer)] at ranked'
      refine ⟨_, ?_, getQueryPlan_batchWrite found applies batch preferred ranked, ?_⟩
      · rw [(QueryPlan.preferFirst_perm _ _).length_eq]
        exact List.length_pos_iff.mpr listed
      · rw [sorted] at preferred
        rw [getQueryPlan_batchWrite found' applies' (sameKind ▸ batch) preferred ranked',
          QueryPlan.newWithPreferredNodes, sorted]

/-- A batch whose usable keys all have one hash, and a single-item write with that hash,
start at the same node. -/
theorem first_attempt_congr
    (sameNodes : left.affinityNodes.liveNodes.Perm right.affinityNodes.liveNodes)
    (populated : left.affinityNodes.liveNodes ≠ [])
    (found : DynamoOp.fromInput input = some op) (found' : DynamoOp.fromInput input' = some op')
    (applies : op.shouldApply left.affinityType = true)
    (applies' : op'.shouldApply right.affinityType = true)
    (batch : op.isBatchWrite = true) (single : op'.isBatchWrite = false)
    (usable : left.usableHashes murmur3X64128 op ≠ []) {hash : BitVec 64}
    (alike : ∀ h ∈ left.usableHashes murmur3X64128 op, h = hash)
    (key : (right.usableHashes murmur3X64128 op').head? = some hash) :
    ∃ node : Url, ∃ nodes nodes' : List Url,
      left.getQueryPlan murmur3X64128 iteration input = ⟨.affinity, .ordered (node :: nodes) 0⟩ ∧
      right.getQueryPlan murmur3X64128 iteration' input' =
        ⟨.affinity, .ordered (node :: nodes') 0⟩ := by
  have listed := sortedAffinityNodes_ne_nil populated
  obtain ⟨prefer, preferred⟩ := exists_prefer listed
  have voted : (left.usableHashes murmur3X64128 op).map prefer ≠ [] := by simpa using usable
  obtain ⟨order, ranked, members⟩ := exists_votePreferenceOrder iteration voted
  -- Every vote is for the preferred node of the one hash.
  have unanimous : ∀ node ∈ order, node = prefer hash := by
    intro node member
    obtain ⟨h, usableHash, rfl⟩ := List.mem_map.mp ((members node).mp member)
    rw [alike h usableHash]
  have elected : ∃ rest, order = prefer hash :: rest := by
    obtain ⟨h, usableHash⟩ := List.exists_mem_of_ne_nil _ usable
    obtain ⟨first, rest, rfl⟩ := List.exists_cons_of_ne_nil
      (List.ne_nil_of_mem ((members (prefer h)).mpr (List.mem_map_of_mem usableHash)))
    exact ⟨rest, by rw [unanimous first List.mem_cons_self]⟩
  obtain ⟨others, rfl⟩ := elected
  have present := preferredNodeForHash_mem (preferred hash)
  obtain ⟨nodes, votedFirst⟩ :=
    List.head?_eq_some_iff.mp (@head?_preferFirst Url _ (prefer hash) others _ present)
  have drawnFirst := head?_drawOrder (sortedAffinityNodes right.affinityNodes.liveNodes) hash
  rw [← sortedAffinityNodes_perm sameNodes, preferred hash] at drawnFirst
  obtain ⟨nodes', drawn⟩ := List.head?_eq_some_iff.mp drawnFirst
  refine ⟨prefer hash, nodes, nodes', ?_, ?_⟩
  · rw [getQueryPlan_batchWrite found applies batch preferred ranked,
      QueryPlan.newWithPreferredNodes, votedFirst]
  · rw [getQueryPlan_singleItem found' applies' single key, QueryPlan.newWithHash,
      ← sortedAffinityNodes_perm sameNodes, drawn]

end AffinityQueryPlanInterceptor

end Agreement

section Clients

variable {Url : Type} [LinearOrder Url]

/-- Two clients with one configuration, whose affinity views list the same nodes in any
order, route the writes of a key through the same nodes. No reachable view is empty. -/
theorem clients_agree_on_coordinators (murmur3X64128 : Murmur3)
    (iteration iteration' : VoteIteration Url) (left right : AffinityQueryPlanInterceptor Url)
    (sameType : left.affinityType = right.affinityType)
    (sameCache : left.resolver.cache = right.resolver.cache)
    (sameNodes : left.affinityNodes.liveNodes.Perm right.affinityNodes.liveNodes)
    (populated : left.affinityNodes.liveNodes ≠ []) :
    (∀ input input' op op', DynamoOp.fromInput input = some op →
      DynamoOp.fromInput input' = some op' → op.shouldApply left.affinityType = true →
      op'.shouldApply right.affinityType = true → left.usableHashes murmur3X64128 op ≠ [] →
      SameKeys left.resolver.cache op op' → ∀ views views' meanwhile meanwhile' n,
        (left.getQueryPlan murmur3X64128 iteration input).attempt views meanwhile n =
          (right.getQueryPlan murmur3X64128 iteration' input').attempt views' meanwhile' n) ∧
    (∀ batch single op op' hash, DynamoOp.fromInput batch = some op →
      DynamoOp.fromInput single = some op' → op.isBatchWrite = true → op'.isBatchWrite = false →
      op.shouldApply left.affinityType = true → op'.shouldApply right.affinityType = true →
      left.usableHashes murmur3X64128 op ≠ [] →
      (∀ h ∈ left.usableHashes murmur3X64128 op, h = hash) →
      right.usableHashes murmur3X64128 op' = [hash] → ∀ views views' meanwhile meanwhile',
        ∃ node, (left.getQueryPlan murmur3X64128 iteration batch).attempt views meanwhile 0 =
            some node ∧
          (right.getQueryPlan murmur3X64128 iteration' single).attempt views' meanwhile' 0 =
            some node) ∧
    (∀ input, (¬ left.Routable murmur3X64128 input →
        left.getQueryPlan murmur3X64128 iteration input = .newBasic .ordinary) ∧
      (¬ right.Routable murmur3X64128 input →
        right.getQueryPlan murmur3X64128 iteration' input = .newBasic .ordinary)) := by
  refine ⟨?_, ?_, ?_⟩
  · intro input input' op op' found found' applies applies' usable same views views' meanwhile
      meanwhile' n
    rw [← sameType] at applies'
    obtain ⟨nodes, listed, plan, plan'⟩ :=
      @AffinityQueryPlanInterceptor.getQueryPlan_congr Url _ murmur3X64128 left right iteration
        iteration' input input' op op' sameType sameCache sameNodes populated found found' applies
        applies' usable same
    rw [plan, plan', QueryPlan.attempt_ordered views meanwhile _ listed,
      QueryPlan.attempt_ordered views' meanwhile' _ listed]
  · intro batch single op op' hash found found' isBatch isSingle applies applies' usable alike key
      views views' meanwhile meanwhile'
    obtain ⟨node, nodes, nodes', plan, plan'⟩ :=
      @AffinityQueryPlanInterceptor.first_attempt_congr Url _ murmur3X64128 left right iteration
        iteration' batch single op op' sameNodes populated found found' applies applies' isBatch
        isSingle usable hash alike (by rw [key]; rfl)
    exact ⟨node, by rw [plan]; rfl, by rw [plan']; rfl⟩
  · exact fun input => ⟨AffinityQueryPlanInterceptor.getQueryPlan_of_not_routable,
      AffinityQueryPlanInterceptor.getQueryPlan_of_not_routable⟩

end Clients

namespace ShuffledBatch

def entriesInOrder : VoteIteration PlainUrl where
  intoIter votes := votes.entries.map fun vote => (vote.1, vote.2)
  lists _ := .refl _

def entriesReversed : VoteIteration PlainUrl where
  intoIter votes := (votes.entries.map fun vote => (vote.1, vote.2)).reverse
  lists _ := List.reverse_perm _

/-- A client of the nodes `a`, `b` and `c`, whose ordinary view has one of them. -/
def client (ordinary : Text) (membership : List Text) : AffinityQueryPlanInterceptor PlainUrl where
  affinityType := .anyWrite
  routingNodes := .new (.fromRack "d" "r") [PlainUrl.node ordinary]
  affinityNodes := .new (.fromDatacenter "d") (membership.map PlainUrl.node)
  resolver := .new (fun _ => some "id") 0

def left : AffinityQueryPlanInterceptor PlainUrl := client ['a'] [['a'], ['b'], ['c']]
def right : AffinityQueryPlanInterceptor PlainUrl := client ['c'] [['c'], ['a'], ['b']]

/-- The hash function on two keys for which its value is known. -/
def fixedVectors : Murmur3 := fun bytes =>
  if bytes = [0x03, 0x01, 0x02, 0x03] then 5026299041734804437
  else if bytes = [0x03, 0xff, 0x00, 0x80] then 14533934253577680
  else 0

def item (id : List UInt8) (note : String) : Attributes := fun name =>
  if name = "id" then some (.b id) else if name = "note" then some (.s note) else none

def batch (items : List Attributes) : BatchWriteItemInput :=
  ⟨some [("t", items.map fun item => ⟨none, some item⟩)]⟩

def put (item : Attributes) : PutItemInput := ⟨some "t", some item, none, none, none⟩

/-- Only the key `id` of the table counts. -/
theorem sameWrite_item (id : List UInt8) (note note' : String) :
    SameWrite left.resolver.cache "t" ⟨none, some (item id note)⟩
      ⟨none, some (item id note')⟩ := by
  apply Option.Rel.some
  rintro _ ⟨⟩
  rfl

def low : List UInt8 := [0x01, 0x02, 0x03]
def high : List UInt8 := [0xff, 0x00, 0x80]

def leftPlan (input : Input) : QueryPlan PlainUrl :=
  left.getQueryPlan fixedVectors entriesInOrder input

def rightPlan (input : Input) : QueryPlan PlainUrl :=
  right.getQueryPlan fixedVectors entriesReversed input

theorem clients_agree_on_coordinators_shuffled :
    (leftPlan (.batchWriteItem (batch [item low "old", item high "old"]))).attempt
        (fun _ => left.affinityNodes) (fun _ => id) 5 =
      (rightPlan (.batchWriteItem (batch [item high "new", item low "new"]))).attempt
        (fun _ => right.affinityNodes) (fun _ => id) 5 ∧
    ∃ node, (leftPlan (.batchWriteItem (batch [item low "old", item low "new"]))).attempt
        (fun _ => left.affinityNodes) (fun _ => id) 0 = some node ∧
      (rightPlan (.putItem (put (item low "new")))).attempt
        (fun _ => right.affinityNodes) (fun _ => id) 0 = some node := by
  obtain ⟨everyAttempt, firstAttempt, -⟩ := clients_agree_on_coordinators fixedVectors
    entriesInOrder entriesReversed left right rfl rfl (by decide) (by decide)
  constructor
  · have same : SameKeys left.resolver.cache
        (.batchWrite (batch [item low "old", item high "old"]))
        (.batchWrite (batch [item high "new", item low "new"])) := by
      refine ⟨_, .refl _, .cons ⟨rfl, _, .swap _ _ _, ?_⟩ .nil⟩
      exact .cons (sameWrite_item high "old" "new") (.cons (sameWrite_item low "old" "new") .nil)
    exact everyAttempt _ _ _ _ rfl rfl rfl rfl (by decide) same _ _ _ _ 5
  · have votes : left.usableHashes fixedVectors
        (.batchWrite (batch [item low "old", item low "new"])) =
          [5026299041734804437, 5026299041734804437] := by decide
    have key : right.usableHashes fixedVectors (.put (put (item low "new"))) =
        [5026299041734804437] := by decide
    exact firstAttempt _ _ _ _ 5026299041734804437 rfl rfl rfl rfl rfl rfl (by rw [votes]; simp)
      (by rw [votes]; simp) key _ _ _ _

end ShuffledBatch

end AlternatorDriver
