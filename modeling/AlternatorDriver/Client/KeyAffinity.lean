import AlternatorDriver.Client.Requests

/-!
# Where the writes of a key go

The attempts of a write whose partition keys are known go round one order of the nodes, whatever
else a client does between them. The order depends on nothing but the keys and the nodes of the
affinity view at the time when the write began. So all clients send the writes of a key to the same
nodes, and a client does so for good once it knows the keys of the tables.
-/

namespace AlternatorDriver

open Foundation Function

variable {Url : Type} [LinearOrder Url]

/-! ## Plans and cached keys -/

namespace AffinityQueryPlanInterceptor

variable {murmur3X64128 : Murmur3} {iteration : VoteIteration Url} {input : Input} {op : DynamoOp}
  {left right interceptor : AffinityQueryPlanInterceptor Url}

omit [LinearOrder Url] in
/-- What a candidate comes to depends on the cached key of its table only. -/
theorem candidatePartitionKeyHash_of_key {candidate : PartitionKeyCandidate}
    (sameKey : left.resolver.cache candidate.tableName =
      right.resolver.cache candidate.tableName) :
    left.candidatePartitionKeyHash murmur3X64128 candidate =
      right.candidatePartitionKeyHash murmur3X64128 candidate := by
  simp only [candidatePartitionKeyHash, PartitionKeyResolver.getPartitionKey, sameKey]

/-- A plan depends on the cached keys of the tables of its input only. -/
theorem getQueryPlan_of_keys (found : DynamoOp.fromInput input = some op)
    (sameType : left.affinityType = right.affinityType)
    (sameNodes : left.affinityNodes = right.affinityNodes)
    (sameKeys : ∀ candidate ∈ op.partitionKeyCandidates,
      left.resolver.cache candidate.tableName = right.resolver.cache candidate.tableName) :
    left.getQueryPlan murmur3X64128 iteration input =
      right.getQueryPlan murmur3X64128 iteration input := by
  have lookups : op.partitionKeyCandidates.map (left.candidatePartitionKeyHash murmur3X64128) =
      op.partitionKeyCandidates.map (right.candidatePartitionKeyHash murmur3X64128) :=
    List.map_congr_left fun candidate member =>
      candidatePartitionKeyHash_of_key (sameKeys candidate member)
  simp only [getQueryPlan, tryAffinityPlan, found, lookups, sameType, sameNodes]

/-- Look-ups that all find the same cache make the plan that one step would make. -/
theorem getQueryPlan_of_batchCandidates {candidates : List PartitionKeyCandidate}
    (batch : interceptor.batchCandidates input = some candidates) :
    ∃ op, DynamoOp.fromInput input = some op ∧ candidates = op.partitionKeyCandidates ∧
      interceptor.getQueryPlan murmur3X64128 iteration input =
        (interceptor.batchPlan iteration (candidates.map
          (interceptor.candidatePartitionKeyHash murmur3X64128))).getD (.newBasic .ordinary) := by
  unfold batchCandidates at batch
  split at batch
  · cases batch
  · next enabled =>
    split at batch
    · cases batch
    · next op found =>
      split at batch
      · next applies =>
        obtain ⟨applies, isBatch⟩ := Bool.and_eq_true_iff.mp applies
        cases batch
        refine ⟨op, found, rfl, ?_⟩
        simp only [getQueryPlan, tryAffinityPlan, enabled, found, applies, isBatch, if_false,
          if_true, batchPlan]
      · cases batch

end AffinityQueryPlanInterceptor

namespace ClientDiscovery

/-- The hashes of the partition keys of an operation that are known and usable. -/
def keyHashes (c : ClientDiscovery Url) (murmur3X64128 : Murmur3) (op : DynamoOp) :
    List (BitVec 64) :=
  op.partitionKeyCandidates.filterMap fun candidate =>
    (c.cachedKey candidate.tableName).bind fun pkName =>
      (candidate.attributes pkName).bind (hashAttributeValue murmur3X64128)

variable {c : ClientDiscovery Url} {keys : PartitionKeyResolver}

omit [LinearOrder Url] in
theorem cachedKey_eq (known : c.partitionKeys = some keys) : c.cachedKey = keys.cache := by
  funext table
  rw [cachedKey, known, Option.bind_some, PartitionKeyResolver.getPartitionKey]

omit [LinearOrder Url] in
theorem keyHashes_eq (known : c.partitionKeys = some keys) (murmur3X64128 : Murmur3)
    (affinityType : KeyRouteAffinityType) (routingNodes affinityNodes : NodeView Url)
    (op : DynamoOp) :
    (⟨affinityType, routingNodes, affinityNodes, keys⟩ :
      AffinityQueryPlanInterceptor Url).usableHashes murmur3X64128 op =
        c.keyHashes murmur3X64128 op := by
  rw [keyHashes, cachedKey_eq known, AffinityQueryPlanInterceptor.usableHashes]
  refine congrArg (fun f => op.partitionKeyCandidates.filterMap f) (funext fun candidate => ?_)
  simp only [AffinityQueryPlanInterceptor.candidatePartitionKeyHash,
    PartitionKeyResolver.getPartitionKey]
  cases keys.cache candidate.tableName with
  | none => rfl
  | some pkName =>
      simp only [Option.bind_some]
      cases (candidate.attributes pkName).bind (hashAttributeValue murmur3X64128) <;> rfl

end ClientDiscovery

/-! ## Operations that follow an order -/

namespace ClientOperation

/-- The attempts of the operation have gone round the order so far, up to this place. -/
structure FollowsTo (order : List Url) (next : Nat) (op : ClientOperation Url) : Prop where
  bound : next ≤ order.length
  plan : op.plan = some ⟨.affinity, .ordered order next⟩
  made : op.planning = none
  place : next % order.length = op.envs.length % order.length
  restarted : ∀ env, op.underway = some (env, true) → next = order.length
  drawn : ∀ (i : Nat) env, op.envs[i]? = some env → env.nextNode = order[i % order.length]?

def Follows (order : List Url) (op : ClientOperation Url) : Prop := ∃ next, op.FollowsTo order next

/-- The plan of the operation is in the making. Its look-ups have found the keys that this
interceptor has cached, and with the others they will make it follow the order. -/
structure Gathers (murmur3X64128 : Murmur3) (interceptor : AffinityQueryPlanInterceptor Url)
    (iteration : VoteIteration Url) (candidates : List PartitionKeyCandidate) (order : List Url)
    (op : ClientOperation Url) : Prop where
  plan : (interceptor.batchPlan iteration (candidates.map
    (interceptor.candidatePartitionKeyHash murmur3X64128))).getD (.newBasic .ordinary) =
      ⟨.affinity, .ordered order 0⟩
  planning : ∃ done rest, candidates = done ++ rest ∧ op.planning =
    some ⟨interceptor, iteration, rest,
      done.map (interceptor.candidatePartitionKeyHash murmur3X64128)⟩
  envs : op.envs = []
  underway : op.underway = none

/-- The operation follows the order, or will once its plan is made. -/
def Settles (murmur3X64128 : Murmur3) (interceptor : AffinityQueryPlanInterceptor Url)
    (iteration : VoteIteration Url) (candidates : List PartitionKeyCandidate) (order : List Url)
    (op : ClientOperation Url) : Prop :=
  op.Follows order ∨ op.Gathers murmur3X64128 interceptor iteration candidates order

omit [LinearOrder Url] in
/-- An order that has just been captured. -/
theorem follows_of_plan {order : List Url} {op : ClientOperation Url}
    (plan : op.plan = some ⟨.affinity, .ordered order 0⟩) (made : op.planning = none)
    (envs : op.envs = []) (underway : op.underway = none) : op.Follows order := by
  refine ⟨0, Nat.zero_le _, plan, made, ?_, ?_, ?_⟩
  · rw [envs, List.length_nil]
  · intro env absent
    cases underway.symm.trans absent
  · intro i env absent
    rw [envs] at absent
    cases absent

/-- The attempts so far have gone round the order. -/
theorem Settles.drawn {murmur3X64128 : Murmur3} {interceptor : AffinityQueryPlanInterceptor Url}
    {iteration : VoteIteration Url} {candidates : List PartitionKeyCandidate} {order : List Url}
    {op : ClientOperation Url}
    (settles : op.Settles murmur3X64128 interceptor iteration candidates order) (i : Nat)
    (env : AttemptEnvironment Url) (attempted : op.envs[i]? = some env) :
    env.nextNode = order[i % order.length]? := by
  obtain ⟨next, follows⟩ | gathers := settles
  · exact follows.drawn i env attempted
  · rw [gathers.envs] at attempted
    cases attempted

end ClientOperation

namespace ClientAtWork

variable {urls : UrlLibrary Url} {acceptsUri : Text → Bool} {murmur3X64128 : Murmur3}
  {flate2 : Flate2} {library : AsyncLibrary} {client : AlternatorClient Url}
  {s : ClientAtWork Url} {e : Event Url} {order : List Url}

/-- The operation that an event is about. -/
def Event.operation? : Event Url → Option Nat
  | .discovery _ => none
  | .operation r _ _ _ _ _ | .plan r | .attempt r _ | .draw r => some r

theorem operations_drawFrom_of_ne {r r' : Nat} (ne : r ≠ r') (op : ClientOperation Url)
    (env : AttemptEnvironment Url) (restarted : Bool) (plan : QueryPlan Url)
    (view : NodeView Url) :
    (s.drawFrom urls acceptsUri library client r' op env restarted plan view).operations r =
      s.operations r := by
  simp only [drawFrom]
  generalize (if restarted then plan.restart else plan).nextNode view = drawn
  split <;> exact update_of_ne ne _ _

/-- An event leaves all other operations as they are. -/
theorem operations_next_of_ne {r : Nat} (other : e.operation? ≠ some r) :
    (s.next urls acceptsUri murmur3X64128 flate2 library client e).operations r =
      s.operations r := by
  have apart {r' : Nat} (same : e.operation? = some r') : r ≠ r' :=
    fun here => other (by rw [same, here])
  cases e with
  | discovery e => rfl
  | operation r' sender iteration input overrides request => exact update_of_ne (apart rfl) _ _
  | plan r' =>
      have ne := apart rfl
      simp only [next]
      split
      · split
        · exact update_of_ne ne _ _
        · rfl
      · rfl
  | attempt r' env =>
      simp only [next]
      split
      · exact update_of_ne (apart rfl) _ _
      · rfl
  | draw r' =>
      have ne := apart rfl
      simp only [next]
      split
      · split
        · rfl
        · exact update_of_ne ne _ _
        · split
          · next operation here view viewed =>
            exact operations_drawFrom_of_ne ne ..
          · rfl
      · rfl

variable {r next : Nat} {op : ClientOperation Url} {env : AttemptEnvironment Url}

omit [LinearOrder Url] in
/-- An attempt that has drawn the next node of the order comes to its end. -/
theorem follows_finish (follows : op.FollowsTo order next) {next' : Nat} {nextNode : Option Url}
    (drawn : nextNode = order[op.envs.length % order.length]?) (bound : next' ≤ order.length)
    (place : next' % order.length = (op.envs.length + 1) % order.length) :
    ∃ op', (s.finish urls acceptsUri library client r op env nextNode
        (some ⟨.affinity, .ordered order next'⟩)).operations r = some op' ∧ op'.Follows order := by
  refine ⟨_, update_self .., next', bound, rfl, follows.made, ?_, ?_, ?_⟩
  · rw [place, List.length_append, List.length_singleton]
  · intro env absent
    cases absent
  · intro i env' found
    obtain earlier | past := Nat.lt_or_ge i op.envs.length
    · rw [List.getElem?_append_left earlier] at found
      exact follows.drawn i env' found
    · obtain last | after := Nat.eq_or_lt_of_le past
      · rw [List.getElem?_append_right past, ← last, Nat.sub_self] at found
        cases found
        rw [← last]
        exact drawn
      · rw [List.getElem?_eq_none (by simp; omega)] at found
        cases found

/-- A draw takes the next node of the order, the first one again after the last. -/
theorem follows_drawFrom (populated : 0 < order.length) (s : ClientAtWork Url)
    (follows : op.FollowsTo order next) {restarted : Bool}
    (underway : op.underway = some (env, restarted)) (view : NodeView Url) :
    ∃ op', (s.drawFrom urls acceptsUri library client r op env restarted
        ⟨.affinity, .ordered order next⟩ view).operations r = some op' ∧ op'.Follows order := by
  have place := follows.place
  cases restarted with
  | false =>
      obtain inside | past := Nat.lt_or_eq_of_le follows.bound
      · have found : order[next]? = some order[next] := List.getElem?_eq_getElem inside
        simp only [drawFrom, Bool.false_eq_true, if_false, QueryPlan.nextNode, found,
          Option.isNone_some, Bool.false_and]
        refine follows_finish follows ?_ inside ?_
        · rw [← place, Nat.mod_eq_of_lt inside, found]
        · rw [Nat.add_mod, place, ← Nat.add_mod]
      · have exhausted : order[next]? = none := List.getElem?_eq_none (by omega)
        simp only [drawFrom, Bool.false_eq_true, if_false, QueryPlan.nextNode, exhausted,
          Option.isNone_none, Bool.not_false, Bool.and_self, if_true]
        refine ⟨_, update_self .., next, follows.bound, follows.plan, follows.made, place, ?_,
          follows.drawn⟩
        rintro _ ⟨⟩
        exact past
  | true =>
      have first : order[0]? = some order[0] := List.getElem?_eq_getElem populated
      have wrapped : op.envs.length % order.length = 0 := by
        rw [← place, follows.restarted env underway, Nat.mod_self]
      simp only [drawFrom, if_true, QueryPlan.restart, QueryPlan.nextNode, first,
        Option.isNone_some, Bool.false_and, Bool.false_eq_true, if_false]
      refine follows_finish follows ?_ populated ?_
      · rw [wrapped, first]
      · have moved := Nat.add_mod op.envs.length 1 order.length
        rw [wrapped, Nat.zero_add, Nat.mod_mod] at moved
        exact moved.symm

/-- Whatever happens, an operation that follows an order does not leave it. -/
theorem follows_next (populated : 0 < order.length) (guard : s.enabled urls client e)
    (follows : ∃ op, s.operations r = some op ∧ op.Follows order) :
    ∃ op, (s.next urls acceptsUri murmur3X64128 flate2 library client e).operations r = some op ∧
      op.Follows order := by
  obtain ⟨op, here, next, follows⟩ := follows
  by_cases own : e.operation? = some r
  · cases e with
    | discovery e => cases own
    | operation r' sender iteration input overrides request =>
        cases own
        rw [guard.1] at here
        cases here
    | plan r' =>
        cases own
        obtain ⟨op', here', making⟩ := guard
        cases here.symm.trans here'
        simp [follows.made] at making
    | attempt r' env =>
        cases own
        simp only [ClientAtWork.next, here]
        refine ⟨_, update_self .., next, follows.bound, follows.plan, follows.made, follows.place,
          ?_, follows.drawn⟩
        rintro _ ⟨⟩
    | draw r' =>
        cases own
        simp only [ClientAtWork.next, here, follows.plan]
        split
        · exact ⟨op, here, next, follows⟩
        · next absent => cases absent
        · next env restarted plan underway planned =>
          cases planned
          split
          · exact follows_drawFrom populated s follows underway _
          · exact ⟨op, here, next, follows⟩
  · exact ⟨op, (operations_next_of_ne own).trans here, next, follows⟩

/-- The discovery of a run is a run that discovery admits. -/
theorem admits_discoveryEvents {events : List (Event Url)}
    (run : (machine urls acceptsUri murmur3X64128 flate2 library client).Admits s events) :
    (ClientDiscovery.machine (client.managerConfig urls)).Admits s.discovery
      (discoveryEvents events) := by
  induction events generalizing s with
  | nil => trivial
  | cons e events ih =>
      obtain ⟨guard, rest⟩ := run
      have later := ih rest
      rw [show ((machine urls acceptsUri murmur3X64128 flate2 library client).next s e).discovery =
        _ from discovery_next s e] at later
      cases e with
      | discovery e => exact ⟨guard, later⟩
      | operation r sender iteration input overrides request => exact later
      | plan r => exact later
      | attempt r env => exact later
      | draw r => exact later

/-- The discovery of a client after some events. Operations have no part in it. -/
def discoveryAfter (urls : UrlLibrary Url) (client : AlternatorClient Url) (now : Nat)
    (events : List (Event Url)) : ClientDiscovery Url :=
  (ClientDiscovery.machine (client.managerConfig urls)).exec (client.startDiscovery now)
    (discoveryEvents events)

/-- A key that the client knows, it knows for the rest of the run. -/
theorem cachedKey_kept {now : Nat} {before between : List (Event Url)}
    (run : (machine urls acceptsUri murmur3X64128 flate2 library client).Admits
      (start client now) (before ++ between)) {table pkName : String}
    (known : (discoveryAfter urls client now before).cachedKey table = some pkName) :
    (discoveryAfter urls client now (before ++ between)).cachedKey table = some pkName := by
  rw [Machine.admits_append] at run
  have earlier := admits_discoveryEvents run.1
  have later : (ClientDiscovery.machine (client.managerConfig urls)).Admits
      (discoveryAfter urls client now before) (discoveryEvents between) := by
    have rest := admits_discoveryEvents run.2
    rwa [discovery_exec] at rest
  have split : discoveryAfter urls client now (before ++ between) =
      (ClientDiscovery.machine (client.managerConfig urls)).exec
        (discoveryAfter urls client now before) (discoveryEvents between) := by
    rw [discoveryAfter, discoveryEvents, List.filterMap_append, Machine.exec_append]
    rfl
  obtain ⟨keys, here, cached⟩ := Option.bind_eq_some_iff.mp known
  obtain ⟨fresh, moves, started, admits, rfl⟩ :=
    ClientDiscovery.contains_partitionKeys.run earlier here
  have reachable : PartitionKeyResolver.machine.Reachable
      (PartitionKeyResolver.machine.exec fresh moves) := by
    obtain ⟨discovery, -, rfl⟩ := Option.map_eq_some_iff.mp started
    have begins : PartitionKeyResolver.machine.init (.new discovery.pkInfo now) := ⟨_, _, rfl⟩
    exact (Machine.Reachable.init begins).run admits
  have present : (discoveryAfter urls client now (before ++ between)).partitionKeys.isSome =
      true := by
    rw [split, (ClientDiscovery.isSome_run later).2]
    exact Option.isSome_iff_exists.mpr ⟨_, here⟩
  obtain ⟨keys', after⟩ := Option.isSome_iff_exists.mp present
  obtain ⟨middle, moves', origin, admits', rfl⟩ :=
    ClientDiscovery.contains_partitionKeys.run later (split ▸ after)
  obtain rfl : middle = _ := Option.some.inj (origin.symm.trans here)
  rw [ClientDiscovery.cachedKey, after, Option.bind_some, PartitionKeyResolver.getPartitionKey]
  exact PartitionKeyResolver.cache_preserved reachable admits' cached

variable {interceptor : AffinityQueryPlanInterceptor Url} {iteration : VoteIteration Url}
  {candidates : List PartitionKeyCandidate}

/-- A look-up that finds the key of its table, and the end of the making. -/
theorem settles_goOnPlanning {planning : BatchPlanning Url} {resolver : PartitionKeyResolver}
    (gathers : op.Gathers murmur3X64128 interceptor iteration candidates order)
    (here : op.planning = some planning)
    (agree : ∀ candidate ∈ candidates,
      resolver.cache candidate.tableName = interceptor.resolver.cache candidate.tableName) :
    (goOnPlanning murmur3X64128 op planning resolver).Settles murmur3X64128 interceptor iteration
      candidates order := by
  obtain ⟨plan, ⟨done, rest, split, begun⟩, envs, underway⟩ := gathers
  cases begun.symm.trans here
  cases rest with
  | nil =>
      rw [List.append_nil] at split
      subst split
      exact .inl (ClientOperation.follows_of_plan (congrArg some plan) rfl envs underway)
  | cons candidate rest =>
      have met : ({ interceptor with resolver := resolver } :
          AffinityQueryPlanInterceptor Url).candidatePartitionKeyHash murmur3X64128 candidate =
            interceptor.candidatePartitionKeyHash murmur3X64128 candidate := by
        refine AffinityQueryPlanInterceptor.candidatePartitionKeyHash_of_key
          (agree candidate ?_)
        rw [split]
        exact List.mem_append_right _ List.mem_cons_self
      refine .inr ⟨plan, ⟨done ++ [candidate], rest, by simp [split], ?_⟩, envs, underway⟩
      simp [goOnPlanning, met]

/-- As long as the cached keys stay, an operation follows its order or is on the way to it. -/
theorem settles_next (populated : 0 < order.length) (guard : s.enabled urls client e)
    (agree : ∀ resolver, s.discovery.partitionKeys = some resolver → ∀ candidate ∈ candidates,
      resolver.cache candidate.tableName = interceptor.resolver.cache candidate.tableName)
    (settles : ∃ op, s.operations r = some op ∧
      op.Settles murmur3X64128 interceptor iteration candidates order) :
    ∃ op, (s.next urls acceptsUri murmur3X64128 flate2 library client e).operations r = some op ∧
      op.Settles murmur3X64128 interceptor iteration candidates order := by
  obtain ⟨op, here, follows | gathers⟩ := settles
  · obtain ⟨op', after, follows⟩ := @follows_next _ _ urls acceptsUri murmur3X64128 flate2 library
      client s e order r populated guard ⟨op, here, follows⟩
    exact ⟨op', after, .inl follows⟩
  · by_cases own : e.operation? = some r
    · cases e with
      | discovery e => cases own
      | operation r' sender iteration input overrides request =>
          cases own
          rw [guard.1] at here
          cases here
      | plan r' =>
          cases own
          simp only [ClientAtWork.next, here]
          split
          · next planning resolver begun known =>
            exact ⟨_, update_self .., settles_goOnPlanning gathers begun (agree resolver known)⟩
          · exact ⟨op, here, .inr gathers⟩
      | attempt r' env =>
          cases own
          obtain ⟨op', here', made, -⟩ := guard
          cases here.symm.trans here'
          obtain ⟨done, rest, -, begun⟩ := gathers.planning
          cases begun.symm.trans made
      | draw r' =>
          cases own
          obtain ⟨op', here', underway⟩ := guard
          cases here.symm.trans here'
          simp [gathers.underway] at underway
    · exact ⟨op, (operations_next_of_ne own).trans here, .inr gathers⟩

/-- The keys that an operation looks up are known for the rest of the run, so it settles. -/
theorem settles_run (populated : 0 < order.length) {now : Nat} {begun after : List (Event Url)}
    (run : (machine urls acceptsUri murmur3X64128 flate2 library client).Admits
      (start client now) (begun ++ after))
    (known : ∀ candidate ∈ candidates, ∃ pkName,
      (discoveryAfter urls client now begun).cachedKey candidate.tableName = some pkName ∧
      interceptor.resolver.cache candidate.tableName = some pkName)
    (settles : ∃ op, ((machine urls acceptsUri murmur3X64128 flate2 library client).exec
      (start client now) begun).operations r = some op ∧
        op.Settles murmur3X64128 interceptor iteration candidates order) :
    ∃ op, ((machine urls acceptsUri murmur3X64128 flate2 library client).exec (start client now)
      (begun ++ after)).operations r = some op ∧
        op.Settles murmur3X64128 interceptor iteration candidates order := by
  induction after using List.reverseRecOn with
  | nil =>
      rw [List.append_nil]
      exact settles
  | append_singleton after e ih =>
      rw [← List.append_assoc] at run ⊢
      obtain ⟨run, guard, -⟩ := (Machine.admits_append ..).mp run
      rw [Machine.exec_append]
      refine settles_next populated guard (fun resolver present candidate member => ?_) (ih run)
      obtain ⟨pkName, learned, cached⟩ := known candidate member
      have kept := cachedKey_kept run learned
      rw [discovery_exec] at present
      rw [ClientDiscovery.cachedKey_eq (show (discoveryAfter urls client now
        (begun ++ after)).partitionKeys = some resolver from present)] at kept
      exact kept.trans cached.symm

end ClientAtWork

/-! ## Writes -/

/-- With discovery, the operations of a client with affinity get the plans of its affinity
interceptor. -/
theorem AlternatorClient.BuiltFrom.routing_affinity {urls : UrlLibrary Url} {host : Host}
    {config : ClientConfig} {client : AlternatorClient Url}
    (built : client.BuiltFrom urls host config) (present : client.topology.isSome = true)
    {affinity : KeyRouteAffinityConfig} (enabled : client.config.affinity = some affinity) :
    client.partitionKeys.isSome = true ∧
      client.routing .client = some (.affinity affinity.affinityType client.affinityName) := by
  obtain ⟨interceptors, routes, planned⟩ := built.routing_client
  rw [built.same] at enabled
  rw [planned]
  generalize client.topology = topology at routes present
  generalize client.partitionKeys = keys at routes ⊢
  cases routes with
  | direct => cases present
  | roundRobin live disabled =>
      rw [disabled] at enabled
      cases enabled
  | affinity live found valid =>
      rw [found] at enabled
      cases enabled
      exact ⟨rfl, rfl⟩

namespace ClientAtWork

variable {urls : UrlLibrary Url} {acceptsUri : Text → Bool} {murmur3X64128 : Murmur3}
  {flate2 : Flate2} {library : AsyncLibrary} {client : AlternatorClient Url}
  {s : ClientAtWork Url} {host : Host} {config : ClientConfig} {now : Nat}
  {events before : List (Event Url)} {r : Nat} {write : DynamoOp} {nodes : List Url}

/-- After these events of a run the client begins an operation that is a write, and affinity
applies to it. -/
def Writes (client : AlternatorClient Url) (events before : List (Event Url)) (r : Nat)
    (write : DynamoOp) : Prop :=
  ∃ iteration input overrides request after affinity,
    events = before ++ .operation r .client iteration input overrides request :: after ∧
    DynamoOp.fromInput input = some write ∧ client.config.affinity = some affinity ∧
    write.shouldApply affinity.affinityType = true

theorem run_of_writes (run : (machine urls acceptsUri murmur3X64128 flate2 library client).Admits s
    events) (writes : Writes client events before r write) :
    (machine urls acceptsUri murmur3X64128 flate2 library client).Admits s before := by
  obtain ⟨_, _, _, _, _, _, rfl, -⟩ := writes
  exact ((Machine.admits_append ..).mp run).1

/-- The affinity interceptor of a client meets the cached keys and the nodes that are listed. -/
theorem affinityInterceptor_meets {Origin : Url → Prop} (built : client.BuiltFrom urls host config)
    (sound : s.Sound urls acceptsUri flate2 library client Origin)
    {affinity : KeyRouteAffinityConfig} (enabled : client.config.affinity = some affinity)
    (listed : s.discovery.membership client.affinityName = some nodes) :
    ∃ routingNodes affinityNodes keys, affinityNodes.liveNodes = nodes ∧ nodes ≠ [] ∧
      s.discovery.partitionKeys = some keys ∧ s.discovery.view none = some routingNodes ∧
      s.discovery.view client.affinityName = some affinityNodes ∧
      client.routing .client = some (.affinity affinity.affinityType client.affinityName) := by
  obtain ⟨affinityNodes, viewed, rfl⟩ := Option.map_eq_some_iff.mp listed
  have present : client.topology.isSome = true := by
    obtain ⟨manager, here, -⟩ := Option.bind_eq_some_iff.mp viewed
    rw [← sound.topology, here]
    rfl
  obtain ⟨resolver, routing⟩ := built.routing_affinity present enabled
  obtain ⟨keys, kept⟩ := Option.isSome_iff_exists.mp (sound.keys.trans resolver)
  obtain ⟨routingNodes, known⟩ := Option.isSome_iff_exists.mp (sound.views present .ordinary)
  exact ⟨routingNodes, affinityNodes, keys, rfl, (sound.discovery.view viewed).1, kept, known,
    viewed, routing⟩

/-- A write whose plan would be this order if one step made it begins by settling on it. -/
theorem settles_newOperation {affinityType : KeyRouteAffinityType}
    {routingNodes affinityNodes : NodeView Url} {keys : PartitionKeyResolver} {order : List Url}
    {iteration : VoteIteration Url} {input : Input}
    (routing : client.routing .client = some (.affinity affinityType client.affinityName))
    (known : s.discovery.view none = some routingNodes)
    (viewed : s.discovery.view client.affinityName = some affinityNodes)
    (kept : s.discovery.partitionKeys = some keys)
    (found : DynamoOp.fromInput input = some write)
    (plan : AffinityQueryPlanInterceptor.getQueryPlan murmur3X64128 iteration
      ⟨affinityType, routingNodes, affinityNodes, keys⟩ input = ⟨.affinity, .ordered order 0⟩)
    (overrides : List AlternatorOperationBuilder) (request : Request) :
    (s.newOperation murmur3X64128 flate2 client .client iteration input overrides
      request).Settles murmur3X64128 ⟨affinityType, routingNodes, affinityNodes, keys⟩ iteration
        write.partitionKeyCandidates order := by
  have met : (client.routing .client).bind s.affinityInterceptor =
      some ⟨affinityType, routingNodes, affinityNodes, keys⟩ := by
    simp [routing, affinityInterceptor, known, viewed, kept]
  cases batch : AffinityQueryPlanInterceptor.batchCandidates
      ⟨affinityType, routingNodes, affinityNodes, keys⟩ input with
  | none =>
      have unplanned : s.newPlanning client .client iteration input = none := by
        simp [newPlanning, met, batch]
      refine .inl (ClientOperation.follows_of_plan ?_ unplanned rfl rfl)
      simp only [newOperation, unplanned, routing, Option.bind_some, ClientDiscovery.queryPlan,
        viewed, kept, known]
      exact congrArg some plan
  | some candidates =>
      obtain ⟨op, found', rfl, same⟩ :=
        @AffinityQueryPlanInterceptor.getQueryPlan_of_batchCandidates _ _ murmur3X64128 iteration
          _ _ _ batch
      cases found.symm.trans found'
      refine .inr ⟨same.symm.trans plan, ⟨[], write.partitionKeyCandidates, rfl, ?_⟩, rfl, rfl⟩
      show s.newPlanning client .client iteration input = _
      simp [newPlanning, met, batch]

/-- What becomes of a write whose keys are known: if its plan is an order, it follows the order to
the end of the run. -/
theorem plan_of_writes (built : client.BuiltFrom urls host config)
    (run : (machine urls acceptsUri murmur3X64128 flate2 library client).Admits
      (start client now) events) (shuffles : ∀ d ∈ discoveryEvents events, d.Shuffles)
    (writes : Writes client events before r write)
    (learned : ∀ candidate ∈ write.partitionKeyCandidates, ∃ pkName,
      (discoveryAfter urls client now before).cachedKey candidate.tableName = some pkName)
    (listed : (discoveryAfter urls client now before).membership client.affinityName = some nodes) :
    ∃ iteration input affinity routingNodes affinityNodes keys,
      DynamoOp.fromInput input = some write ∧ client.config.affinity = some affinity ∧
      write.shouldApply affinity.affinityType = true ∧
      affinityNodes.liveNodes = nodes ∧ nodes ≠ [] ∧
      (discoveryAfter urls client now before).partitionKeys = some keys ∧
      ∀ order : List Url, 0 < order.length →
        AffinityQueryPlanInterceptor.getQueryPlan murmur3X64128 iteration
          ⟨affinity.affinityType, routingNodes, affinityNodes, keys⟩ input =
            ⟨.affinity, .ordered order 0⟩ →
        ∃ op, ((machine urls acceptsUri murmur3X64128 flate2 library client).exec
          (start client now) events).operations r = some op ∧
            ∀ (i : Nat) env, op.envs[i]? = some env →
              env.nextNode = order[i % order.length]? := by
  obtain ⟨iteration, input, overrides, request, after, affinity, rfl, found, enabled, applies⟩ :=
    writes
  have admits := ((Machine.admits_append ..).mp run).1
  have sound := sound_of_run built admits fun d member => shuffles d <| by
    rw [discoveryEvents, List.filterMap_append]
    exact List.mem_append_left _ member
  have discovered : ((machine urls acceptsUri murmur3X64128 flate2 library client).exec
      (start client now) before).discovery = discoveryAfter urls client now before :=
    discovery_exec _ _
  rw [← discovered] at listed
  obtain ⟨routingNodes, affinityNodes, keys, same, populated, kept, known, viewed, routing⟩ :=
    affinityInterceptor_meets built sound enabled listed
  refine ⟨iteration, input, affinity, routingNodes, affinityNodes, keys, found, enabled, applies,
    same, populated, discovered ▸ kept, ?_⟩
  intro order positive plan
  have unchanged : discoveryAfter urls client now
      (before ++ [.operation r .client iteration input overrides request]) =
        discoveryAfter urls client now before := by
    rw [discoveryAfter, discoveryEvents, List.filterMap_append]
    exact congrArg _ (List.append_nil _)
  have looked : ∀ candidate ∈ write.partitionKeyCandidates, ∃ pkName,
      (discoveryAfter urls client now (before ++
        [.operation r .client iteration input overrides request])).cachedKey candidate.tableName =
          some pkName ∧ keys.cache candidate.tableName = some pkName := by
    intro candidate member
    obtain ⟨pkName, cached⟩ := learned candidate member
    refine ⟨pkName, unchanged ▸ cached, ?_⟩
    rw [← discovered, ClientDiscovery.cachedKey_eq kept] at cached
    exact cached
  rw [List.append_cons] at run ⊢
  obtain ⟨op, here, settles⟩ := settles_run positive run looked
    ⟨_, by rw [Machine.exec_append]; exact update_self .., settles_newOperation routing known viewed
      kept found plan overrides request⟩
  exact ⟨op, here, settles.drawn⟩

/-- Once two clients know the keys of the tables of a write, or one client knows them, the attempts
of all writes with the same keys go round one order of the nodes. It does not matter when the writes
begin, what else they hold and what happens between their attempts, as long as the affinity views
list the same nodes when they begin. -/
theorem writes_of_a_key_keep_to_their_nodes {client' : AlternatorClient Url} {host' : Host}
    {config' : ClientConfig} {now' : Nat}
    {past later past' later' events events' : List (Event Url)} {r' : Nat} {write' : DynamoOp}
    {nodes' : List Url} (built : AlternatorClient.tryFromConf urls host config = .ok client)
    (built' : AlternatorClient.tryFromConf urls host' config' = .ok client')
    (sameType : config.affinity.map KeyRouteAffinityConfig.affinityType =
      config'.affinity.map KeyRouteAffinityConfig.affinityType)
    (run : (machine urls acceptsUri murmur3X64128 flate2 library client).Admits
      (start client now) events)
    (run' : (machine urls acceptsUri murmur3X64128 flate2 library client').Admits
      (start client' now') events')
    (shuffles : ∀ d ∈ discoveryEvents events, d.Shuffles)
    (shuffles' : ∀ d ∈ discoveryEvents events', d.Shuffles)
    (writes : Writes client events (past ++ later) r write)
    (writes' : Writes client' events' (past' ++ later') r' write')
    (known : ∀ candidate ∈ write'.partitionKeyCandidates, ∃ pkName,
      (discoveryAfter urls client now past).cachedKey candidate.tableName = some pkName ∧
      (discoveryAfter urls client' now' past').cachedKey candidate.tableName = some pkName)
    (listed : (discoveryAfter urls client now (past ++ later)).membership client.affinityName =
      some nodes)
    (listed' : (discoveryAfter urls client' now' (past' ++ later')).membership
      client'.affinityName = some nodes') (sameNodes : nodes.Perm nodes')
    (usable : (discoveryAfter urls client now (past ++ later)).keyHashes murmur3X64128 write ≠ [])
    (same : SameKeys (discoveryAfter urls client now (past ++ later)).cachedKey write write')
    {op op' : ClientOperation Url}
    (here : ((machine urls acceptsUri murmur3X64128 flate2 library client).exec
      (start client now) events).operations r = some op)
    (here' : ((machine urls acceptsUri murmur3X64128 flate2 library client').exec
      (start client' now') events').operations r' = some op') :
    ∃ order : List Url, order.Perm nodes ∧
      (∀ (i : Nat) env, op.envs[i]? = some env → env.nextNode = order[i % order.length]?) ∧
      ∀ (i : Nat) env, op'.envs[i]? = some env → env.nextNode = order[i % order.length]? := by
  have built := AlternatorClient.builtFrom_of_tryFromConf built
  have built' := AlternatorClient.builtFrom_of_tryFromConf built'
  -- The writes are to the same tables, so the keys of both are known when they begin.
  have learned : ∀ candidate ∈ write.partitionKeyCandidates, ∃ pkName,
      (discoveryAfter urls client now (past ++ later)).cachedKey candidate.tableName =
        some pkName := by
    intro candidate member
    obtain ⟨candidate', member', table⟩ := List.mem_map.mp
      (same.tables_perm.mem_iff.mp (List.mem_map_of_mem member))
    obtain ⟨pkName, learned, -⟩ := known candidate' member'
    exact ⟨pkName, cachedKey_kept (run_of_writes run writes) (table ▸ learned)⟩
  have learned' : ∀ candidate ∈ write'.partitionKeyCandidates, ∃ pkName,
      (discoveryAfter urls client' now' (past' ++ later')).cachedKey candidate.tableName =
        some pkName := by
    intro candidate member
    obtain ⟨pkName, -, learned⟩ := known candidate member
    exact ⟨pkName, cachedKey_kept (run_of_writes run' writes') learned⟩
  obtain ⟨iteration, input, affinity, routingNodes, affinityNodes, keys, found, enabled, applies,
    rfl, populated, kept, follows⟩ := plan_of_writes built run shuffles writes learned listed
  obtain ⟨iteration', input', affinity', routingNodes', affinityNodes', keys', found', enabled',
    applies', rfl, -, kept', follows'⟩ := plan_of_writes built' run' shuffles' writes' learned' listed'
  rw [← built.same, ← built'.same, enabled, enabled', Option.map_some, Option.map_some,
    Option.some.injEq] at sameType
  -- What the two knew in the past they know when the writes begin.
  have agree : ∀ candidate ∈ write'.partitionKeyCandidates,
      keys.cache candidate.tableName = keys'.cache candidate.tableName := by
    intro candidate member
    obtain ⟨pkName, learned, learned'⟩ := known candidate member
    have knows := cachedKey_kept (run_of_writes run writes) learned
    have knows' := cachedKey_kept (run_of_writes run' writes') learned'
    rw [ClientDiscovery.cachedKey_eq kept] at knows
    rw [ClientDiscovery.cachedKey_eq kept'] at knows'
    exact knows.trans knows'.symm
  rw [ClientDiscovery.cachedKey_eq kept] at same
  rw [← ClientDiscovery.keyHashes_eq kept murmur3X64128 affinity.affinityType routingNodes
    affinityNodes] at usable
  -- The second client plans as if it had the cache of the first.
  have shared := @AffinityQueryPlanInterceptor.getQueryPlan_of_keys Url _ murmur3X64128 iteration'
    input' write' ⟨affinity'.affinityType, routingNodes', affinityNodes', keys⟩
    ⟨affinity'.affinityType, routingNodes', affinityNodes', keys'⟩ found' rfl rfl agree
  obtain ⟨order, positive, plan, plan'⟩ := @AffinityQueryPlanInterceptor.getQueryPlan_congr Url _
    murmur3X64128 ⟨affinity.affinityType, routingNodes, affinityNodes, keys⟩
    ⟨affinity'.affinityType, routingNodes', affinityNodes', keys⟩ iteration iteration' input input'
    write write' sameType rfl sameNodes populated found found' applies
    (sameType ▸ applies') usable same
  obtain ⟨followed, there, drawn⟩ := follows order positive plan
  obtain ⟨followed', there', drawn'⟩ := follows' order positive (shared.symm.trans plan')
  rw [here] at there
  rw [here'] at there'
  cases there
  cases there'
  refine ⟨order, ?_, drawn, drawn'⟩
  obtain basic | ⟨captured, perm, ordered⟩ := @RoutedClient.getQueryPlan_cases Url _ murmur3X64128
    ⟨affinity.affinityType, routingNodes, affinityNodes, keys⟩ iteration input populated
  · rw [plan] at basic
    cases basic
  · rw [plan] at ordered
    cases ordered
    exact perm

section Witness

open ShuffledBatch

/-- A client with two seeds that knows the key of its table. -/
def keyedBuilder : ClientBuilder :=
  (ClientBuilder.afterCalls PlainUrl.library
    [.routing (.setSeedHosts [['a'], ['b']]),
      .setKeyRouteAffinity ⟨.anyWrite, fun _ => some "id"⟩]).get rfl

def keyedClient : AlternatorClient PlainUrl :=
  (AlternatorClient.tryFromConf PlainUrl.library AlternatorClient.plainHost
    (ClientBuilder.build keyedBuilder PlainUrl.library)).toOption.get rfl

/-- A batch, whose first attempt is under way. -/
def firstWrite : List (Event PlainUrl) :=
  [.operation 0 .client entriesInOrder (.batchWriteItem (batch [item low "old", item high "old"]))
      [] EmptyObject.request,
    .plan 0, .plan 0, .plan 0, .attempt 0 signingEnvironment]

/-- The attempts of two batches interleave. -/
def twoWrites : List (Event PlainUrl) :=
  firstWrite ++
    [.operation 1 .client entriesReversed
        (.batchWriteItem (batch [item high "new", item low "new"])) [] EmptyObject.request,
      .plan 1, .plan 1, .plan 1, .attempt 1 signingEnvironment, .draw 1, .draw 0]

def afterTwoWrites : ClientAtWork PlainUrl :=
  (machine PlainUrl.library (fun _ => true) fixedVectors EmptyObject.flate2 EmptyObject.library
    keyedClient).exec (start keyedClient 0) twoWrites

theorem writes_of_a_key_keep_to_their_nodes_twice :
    ∃ op op' env env', afterTwoWrites.operations 0 = some op ∧
      afterTwoWrites.operations 1 = some op' ∧ op.envs[0]? = some env ∧
      op'.envs[0]? = some env' ∧ env.nextNode = env'.nextNode := by
  have built : AlternatorClient.tryFromConf PlainUrl.library AlternatorClient.plainHost
      (ClientBuilder.build keyedBuilder PlainUrl.library) = .ok keyedClient := rfl
  have run : (machine PlainUrl.library (fun _ => true) fixedVectors EmptyObject.flate2
      EmptyObject.library keyedClient).Admits (start keyedClient 0) twoWrites :=
    ⟨⟨rfl, rfl⟩, ⟨_, rfl, rfl⟩, ⟨_, rfl, rfl⟩, ⟨_, rfl, rfl⟩, ⟨_, rfl, rfl, rfl, fun _ => by decide⟩,
      ⟨rfl, rfl⟩, ⟨_, rfl, rfl⟩, ⟨_, rfl, rfl⟩, ⟨_, rfl, rfl⟩, ⟨_, rfl, rfl, rfl, fun _ => by decide⟩,
      ⟨_, rfl, rfl⟩, ⟨_, rfl, rfl⟩, trivial⟩
  have shuffles : ∀ d ∈ discoveryEvents twoWrites, d.Shuffles := by
    simp [twoWrites, firstWrite, discoveryEvents, Event.ofDiscovery]
  have writes : Writes keyedClient twoWrites ([] ++ []) 0
      (.batchWrite (batch [item low "old", item high "old"])) :=
    ⟨_, _, _, _, _, _, rfl, rfl, rfl, rfl⟩
  have writes' : Writes keyedClient twoWrites ([] ++ firstWrite) 1
      (.batchWrite (batch [item high "new", item low "new"])) :=
    ⟨_, _, _, _, _, _, rfl, rfl, rfl, rfl⟩
  have same : SameKeys (discoveryAfter PlainUrl.library keyedClient 0 ([] ++ [])).cachedKey
      (.batchWrite (batch [item low "old", item high "old"]))
      (.batchWrite (batch [item high "new", item low "new"])) := by
    refine ⟨_, .refl _, .cons ⟨rfl, _, .swap _ _ _, ?_⟩ .nil⟩
    exact .cons (sameWrite_item high "old" "new") (.cons (sameWrite_item low "old" "new") .nil)
  obtain ⟨order, -, first, second⟩ := @writes_of_a_key_keep_to_their_nodes PlainUrl _
    PlainUrl.library (fun _ => true) fixedVectors EmptyObject.flate2 EmptyObject.library keyedClient
    AlternatorClient.plainHost _ 0 0 _ _ keyedClient AlternatorClient.plainHost _ 0 [] [] []
    firstWrite twoWrites twoWrites 1 _ _ built built rfl run run shuffles shuffles writes writes'
    (fun _ _ => ⟨"id", rfl, rfl⟩) rfl rfl (.refl _) (by decide) same _ _ rfl rfl
  refine ⟨_, _, _, _, rfl, rfl, rfl, rfl, ?_⟩
  exact (first 0 _ rfl).trans (second 0 _ rfl).symm

end Witness

end ClientAtWork

end AlternatorDriver
