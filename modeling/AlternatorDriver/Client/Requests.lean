import AlternatorDriver.Client.Acceptance
import AlternatorDriver.Client.Origins
import AlternatorDriver.Operation.SignedAttempts

/-!
# Where the requests of a client go

Every attempt of every operation of a client that was built is pointed at a node that is a seed
or was listed in a reply before, and its transport can send to that node. The plan of an
operation draws from the views of the client, whose nodes have an origin, or from what it
captured of one.

What is recorded of an operation is what the operation alone would have recorded, with the nodes
that it drew. So the properties of single operations hold of a client at work.
-/

namespace AlternatorDriver

open Foundation Function

variable {Url : Type}

/-! ## Attempts one at a time -/

section Attempts

variable {urls : UrlLibrary Url} {acceptsUri : Text → Bool} {library : AsyncLibrary}
  {interceptor : DriverInterceptor} {state : InterceptorState} {request : Request}

theorem attempts_concat (envs : List (AttemptEnvironment Url)) (env : AttemptEnvironment Url) :
    interceptor.attempts urls acceptsUri library state request (envs ++ [env]) =
      interceptor.attempts urls acceptsUri library state request envs ++
        [(interceptor.attempt urls acceptsUri library
          (storedAfter urls acceptsUri state request envs) request env).1] := by
  induction envs generalizing state with
  | nil =>
      simp [DriverInterceptor.attempts, storedAfter]
  | cons first envs ih =>
      rw [List.cons_append, DriverInterceptor.attempts, DriverInterceptor.attempts, state_attempt,
        ih, ← storedAfter_append, List.singleton_append, List.cons_append]

end Attempts

/-! ## Operations -/

namespace ClientOperation

/-- The history of an operation is that of the operation alone. -/
structure Recorded (urls : UrlLibrary Url) (acceptsUri : Text → Bool) (flate2 : Flate2)
    (library : AsyncLibrary) (settings : RequestSettings) (op : ClientOperation Url) : Prop where
  request : op.request =
    preparedRequest flate2 settings op.plan.isSome op.overrides op.original
  state : op.state = storedAfter urls acceptsUri
    (storedBeforeSerialization op.plan.isSome op.overrides) op.request op.envs
  records : op.records = settings.interceptor.attempts urls acceptsUri library
    (storedBeforeSerialization op.plan.isSome op.overrides) op.request op.envs

/-- The plan of an operation is sound, and every attempt has drawn a node that has an origin. -/
structure Sound (urls : UrlLibrary Url) (Origin : Url → Prop) (routed : Bool)
    (op : ClientOperation Url) : Prop where
  captured : From Origin op.captured
  planned : op.plan.isSome = routed
  plan : ∀ plan, op.plan = some plan → RoutedRequest.PlanSound op.captured plan
  underway : ∀ env restarted, op.underway = some (env, restarted) → routed = true →
    urls.isHttpUri env.uri = true
  envs : routed = true → ∀ env ∈ op.envs,
    urls.isHttpUri env.uri = true ∧ ∃ node, env.nextNode = some node ∧ Origin node
  planning : ∀ planning, op.planning = some planning → op.plan = some (.newBasic .ordinary) ∧
    op.underway = none ∧ planning.interceptor.affinityNodes.liveNodes = op.captured ∧
      op.captured ≠ []

variable {urls : UrlLibrary Url} {Origin : Url → Prop} {routed : Bool} {op : ClientOperation Url}

/-- An operation whose plan is in the making has no attempt under way. -/
theorem Sound.planning_of_underway (sound : op.Sound urls Origin routed)
    {env : AttemptEnvironment Url} {restarted : Bool}
    (underway : op.underway = some (env, restarted)) : op.planning = none := by
  cases here : op.planning with
  | none => rfl
  | some planning => cases (sound.planning planning here).2.1.symm.trans underway

end ClientOperation

/-- What a sound plan draws has an origin, if the view has such nodes only. -/
theorem origin_of_nextNode {Origin : Url → Prop} {captured : List Url} {plan : QueryPlan Url}
    {view : NodeView Url} [LinearOrder Url] (sound : RoutedRequest.PlanSound captured plan)
    (fromCaptured : From Origin captured) (fromView : From Origin view.liveNodes) {node : Url}
    (drawn : (plan.nextNode view).1 = some node) : Origin node := by
  have member := (plan.nextNode_spec view).2.2.2 node drawn
  cases order : plan.order with
  | none =>
      rw [order, Option.getD_none] at member
      exact fromView node member
  | some nodes =>
      rw [order, Option.getD_some] at member
      exact fromCaptured node ((sound.ordered nodes order).2 node member)

namespace ClientAtWork

variable [LinearOrder Url] {urls : UrlLibrary Url} {acceptsUri : Text → Bool}
  {murmur3X64128 : Murmur3} {flate2 : Flate2} {library : AsyncLibrary}
  {client : AlternatorClient Url} {Origin : Url → Prop} {s : ClientAtWork Url} {e : Event Url}

/-- A request is prepared before its plan is made. -/
theorem recorded_goOnPlanning {op : ClientOperation Url} {settings : RequestSettings}
    {planning : BatchPlanning Url}
    (recorded : op.Recorded urls acceptsUri flate2 library settings)
    (basic : op.plan = some (.newBasic .ordinary)) (resolver : PartitionKeyResolver) :
    (goOnPlanning murmur3X64128 op planning resolver).Recorded urls acceptsUri flate2 library
      settings := by
  obtain ⟨request, state, records⟩ := recorded
  rw [basic] at request state records
  unfold goOnPlanning
  split
  · refine ⟨?_, ?_, ?_⟩
    · rw [basic]
      exact request
    · rw [basic]
      exact state
    · rw [basic]
      exact records
  · exact ⟨request, state, records⟩

/-- What holds in every state of a client at work. -/
structure Sound (urls : UrlLibrary Url) (acceptsUri : Text → Bool) (flate2 : Flate2)
    (library : AsyncLibrary) (client : AlternatorClient Url) (Origin : Url → Prop)
    (s : ClientAtWork Url) : Prop where
  discovery : s.discovery.Obeys ((client.managerConfig urls).inputs.origins Origin)
  topology : s.discovery.topology.isSome = client.topology.isSome
  keys : s.discovery.partitionKeys.isSome = client.partitionKeys.isSome
  views : client.topology.isSome = true → ∀ name,
    (s.discovery.view (client.viewName name)).isSome = true
  operations : ∀ r op, s.operations r = some op →
    op.Sound urls Origin client.topology.isSome ∧
      op.Recorded urls acceptsUri flate2 library client.config.requestSettings

omit [LinearOrder Url] in
theorem Sound.setOperation (sound : s.Sound urls acceptsUri flate2 library client Origin)
    {r : Nat} {op : ClientOperation Url} (kept : op.Sound urls Origin client.topology.isSome)
    (recorded : op.Recorded urls acceptsUri flate2 library client.config.requestSettings) :
    (s.setOperation r op).Sound urls acceptsUri flate2 library client Origin := by
  refine ⟨sound.discovery, sound.topology, sound.keys, sound.views, ?_⟩
  intro r' op' here
  simp only [ClientAtWork.setOperation] at here
  by_cases same : r' = r
  · rw [same, update_self] at here
    cases here
    exact ⟨kept, recorded⟩
  · rw [update_of_ne same] at here
    exact sound.operations r' op' here

omit [LinearOrder Url] in
theorem Sound.setCounter (sound : s.Sound urls acceptsUri flate2 library client Origin)
    (name : Option Nat) (counter : Nat) :
    (s.setCounter name counter).Sound urls acceptsUri flate2 library client Origin :=
  ⟨sound.discovery, sound.topology, sound.keys, sound.views, sound.operations⟩

omit [LinearOrder Url] in
/-- An attempt that comes to its end is recorded. -/
theorem Sound.finish (sound : s.Sound urls acceptsUri flate2 library client Origin) {r : Nat}
    {op : ClientOperation Url} (kept : op.Sound urls Origin client.topology.isSome)
    (recorded : op.Recorded urls acceptsUri flate2 library client.config.requestSettings)
    {env : AttemptEnvironment Url} {nextNode : Option Url} {plan : Option (QueryPlan Url)}
    (same : plan.isSome = op.plan.isSome)
    (plans : ∀ p, plan = some p → RoutedRequest.PlanSound op.captured p)
    (made : op.planning = none) (drawn : client.topology.isSome = true →
      urls.isHttpUri env.uri = true ∧ ∃ node, nextNode = some node ∧ Origin node) :
    (s.finish urls acceptsUri library client r op env nextNode plan).Sound urls acceptsUri flate2
      library client Origin := by
  refine sound.setOperation ⟨kept.captured, same.trans kept.planned, plans, ?_, ?_, ?_⟩ ⟨?_, ?_, ?_⟩
  · intro env restarted absent
    cases absent
  · intro routed env' member
    obtain earlier | latest := List.mem_append.mp member
    · exact kept.envs routed env' earlier
    · rw [List.mem_singleton] at latest
      subst latest
      exact drawn routed
  · intro planning absent
    cases made.symm.trans absent
  · rw [same]
    exact recorded.request
  · rw [state_attempt, recorded.state, same, storedAfter_append]
  · rw [recorded.records, recorded.state, same, attempts_concat]

/-! ## Steps -/

/-- The affinity interceptor makes sound plans of its view. -/
theorem planSound_of_queryPlan {c : ClientDiscovery Url} {inputs : DiscoveryInputs Url}
    (obeys : c.Obeys (inputs.origins Origin)) {iteration : VoteIteration Url} {input : Input}
    {affinityType : KeyRouteAffinityType} {name : Option Nat} {plan : QueryPlan Url}
    {view : NodeView Url}
    (planned : c.queryPlan murmur3X64128 iteration input (.affinity affinityType name) =
      some (plan, view)) :
    ∃ affinityNodes, c.view name = some affinityNodes ∧
      RoutedRequest.PlanSound affinityNodes.liveNodes plan := by
  simp only [ClientDiscovery.queryPlan, Option.bind_eq_bind, Option.bind_eq_some_iff,
    Option.some.injEq, Prod.mk.injEq] at planned
  obtain ⟨routingNodes, -, affinityNodes, known, keys, -, rfl, -⟩ := planned
  exact ⟨affinityNodes, known, RoutedClient.planSound_getQueryPlan
    ⟨affinityType, routingNodes, affinityNodes, keys⟩ iteration input (obeys.view known).1⟩

omit [LinearOrder Url] in
/-- What the plan of a batch begins with. -/
theorem exists_of_newPlanning {sender : Sender} {iteration : VoteIteration Url} {input : Input}
    {planning : BatchPlanning Url}
    (begins : s.newPlanning client sender iteration input = some planning) :
    ∃ affinityType name routingNodes affinityNodes resolver candidates,
      client.routing sender = some (.affinity affinityType name) ∧
      s.discovery.view none = some routingNodes ∧ s.discovery.view name = some affinityNodes ∧
      s.discovery.partitionKeys = some resolver ∧
      AffinityQueryPlanInterceptor.batchCandidates
        ⟨affinityType, routingNodes, affinityNodes, resolver⟩ input = some candidates ∧
      planning =
        ⟨⟨affinityType, routingNodes, affinityNodes, resolver⟩, iteration, candidates, []⟩ := by
  simp only [newPlanning, Option.bind_eq_bind, Option.bind_eq_some_iff, Option.some.injEq] at begins
  obtain ⟨interceptor, ⟨kind, routing, met⟩, candidates, batch, rfl⟩ := begins
  cases kind with
  | roundRobin => cases met
  | affinity affinityType name =>
      simp only [affinityInterceptor, Option.bind_eq_bind, Option.bind_eq_some_iff,
        Option.some.injEq] at met
      obtain ⟨routingNodes, ordinary, affinityNodes, viewed, resolver, kept, rfl⟩ := met
      exact ⟨_, _, _, _, _, _, routing, ordinary, viewed, kept, batch, rfl⟩

omit [LinearOrder Url] in
/-- The node names that an operation captures have an origin. -/
theorem Sound.captures (sound : s.Sound urls acceptsUri flate2 library client Origin) :
    From Origin (((s.discovery.view client.affinityName).map NodeView.liveNodes).getD []) := by
  cases known : s.discovery.view client.affinityName with
  | none => exact fun node absent => absurd absent List.not_mem_nil
  | some view => exact (sound.discovery.view known).2

/-- A batch is planned over the nodes that the operation captures. -/
theorem Sound.newPlanning {host : Host} {config : ClientConfig}
    (built : client.BuiltFrom urls host config)
    (sound : s.Sound urls acceptsUri flate2 library client Origin) {sender : Sender}
    (sends : (client.sdkClient sender).isSome = true) {iteration : VoteIteration Url}
    {input : Input} {planning : BatchPlanning Url}
    (begins : s.newPlanning client sender iteration input = some planning) :
    client.topology.isSome = true ∧
      planning.interceptor.affinityNodes.liveNodes =
        ((s.discovery.view client.affinityName).map NodeView.liveNodes).getD [] ∧
      ((s.discovery.view client.affinityName).map NodeView.liveNodes).getD [] ≠ [] := by
  obtain ⟨affinityType, name, routingNodes, affinityNodes, resolver, candidates, routing, -, viewed,
    -, -, rfl⟩ := exists_of_newPlanning begins
  obtain ⟨-, unrouted⟩ | ⟨present, routes⟩ := built.routing sends
  · cases unrouted.symm.trans routing
  · have own : name = client.affinityName := by
      obtain roundRobin | ⟨-, -, affinityType', affinity⟩ := routes
      · cases roundRobin.symm.trans routing
      · cases affinity.symm.trans routing
        rfl
    subst own
    rw [viewed]
    exact ⟨present, rfl, (sound.discovery.view viewed).1⟩

variable (murmur3X64128) in
/-- A plan that is made in one step is there exactly with discovery, and is sound. -/
theorem Sound.routedPlan {host : Host} {config : ClientConfig}
    (built : client.BuiltFrom urls host config)
    (sound : s.Sound urls acceptsUri flate2 library client Origin) {sender : Sender}
    (sends : (client.sdkClient sender).isSome = true) (iteration : VoteIteration Url)
    (input : Input) {made : Option (QueryPlan Url)}
    (makes : ((client.routing sender).bind fun interceptor =>
      (s.discovery.queryPlan murmur3X64128 iteration input interceptor).map Prod.fst) = made) :
    made.isSome = client.topology.isSome ∧ ∀ plan, made = some plan → RoutedRequest.PlanSound
      (((s.discovery.view client.affinityName).map NodeView.liveNodes).getD []) plan := by
  obtain ⟨direct, unrouted⟩ | ⟨present, routing⟩ := built.routing sends
  · rw [unrouted] at makes
    subst makes
    refine ⟨by rw [direct]; rfl, ?_⟩
    intro plan absent
    cases absent
  · obtain ⟨ordinary, known⟩ := Option.isSome_iff_exists.mp (sound.views present .ordinary)
    have known : s.discovery.view none = some ordinary := known
    obtain roundRobin | ⟨-, resolver, affinityType, affinity⟩ := routing
    · rw [roundRobin, Option.bind_some, ClientDiscovery.queryPlan, known] at makes
      subst makes
      refine ⟨present.symm, ?_⟩
      rintro _ ⟨⟩
      exact .newBasic
    · obtain ⟨affinityNodes, viewed⟩ :=
        Option.isSome_iff_exists.mp (sound.views present .affinity)
      have viewed : s.discovery.view client.affinityName = some affinityNodes := viewed
      obtain ⟨keys, kept⟩ := Option.isSome_iff_exists.mp (sound.keys.trans resolver)
      rw [affinity, Option.bind_some] at makes
      cases planned : s.discovery.queryPlan murmur3X64128 iteration input
          (.affinity affinityType client.affinityName) with
      | none => simp [ClientDiscovery.queryPlan, viewed, kept, known] at planned
      | some found =>
          rw [planned] at makes
          subst makes
          refine ⟨present.symm, ?_⟩
          rintro _ ⟨⟩
          obtain ⟨nodes, known, sound⟩ := planSound_of_queryPlan sound.discovery planned
          rw [known]
          exact sound

theorem Sound.newOperation {host : Host} {config : ClientConfig}
    (built : client.BuiltFrom urls host config)
    (sound : s.Sound urls acceptsUri flate2 library client Origin) {sender : Sender}
    (sends : (client.sdkClient sender).isSome = true) (iteration : VoteIteration Url)
    (input : Input) (overrides : List AlternatorOperationBuilder) (request : Request) :
    (s.newOperation murmur3X64128 flate2 client sender iteration input overrides request).Sound
      urls Origin client.topology.isSome := by
  obtain ⟨routed, plans⟩ := sound.routedPlan murmur3X64128 built sends iteration input rfl
  refine ⟨sound.captures, ?_, ?_, ?_, fun _ env absent => absurd absent List.not_mem_nil, ?_⟩
  · cases begins : s.newPlanning client sender iteration input with
    | some planning =>
        simpa [ClientAtWork.newOperation, begins] using (sound.newPlanning built sends begins).1.symm
    | none => simpa only [ClientAtWork.newOperation, begins] using routed
  · intro plan made
    cases begins : s.newPlanning client sender iteration input with
    | some planning =>
        simp only [ClientAtWork.newOperation, begins] at made
        cases made
        exact .newBasic
    | none =>
        simp only [ClientAtWork.newOperation, begins] at made
        exact plans plan made
  · intro env restarted absent
    cases absent
  · intro planning begins
    have begins : s.newPlanning client sender iteration input = some planning := begins
    obtain ⟨-, same, populated⟩ := sound.newPlanning built sends begins
    exact ⟨by simp [ClientAtWork.newOperation, begins], rfl, same, populated⟩

/-- A batch captures a permutation of the nodes that it has read, whatever its look-ups find. -/
theorem batchPlan_cases (interceptor : AffinityQueryPlanInterceptor Url)
    (iteration : VoteIteration Url) (lookups : List KeyLookup) :
    interceptor.batchPlan iteration lookups = none ∨
      ∃ nodes, nodes.Perm interceptor.affinityNodes.liveNodes ∧
        interceptor.batchPlan iteration lookups = some ⟨.affinity, .ordered nodes 0⟩ := by
  cases planned : interceptor.batchPlan iteration lookups with
  | none => exact .inl rfl
  | some plan =>
      simp only [AffinityQueryPlanInterceptor.batchPlan, Option.bind_eq_bind,
        Option.bind_eq_some_iff, Option.some.injEq] at planned
      obtain ⟨votes, -, order, -, rfl⟩ := planned
      exact .inr ⟨_, (QueryPlan.preferFirst_perm _ _).trans (List.perm_insertionSort _ _), rfl⟩

/-- Each look-up and the end of the making of a plan keep an operation sound. -/
theorem sound_goOnPlanning {op : ClientOperation Url} {planning : BatchPlanning Url}
    (kept : op.Sound urls Origin client.topology.isSome) (here : op.planning = some planning)
    (resolver : PartitionKeyResolver) :
    (goOnPlanning murmur3X64128 op planning resolver).Sound urls Origin client.topology.isSome := by
  obtain ⟨basic, idle, same, populated⟩ := kept.planning planning here
  unfold goOnPlanning
  split
  · refine ⟨kept.captured, kept.planned, kept.plan, kept.underway, kept.envs, ?_⟩
    rintro _ ⟨⟩
    exact ⟨basic, idle, same, populated⟩
  · refine ⟨kept.captured, ?_, ?_, kept.underway, kept.envs, nofun⟩
    · rw [← kept.planned, basic]
      rfl
    · rintro _ ⟨⟩
      obtain none | ⟨nodes, perm, made⟩ := batchPlan_cases planning.interceptor planning.iteration
        planning.lookups
      · rw [none, Option.getD_none]
        exact .newBasic
      · rw [made, Option.getD_some]
        exact .of_perm (same ▸ perm) populated

/-- A draw finds a node at the latest when its plan has been restarted. -/
theorem Sound.draw (sound : s.Sound urls acceptsUri flate2 library client Origin) {r : Nat}
    {op : ClientOperation Url} (here : s.operations r = some op) {env : AttemptEnvironment Url}
    {restarted : Bool} (underway : op.underway = some (env, restarted)) {plan : QueryPlan Url}
    (planned : op.plan = some plan) {view : NodeView Url}
    (viewed : s.drawView (client.viewName plan.liveNodes) = some view) :
    (s.drawFrom urls acceptsUri library client r op env restarted plan view).Sound urls acceptsUri
      flate2 library client Origin := by
  obtain ⟨kept, recorded⟩ := sound.operations r op here
  have routed : client.topology.isSome = true := by
    rw [← kept.planned, planned]
    rfl
  obtain ⟨known, found, rfl⟩ := Option.map_eq_some_iff.mp viewed
  obtain ⟨populated, fromView⟩ := sound.discovery.view found
  have planSound := kept.plan plan planned
  have isUri := kept.underway env restarted underway routed
  have made : op.planning = none := kept.planning_of_underway underway
  generalize chosen : (if restarted then plan.restart else plan) = from'
  have sameOrder : from'.order = plan.order := by
    rw [← chosen]
    split <;> simp
  have sameName : from'.liveNodes = plan.liveNodes := by
    rw [← chosen]
    split <;> simp
  have fromSound := planSound.congr sameOrder sameName
  generalize seen : ({ known with counter := s.counters (client.viewName plan.liveNodes) } :
    NodeView Url) = view
  have populated : view.liveNodes ≠ [] := by
    rw [← seen]
    exact populated
  have fromView : From Origin view.liveNodes := by
    rw [← seen]
    exact fromView
  obtain ⟨order, name, -, -⟩ := from'.nextNode_spec view
  simp only [drawFrom, chosen]
  split
  · refine sound.setOperation ⟨kept.captured, kept.planned, kept.plan, ?_, kept.envs, ?_⟩
      ⟨recorded.request, recorded.state, recorded.records⟩
    · rintro _ _ ⟨⟩
      exact fun _ => isUri
    · intro planning absent
      cases made.symm.trans absent
  · next ends =>
    have finds : (from'.nextNode view).1.isSome = true := by
      cases restarted with
      | false =>
          rw [Bool.not_false, Bool.and_true, Bool.not_eq_true, Option.isNone_eq_false_iff] at ends
          exact ends
      | true =>
          -- A plan that has been restarted finds a node.
          rw [if_pos rfl] at chosen
          rw [← chosen]
          exact QueryPlan.restart_nextNode_isSome (planSound.drawable populated)
    obtain ⟨node, drawn⟩ := Option.isSome_iff_exists.mp finds
    refine (sound.setCounter _ _).finish kept recorded (by rw [planned]; rfl) ?_ made ?_
    · rintro _ ⟨⟩
      exact fromSound.congr order name
    · intro _
      exact ⟨isUri, node, drawn, origin_of_nextNode fromSound kept.captured fromView drawn⟩

theorem Sound.next {host : Host} {config : ClientConfig}
    (built : client.BuiltFrom urls host config)
    (regime : client.topology.isSome = true →
      ((client.managerConfig urls).inputs.origins Origin).Sound (client.managerConfig urls).inputs)
    (sound : s.Sound urls acceptsUri flate2 library client Origin) (guard : s.enabled urls client e)
    (promised : ∀ topology d, s.discovery.topology = some topology →
      e = .discovery (.topology d) →
      topology.Promises ((client.managerConfig urls).inputs.origins Origin) d) :
    (s.next urls acceptsUri murmur3X64128 flate2 library client e).Sound urls acceptsUri flate2
      library client Origin := by
  cases e with
  | discovery e =>
      have guard : s.discovery.enabled e := guard
      have kept := @ClientDiscovery.isSome_run _ _ (client.managerConfig urls) s.discovery [e]
        ⟨guard, trivial⟩
      refine ⟨?_, kept.1.trans sound.topology, kept.2.trans sound.keys, ?_, sound.operations⟩
      · intro topology after
        have present : client.topology.isSome = true := by
          rw [← sound.topology, ← kept.1, Machine.exec_cons, Machine.exec_nil]
          exact Option.isSome_iff_exists.mpr ⟨topology, after⟩
        exact sound.discovery.next (regime present) guard (fun topology d here same =>
          promised topology d here (by rw [same])) topology after
      · intro present name
        exact ClientDiscovery.view_isSome_of_next guard (sound.views present name)
  | operation r sender iteration input overrides request =>
      refine sound.setOperation (sound.newOperation built guard.2 iteration input overrides request)
        ⟨rfl, rfl, rfl⟩
  | plan r =>
      obtain ⟨op, here, -⟩ := guard
      obtain ⟨kept, recorded⟩ := sound.operations r op here
      simp only [ClientAtWork.next, here]
      split
      · next planning resolver begun known =>
        exact sound.setOperation (sound_goOnPlanning kept begun resolver)
          (recorded_goOnPlanning recorded (kept.planning planning begun).1 resolver)
      · exact sound
  | attempt r env =>
      obtain ⟨op, here, made, idle, isUri⟩ := guard
      obtain ⟨kept, recorded⟩ := sound.operations r op here
      simp only [ClientAtWork.next, here]
      refine sound.setOperation ⟨kept.captured, kept.planned, kept.plan, ?_, kept.envs, ?_⟩
        ⟨recorded.request, recorded.state, recorded.records⟩
      · rintro _ _ ⟨⟩ routed
        exact isUri (kept.planned.trans routed)
      · intro planning absent
        cases made.symm.trans absent
  | draw r =>
      obtain ⟨op, here, -⟩ := guard
      obtain ⟨kept, recorded⟩ := sound.operations r op here
      simp only [ClientAtWork.next, here]
      split
      · exact sound
      · next env restarted underway direct =>
        refine sound.finish kept recorded (by rw [direct]) (fun _ absent => by cases absent)
          (kept.planning_of_underway underway) ?_
        intro routed
        rw [← kept.planned, direct] at routed
        cases routed
      · next env restarted plan underway planned =>
        split
        · next view viewed => exact sound.draw here underway planned viewed
        · exact sound

/-! ## Runs -/

theorem discovery_drawFrom (s : ClientAtWork Url) (r : Nat) (op : ClientOperation Url)
    (env : AttemptEnvironment Url) (restarted : Bool) (plan : QueryPlan Url)
    (view : NodeView Url) :
    (s.drawFrom urls acceptsUri library client r op env restarted plan view).discovery =
      s.discovery := by
  simp only [drawFrom]
  generalize (if restarted then plan.restart else plan).nextNode view = drawn
  split <;> rfl

theorem discovery_next (s : ClientAtWork Url) (e : Event Url) :
    (s.next urls acceptsUri murmur3X64128 flate2 library client e).discovery =
      ((ClientDiscovery.machine (client.managerConfig urls)).exec s.discovery
        e.ofDiscovery.toList) := by
  cases e with
  | discovery e => rfl
  | operation r sender iteration input overrides request => rfl
  | plan r =>
      simp only [ClientAtWork.next]
      split
      · split <;> rfl
      · rfl
  | attempt r env =>
      simp only [ClientAtWork.next]
      split <;> rfl
  | draw r =>
      simp only [ClientAtWork.next]
      split
      · split
        · rfl
        · rfl
        · split
          · exact discovery_drawFrom ..
          · rfl
      · rfl

/-- The discovery of a run is a run of discovery. -/
theorem discovery_exec (s : ClientAtWork Url) (events : List (Event Url)) :
    ((machine urls acceptsUri murmur3X64128 flate2 library client).exec s events).discovery =
      (ClientDiscovery.machine (client.managerConfig urls)).exec s.discovery
        (discoveryEvents events) := by
  induction events generalizing s with
  | nil => rfl
  | cons e events ih =>
      have first : discoveryEvents (e :: events) = e.ofDiscovery.toList ++ discoveryEvents events := by
        cases e <;> rfl
      rw [Machine.exec_cons, ih, first, Machine.exec_append]
      exact congrArg (fun c => (ClientDiscovery.machine (client.managerConfig urls)).exec c
        (discoveryEvents events)) (discovery_next s e)

/-- After a run from a client that was built, everything has an origin in the run. -/
theorem sound_of_run {host : Host} {config : ClientConfig} {now : Nat}
    {events : List (Event Url)} (built : client.BuiltFrom urls host config)
    (run : (machine urls acceptsUri murmur3X64128 flate2 library client).Admits
      (start client now) events)
    (shuffles : ∀ d ∈ discoveryEvents events, d.Shuffles) :
    ((machine urls acceptsUri murmur3X64128 flate2 library client).exec (start client now)
      events).Sound urls acceptsUri flate2 library client
        (ClientDiscovery.HasOrigin (client.managerConfig urls) (client.startDiscovery now)
          (discoveryEvents events)) := by
  let Known := ClientDiscovery.HasOrigin (client.managerConfig urls) (client.startDiscovery now)
    (discoveryEvents events)
  have seeds : From Known (client.managerConfig urls).inputs.seedUrls := fun node seed => .inl seed
  have live (present : client.topology.isSome = true) :
      ∃ live, client.topology = some live ∧ client.managerConfig urls = live.managerConfig ∧
        live.inputs.seedUrls ≠ [] ∧ ∃ scope, live.view = .new scope live.inputs.seedUrls := by
    obtain ⟨live, topology⟩ := Option.isSome_iff_exists.mp present
    have accepted := built.topology
    rw [topology] at accepted
    obtain ⟨inputs, -, view⟩ := LiveNodes.tryNew_accepts accepted
    exact ⟨live, topology, by rw [AlternatorClient.managerConfig, topology],
      inputs.seedUrls.1, _, view⟩
  have kept : ((machine urls acceptsUri murmur3X64128 flate2 library client).restrict fun s e =>
      ∀ d, e = .discovery (.topology d) → d.Shuffles ∧
        ∀ topology node, s.discovery.topology = some topology →
          topology.Reports (client.managerConfig urls).inputs d node → Known node).Admits
        (start client now) events := by
    refine run.restrict ?_
    rintro before _ after split d rfl
    have projected : discoveryEvents events =
        discoveryEvents before ++ .topology d :: discoveryEvents after := by
      rw [split, discoveryEvents, List.filterMap_append]
      rfl
    refine ⟨shuffles (.topology d) ?_ d rfl, fun topology node here reports => .inr ?_⟩
    · rw [projected]
      exact List.mem_append_right _ List.mem_cons_self
    · refine ⟨_, _, _, projected, topology, d, ?_, rfl, reports⟩
      rw [← here, discovery_exec]
      rfl
  refine kept.preserves (I := fun s => s.Sound urls acceptsUri flate2 library client Known) ?_ ?_
  · intro s e sound guard
    refine sound.next built ?_ guard.1 ?_
    · intro present
      obtain ⟨live, -, same, populated, -⟩ := live present
      refine DiscoveryInputs.sound_origins ?_ seeds
      rw [same]
      exact populated
    · intro topology d here same
      obtain ⟨shuffles, reports⟩ := guard.2 d same
      exact (sound.discovery topology here).promises shuffles fun node reported =>
        reports topology node here reported
  · refine ⟨?_, ?_, ?_, ?_, fun _ _ absent => by cases absent⟩
    · intro manager here
      have present : client.topology.isSome = true := by
        have some' : (start client now).discovery.topology.isSome = true :=
          Option.isSome_iff_exists.mpr ⟨manager, here⟩
        simpa [start, AlternatorClient.startDiscovery] using some'
      obtain ⟨live, topology, same, populated, scope, view⟩ := live present
      rw [same] at seeds ⊢
      exact AlternatorClient.obeys_startDiscovery now topology view populated seeds manager here
    · simp [start, AlternatorClient.startDiscovery]
    · simp [start, AlternatorClient.startDiscovery]
    · exact fun present name => AlternatorClient.view_startDiscovery now present name

variable {pathAndQuery : Url → Text} {host : Host} {config : ClientConfig} {now : Nat}
  {events : List (Event Url)}

end ClientAtWork

end AlternatorDriver
