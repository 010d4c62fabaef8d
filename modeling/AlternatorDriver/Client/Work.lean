import AlternatorDriver.Client.Construction
import AlternatorDriver.LiveNodes.Provenance
import AlternatorDriver.Shutdown

/-!
# A client at work

A client that was built is its discovery, with all that calls, tasks and shutdowns do to it, and the
operations of its two clients of the SDK. An operation is given a plan when it begins, and each
of its attempts draws from a view between the statements of discovery.

A batch reads the affinity nodes and then looks up its keys one after the other, so discovery may
learn a key between two of them. Every other plan is made by one step: it looks up at most one
key, and a key that is cached then still is when the view is read.

Discovery does not depend on operations, so its part of a run is a run of its own. The counters
of the views, which discovery never reads, are kept beside it.
-/

namespace AlternatorDriver

open Foundation Function

variable {Url : Type}

/-! ## The discovery of a client that was built -/

/-- The clients of the SDK that send operations. -/
inductive Sender where
  | client
  | resolver
  deriving DecidableEq

/-- The view that a routing interceptor makes its plans from. -/
def ClientInterceptor.planned (affinityName : Option Nat) :
    ClientInterceptor → Option ClientDiscovery.Interceptor
  | .alternator _ => none
  | .roundRobin => some .roundRobin
  | .affinity config => some (.affinity config.affinityType affinityName)

namespace AlternatorClient

variable (client : AlternatorClient Url)

/-- The affinity view is one of its own only if the ordinary view is restricted to a rack. -/
def affinityName : Option Nat :=
  if client.partitionKeys.isSome &&
      client.topology.any fun live => live.view.routingScope.hasRackRestriction
  then some 0
  else none

def viewName : ViewName → Option Nat
  | .ordinary => none
  | .affinity => client.affinityName

/-- Without discovery there is no manager, and nothing reads this. -/
def managerConfig (library : UrlLibrary Url) : ManagerConfig Url :=
  match client.topology with
  | some live => live.managerConfig
  | none => ⟨⟨library, [], [], none⟩, 0, 0⟩

def sdkClient : Sender → Option SdkClientConfig
  | .client => some client.dynamodbClient
  | .resolver => client.partitionKeys.map PartitionKeyDiscovery.client

/-- Each interceptor replaces the plan of those before it. -/
def routing (sender : Sender) : Option ClientDiscovery.Interceptor :=
  (client.sdkClient sender).bind fun sdk =>
    (sdk.interceptors.filterMap (ClientInterceptor.planned client.affinityName)).getLast?

variable [LinearOrder Url]

/-- The manager, with the affinity view if it has one. -/
def startManager (live : LiveNodes Url) (now : Nat) : DiscoveryManager Url :=
  match client.affinityName with
  | some v => (DiscoveryManager.new live.view now).next live.managerConfig (.affinityView v)
  | none => .new live.view now

/-- What a construction leaves to its first call of `ensure_discovery_started`. -/
def startDiscovery (now : Nat) : ClientDiscovery Url where
  topology := client.topology.map fun live => client.startManager live now
  partitionKeys := client.partitionKeys.map fun keys => .new keys.pkInfo now
  stops _ := .idle

end AlternatorClient

/-! ## Plans in the making -/

namespace AffinityQueryPlanInterceptor

variable [LinearOrder Url] (interceptor : AffinityQueryPlanInterceptor Url)

/-- The candidates of a batch to which affinity applies. -/
def batchCandidates (input : Input) : Option (List PartitionKeyCandidate) :=
  if interceptor.affinityType = .none then none
  else match DynamoOp.fromInput input with
    | none => none
    | some op =>
        if op.shouldApply interceptor.affinityType && op.isBatchWrite then
          some op.partitionKeyCandidates
        else none

/-- The plan of a batch whose candidates have come to these, if there is one. -/
def batchPlan (iteration : VoteIteration Url) (lookups : List KeyLookup) :
    Option (QueryPlan Url) :=
  let affinityNodes := sortedAffinityNodes interceptor.affinityNodes.liveNodes
  do
    let votes ← (KeyLookup.castVotes affinityNodes ∅ lookups).1
    let preferredNodes ← votePreferenceOrder (iteration.intoIter votes)
    some (.newWithPreferredNodes .affinity preferredNodes affinityNodes)

end AffinityQueryPlanInterceptor

/-- The plan of a batch in the making: the interceptor with the nodes that it has read, the
candidates whose keys have not been looked up yet, and what the others have come to. -/
structure BatchPlanning (Url : Type) where
  interceptor : AffinityQueryPlanInterceptor Url
  iteration : VoteIteration Url
  candidates : List PartitionKeyCandidate
  lookups : List KeyLookup

/-! ## Clients at work -/

/-- An operation with its call, its history, and the affinity membership that its plan was made
from. A batch has the plan that it falls back to until its own is made. The attempt under way knows
whether the plan has been restarted for it. -/
structure ClientOperation (Url : Type) where
  overrides : List AlternatorOperationBuilder
  original : Request
  captured : List Url
  plan : Option (QueryPlan Url)
  planning : Option (BatchPlanning Url)
  state : InterceptorState
  request : Request
  underway : Option (AttemptEnvironment Url × Bool)
  envs : List (AttemptEnvironment Url)
  records : List AttemptRecord

structure ClientAtWork (Url : Type) where
  discovery : ClientDiscovery Url
  counters : Option Nat → Nat
  operations : Nat → Option (ClientOperation Url)

namespace ClientAtWork

inductive Event (Url : Type) where
  | discovery (e : ClientDiscovery.Event Url)
  | operation (r : Nat) (sender : Sender) (iteration : VoteIteration Url) (input : Input)
      (overrides : List AlternatorOperationBuilder) (request : Request)
  /-- A batch looks up the key of its next candidate, or its plan is made. -/
  | plan (r : Nat)
  /-- The next attempt of an operation reaches `modify_before_signing`. -/
  | attempt (r : Nat) (env : AttemptEnvironment Url)
  /-- It calls `next_node`, a second time if the plan is exhausted, and goes on to its end. -/
  | draw (r : Nat)

def Event.ofDiscovery : Event Url → Option (ClientDiscovery.Event Url)
  | .discovery e => some e
  | _ => none

/-- The part of a run that is discovery. -/
def discoveryEvents (events : List (Event Url)) : List (ClientDiscovery.Event Url) :=
  events.filterMap Event.ofDiscovery

variable [LinearOrder Url]

section Step

variable (urls : UrlLibrary Url) (acceptsUri : Text → Bool) (murmur3X64128 : Murmur3)
  (flate2 : Flate2) (library : AsyncLibrary) (client : AlternatorClient Url)

def setOperation (s : ClientAtWork Url) (r : Nat) (operation : ClientOperation Url) :
    ClientAtWork Url :=
  { s with operations := update s.operations r (some operation) }

def setCounter (s : ClientAtWork Url) (name : Option Nat) (counter : Nat) : ClientAtWork Url :=
  { s with counters := update s.counters name counter }

/-- A view as a draw finds it. -/
def drawView (s : ClientAtWork Url) (name : Option Nat) : Option (NodeView Url) :=
  (s.discovery.view name).map fun view => { view with counter := s.counters name }

/-- The affinity interceptor, with the views and the resolver as it meets them. -/
def affinityInterceptor (s : ClientAtWork Url) :
    ClientDiscovery.Interceptor → Option (AffinityQueryPlanInterceptor Url)
  | .roundRobin => none
  | .affinity affinityType name => do
      let routingNodes ← s.discovery.view none
      let affinityNodes ← s.discovery.view name
      let resolver ← s.discovery.partitionKeys
      some ⟨affinityType, routingNodes, affinityNodes, resolver⟩

/-- The plan of a batch before its first key is looked up. -/
def newPlanning (s : ClientAtWork Url) (sender : Sender) (iteration : VoteIteration Url)
    (input : Input) : Option (BatchPlanning Url) := do
  let interceptor ← (client.routing sender).bind s.affinityInterceptor
  let candidates ← interceptor.batchCandidates input
  some ⟨interceptor, iteration, candidates, []⟩

def newOperation (s : ClientAtWork Url) (sender : Sender) (iteration : VoteIteration Url)
    (input : Input) (overrides : List AlternatorOperationBuilder) (request : Request) :
    ClientOperation Url :=
  let planning := s.newPlanning client sender iteration input
  let plan := match planning with
    | some _ => some (.newBasic .ordinary)
    | none => (client.routing sender).bind fun interceptor =>
        (s.discovery.queryPlan murmur3X64128 iteration input interceptor).map Prod.fst
  { overrides := overrides
    original := request
    captured := ((s.discovery.view client.affinityName).map NodeView.liveNodes).getD []
    plan := plan
    planning := planning
    state := storedBeforeSerialization plan.isSome overrides
    request := preparedRequest flate2 client.config.requestSettings plan.isSome overrides request
    underway := none
    envs := []
    records := [] }

/-- The next statement in the making of a plan, with the resolver as it is then. -/
def goOnPlanning (operation : ClientOperation Url) (planning : BatchPlanning Url)
    (resolver : PartitionKeyResolver) : ClientOperation Url :=
  match planning.candidates with
  | candidate :: rest =>
      let interceptor := { planning.interceptor with resolver := resolver }
      { operation with
        planning := some
          { planning with
            candidates := rest
            lookups := planning.lookups ++
              [interceptor.candidatePartitionKeyHash murmur3X64128 candidate] } }
  | [] =>
      { operation with
        plan := some
          ((planning.interceptor.batchPlan planning.iteration planning.lookups).getD
            (.newBasic .ordinary))
        planning := none }

/-- The attempt goes on with the node that was drawn, to its end. -/
def finish (s : ClientAtWork Url) (r : Nat) (operation : ClientOperation Url)
    (env : AttemptEnvironment Url) (nextNode : Option Url) (plan : Option (QueryPlan Url)) :
    ClientAtWork Url :=
  let env := { env with nextNode := nextNode }
  let attempted := client.config.requestSettings.interceptor.attempt urls acceptsUri library
    operation.state operation.request env
  s.setOperation r
    { operation with
      plan := plan
      state := attempted.2
      underway := none
      envs := operation.envs ++ [env]
      records := operation.records ++ [attempted.1] }

def drawFrom (s : ClientAtWork Url) (r : Nat) (operation : ClientOperation Url)
    (env : AttemptEnvironment Url) (restarted : Bool) (plan : QueryPlan Url)
    (view : NodeView Url) : ClientAtWork Url :=
  let drawn := (if restarted then plan.restart else plan).nextNode view
  if drawn.1.isNone && !restarted then
    s.setOperation r { operation with underway := some (env, true) }
  else
    (s.setCounter (client.viewName plan.liveNodes) drawn.2.2.counter).finish urls acceptsUri library
      client r operation env drawn.1 (some drawn.2.1)

def next (s : ClientAtWork Url) : Event Url → ClientAtWork Url
  | .discovery e => { s with discovery := s.discovery.next (client.managerConfig urls) e }
  | .operation r sender iteration input overrides request =>
      s.setOperation r
        (s.newOperation murmur3X64128 flate2 client sender iteration input overrides request)
  | .plan r =>
      match s.operations r with
      | some operation =>
          match operation.planning, s.discovery.partitionKeys with
          | some planning, some resolver =>
              s.setOperation r (goOnPlanning murmur3X64128 operation planning resolver)
          | _, _ => s
      | none => s
  | .attempt r env =>
      match s.operations r with
      | some operation => s.setOperation r { operation with underway := some (env, false) }
      | none => s
  | .draw r =>
      match s.operations r with
      | some operation =>
          match operation.underway, operation.plan with
          | none, _ => s
          | some (env, _), none => s.finish urls acceptsUri library client r operation env none none
          | some (env, restarted), some plan =>
              -- The interceptor that made the plan keeps its view alive.
              match s.drawView (client.viewName plan.liveNodes) with
              | some view =>
                  s.drawFrom urls acceptsUri library client r operation env restarted plan view
              | none => s
      | none => s

/-- The SDK resolves the endpoint of a client to the URL of a seed, so where there is a plan the
URI of an attempt is an HTTP URL. -/
def enabled (s : ClientAtWork Url) : Event Url → Prop
  | .discovery e => s.discovery.enabled e
  | .operation r sender _ _ _ _ => s.operations r = none ∧ (client.sdkClient sender).isSome = true
  | .plan r => ∃ operation, s.operations r = some operation ∧ operation.planning.isSome = true
  | .attempt r env => ∃ operation, s.operations r = some operation ∧ operation.planning = none ∧
      operation.underway = none ∧ (operation.plan.isSome = true → urls.isHttpUri env.uri = true)
  | .draw r => ∃ operation, s.operations r = some operation ∧ operation.underway.isSome = true

def start (now : Nat) : ClientAtWork Url where
  discovery := client.startDiscovery now
  counters _ := 0
  operations _ := none

/-- Every interleaving of operations with the discovery of a client that was just built. -/
def machine : Machine (ClientAtWork Url) (Event Url) where
  init s := ∃ now, s = start client now
  enabled s e := s.enabled urls client e
  next s e := s.next urls acceptsUri murmur3X64128 flate2 library client e

end Step

end ClientAtWork

end AlternatorDriver
