import AlternatorDriver.Foundation.Machine
import AlternatorDriver.LiveNodes.Membership
import AlternatorDriver.Routing.AffinityPlan
import AlternatorDriver.Routing.Rewrite

/-!
# The attempts of requests

A client at work: refreshes of its views, which may run at the same time and may be
aborted anywhere, and requests, whose attempts draw from the views between the steps of
the refreshes. Every attempt is pointed at a node, because no view is ever empty.
-/

namespace AlternatorDriver

open Foundation Function

variable {Url : Type} [LinearOrder Url]

/-- How a request gets its plan: from the round-robin interceptor, or from the affinity
interceptor with its configuration, its keys and an iteration order of its votes. -/
inductive PlanSource (Url : Type) where
  | roundRobin
  | affinity (affinityType : KeyRouteAffinityType) (resolver : PartitionKeyResolver)
      (iteration : VoteIteration Url) (input : Input)

structure RefreshTask (Url : Type) where
  view : ViewName
  program : Refresh Url (DiscoveryOutcomes Url)

/-- An attempt that has been through `modify_before_signing`: the URI that the SDK
resolved, the ordinary membership at the draw, and the new URI or the error. -/
structure Attempt (Url : Type) where
  uri : Text
  liveNodes : List Url
  result : Except RoutingError Text

/-- A request, with the affinity membership at the time its plan was made. The attempt
under way has its URI, and knows whether the plan has been restarted for it. -/
structure RoutedRequest (Url : Type) where
  plan : QueryPlan Url
  captured : List Url
  underway : Option (Text × Bool)
  attempts : List (Attempt Url)

/-- The membership that an attempt's node has to come from. -/
def RoutedRequest.candidates (request : RoutedRequest Url) (attempt : Attempt Url) : List Url :=
  request.plan.order.elim attempt.liveNodes fun _ => request.captured

/-- The views of a client with its refreshes and its requests. Without an affinity view
of its own, a client uses the ordinary one. -/
structure RoutedClient (Url : Type) where
  ordinary : NodeView Url
  affinity : Option (NodeView Url)
  refreshes : Nat → Option (RefreshTask Url)
  requests : Nat → Option (RoutedRequest Url)

namespace RoutedClient

inductive Event (Url : Type) where
  | ordinaryRefresh (task : Nat)
  /-- The affinity refresh that follows an ordinary refresh which has ended. -/
  | affinityRefresh (task ordinary : Nat)
  /-- A refresh performs its next action. -/
  | refresh (task : Nat) (oracle : Oracle Url)
  | abort (task : Nat)
  | request (r : Nat) (source : PlanSource Url)
  /-- The next attempt of a request reaches `modify_before_signing`. -/
  | sign (r : Nat) (uri : Text)
  /-- It calls `next_node`, a second time if the plan is exhausted. -/
  | draw (r : Nat)

section Step

variable (inputs : DiscoveryInputs Url) (acceptsUri : Text → Bool) (murmur3X64128 : Murmur3)

def view (s : RoutedClient Url) : ViewName → NodeView Url
  | .ordinary => s.ordinary
  | .affinity => s.affinity.getD s.ordinary

def setView (s : RoutedClient Url) (name : ViewName) (view : NodeView Url) : RoutedClient Url :=
  match name, s.affinity with
  | .affinity, some _ => { s with affinity := some view }
  | _, _ => { s with ordinary := view }

def setRefresh (s : RoutedClient Url) (task : Nat) (refresh : Option (RefreshTask Url)) :
    RoutedClient Url :=
  { s with refreshes := update s.refreshes task refresh }

def setRequest (s : RoutedClient Url) (r : Nat) (request : RoutedRequest Url) :
    RoutedClient Url :=
  { s with requests := update s.requests r (some request) }

/-- The plan that an interceptor makes from the views as they are. -/
def newPlan (s : RoutedClient Url) : PlanSource Url → QueryPlan Url
  | .roundRobin => .newBasic .ordinary
  | .affinity affinityType resolver iteration input =>
      AffinityQueryPlanInterceptor.getQueryPlan murmur3X64128 iteration
        ⟨affinityType, s.ordinary, s.view .affinity, resolver⟩ input

/-- The outcomes of an ordinary refresh that has ended. -/
def ordinaryOutcomes (s : RoutedClient Url) (task : Nat) : Option (DiscoveryOutcomes Url) :=
  match s.refreshes task with
  | some ⟨.ordinary, .done outcomes⟩ => some outcomes
  | _ => none

/-- The attempt under way ends with this draw. -/
def finish (s : RoutedClient Url) (r : Nat) (request : RoutedRequest Url) (uri : Text)
    (draw : Option Url × QueryPlan Url × NodeView Url) : RoutedClient Url :=
  (s.setView request.plan.liveNodes draw.2.2).setRequest r
    { request with
      plan := draw.2.1
      underway := none
      attempts := request.attempts ++
        [⟨uri, s.ordinary.liveNodes, inputs.library.modifyBeforeSigning acceptsUri draw.1 uri⟩] }

def next (s : RoutedClient Url) : Event Url → RoutedClient Url
  | .ordinaryRefresh task =>
      s.setRefresh task (some ⟨.ordinary,
        NodeView.updateLiveNodesFrom inputs s.ordinary.routingScope (fun _ => none) [] false⟩)
  | .affinityRefresh task ordinary =>
      match s.ordinaryOutcomes ordinary with
      | some outcomes =>
          s.setRefresh task (some ⟨.affinity,
            NodeView.updateLiveNodesFrom inputs (s.view .affinity).routingScope outcomes
              s.ordinary.liveNodes true⟩)
      | none => s
  | .refresh task oracle =>
      match s.refreshes task with
      | some ⟨name, .act action rest⟩ =>
          let reply := (s.view name).respond oracle action
          (s.setView name reply.2).setRefresh task (some ⟨name, rest reply.1⟩)
      | _ => s
  | .abort task => s.setRefresh task none
  | .request r source =>
      s.setRequest r ⟨s.newPlan murmur3X64128 source, (s.view .affinity).liveNodes, none, []⟩
  | .sign r uri =>
      match s.requests r with
      | some request => s.setRequest r { request with underway := some (uri, false) }
      | none => s
  | .draw r =>
      match s.requests r with
      | some request =>
          match request.underway with
          | some (uri, false) =>
              match request.plan.nextNode (s.view request.plan.liveNodes) with
              | (some node, drawn) => s.finish inputs acceptsUri r request uri (some node, drawn)
              | (none, _) => s.setRequest r { request with underway := some (uri, true) }
          | some (uri, true) =>
              s.finish inputs acceptsUri r request uri
                (request.plan.restart.nextNode (s.view request.plan.liveNodes))
          | none => s
      | none => s

/-- The SDK resolves the endpoint of a client to the URL of a seed, so the URI of an
attempt is an HTTP URL. -/
def enabled (s : RoutedClient Url) : Event Url → Prop
  | .ordinaryRefresh task => (s.refreshes task).isNone
  | .affinityRefresh task ordinary =>
      (s.refreshes task).isNone ∧ s.affinity.isSome ∧ (s.ordinaryOutcomes ordinary).isSome
  | .refresh task _ => (s.refreshes task).isSome
  | .abort task => (s.refreshes task).isSome
  | .request r _ => (s.requests r).isNone
  | .sign r uri =>
      (s.requests r).any (fun request => request.underway.isNone) = true ∧
        inputs.library.isHttpUri uri = true
  | .draw r => (s.requests r).any (fun request => request.underway.isSome) = true

instance decidableEnabled (s : RoutedClient Url) : ∀ e, Decidable (s.enabled inputs e)
  | .ordinaryRefresh _ => inferInstanceAs (Decidable (_ = true))
  | .affinityRefresh _ _ => inferInstanceAs (Decidable (_ = true ∧ _ = true ∧ _ = true))
  | .refresh _ _ => inferInstanceAs (Decidable (_ = true))
  | .abort _ => inferInstanceAs (Decidable (_ = true))
  | .request _ _ => inferInstanceAs (Decidable (_ = true))
  | .sign _ _ => inferInstanceAs (Decidable (_ = true ∧ _ = true))
  | .draw _ => inferInstanceAs (Decidable (_ = true))

/-- The client that `try_new` has built the live nodes of. -/
def start (live : LiveNodes Url) : RoutedClient Url where
  ordinary := live.view
  affinity := live.affinityView
  refreshes _ := none
  requests _ := none

/-- Every interleaving of refreshes, aborts and requests of a client. -/
def machine (live : LiveNodes Url) : Machine (RoutedClient Url) (Event Url) where
  init s := s = start live
  enabled s e := s.enabled live.inputs e
  next s e := s.next live.inputs acceptsUri murmur3X64128 e

instance (live : LiveNodes Url) (s : RoutedClient Url) (e : Event Url) :
    Decidable ((machine acceptsUri murmur3X64128 live).enabled s e) :=
  inferInstanceAs (Decidable (s.enabled live.inputs e))

end Step

end RoutedClient

end AlternatorDriver
