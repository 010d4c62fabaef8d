import AlternatorDriver.Routing.Agreement
import AlternatorDriver.Routing.Attempts

/-!
# Every attempt goes to a node

The invariant of a client at work: both views are populated, every refresh can only
publish populated lists, and every request holds a plan that cannot run dry. It follows
that no attempt finds itself without a node.
-/

namespace AlternatorDriver

open Foundation Function

variable {Url : Type}

namespace RoutedRequest

variable (library : UrlLibrary Url) (pathAndQuery : Url → Text)

/-- The attempt was pointed at one of its candidates. -/
def Routed (request : RoutedRequest Url) (attempt : Attempt Url) : Prop :=
  ∃ node ∈ request.candidates attempt, ∃ original routed,
    library.parse attempt.uri = .ok original ∧
      attempt.result = .ok (library.asStr routed) ∧
      library.PointsAt pathAndQuery node original routed

/-- A plan without an order draws from the ordinary view; an order is not empty and was
made from the captured membership. -/
structure PlanSound (captured : List Url) (plan : QueryPlan Url) : Prop where
  roundRobin : plan.order = none → plan.liveNodes = .ordinary
  ordered : ∀ nodes, plan.order = some nodes → nodes ≠ [] ∧ ∀ node ∈ nodes, node ∈ captured

/-- What is true of every request of a run. -/
structure Sound (inputs : DiscoveryInputs Url) (request : RoutedRequest Url) : Prop where
  plan : PlanSound request.captured request.plan
  captured : inputs.Populated request.captured
  underway : ∀ uri restarted, request.underway = some (uri, restarted) →
    inputs.library.isHttpUri uri = true
  attempts : ∀ attempt ∈ request.attempts, request.Routed inputs.library pathAndQuery attempt

theorem PlanSound.congr {captured : List Url} {plan plan' : QueryPlan Url}
    (sound : PlanSound captured plan) (order : plan'.order = plan.order)
    (name : plan'.liveNodes = plan.liveNodes) : PlanSound captured plan' := by
  constructor
  · rw [order, name]
    exact sound.roundRobin
  · rw [order]
    exact sound.ordered

theorem PlanSound.newBasic {captured : List Url} : PlanSound captured (.newBasic .ordinary) :=
  ⟨fun _ => rfl, fun _ absent => nomatch absent⟩

theorem PlanSound.of_perm {captured nodes : List Url} (perm : nodes.Perm captured)
    (populated : captured ≠ []) : PlanSound captured ⟨.affinity, .ordered nodes 0⟩ := by
  refine ⟨(fun absent => nomatch absent), ?_⟩
  rintro _ ⟨⟩
  refine ⟨?_, fun node member => perm.mem_iff.mp member⟩
  rintro rfl
  exact populated perm.nil_eq.symm

/-- A plan has nodes to draw from as long as its view has. -/
theorem PlanSound.drawable {captured : List Url} {plan : QueryPlan Url}
    (sound : PlanSound captured plan) {live : List Url} (populated : live ≠ []) :
    plan.order.getD live ≠ [] := by
  cases order : plan.order with
  | none => exact populated
  | some nodes => exact (sound.ordered nodes order).1

end RoutedRequest

namespace RoutedClient

open RoutedRequest

section Plans

variable [LinearOrder Url] {murmur3X64128 : Murmur3}

/-- The affinity interceptor gives a round-robin plan, or captures a permutation of a
membership that has nodes. -/
theorem getQueryPlan_cases (client : AffinityQueryPlanInterceptor Url)
    (iteration : VoteIteration Url) (input : Input)
    (populated : client.affinityNodes.liveNodes ≠ []) :
    client.getQueryPlan murmur3X64128 iteration input = .newBasic .ordinary ∨
      ∃ nodes, nodes.Perm client.affinityNodes.liveNodes ∧
        client.getQueryPlan murmur3X64128 iteration input = ⟨.affinity, .ordered nodes 0⟩ := by
  have sorted := List.perm_insertionSort (· ≤ ·) client.affinityNodes.liveNodes
  by_cases routable : client.Routable murmur3X64128 input
  · obtain ⟨op, found, applies, usable⟩ := routable
    right
    cases batch : op.isBatchWrite with
    | false =>
        obtain ⟨hash, rest, hashes⟩ := List.exists_cons_of_ne_nil usable
        exact ⟨_, (drawOrder_perm _ _).trans sorted,
          AffinityQueryPlanInterceptor.getQueryPlan_singleItem found applies batch (by rw [hashes]; rfl)⟩
    | true =>
        obtain ⟨prefer, preferred⟩ := exists_prefer (sortedAffinityNodes_ne_nil populated)
        have voted : (client.usableHashes murmur3X64128 op).map prefer ≠ [] := by
          simpa using usable
        obtain ⟨order, ranked, -⟩ := exists_votePreferenceOrder iteration voted
        exact ⟨_, (QueryPlan.preferFirst_perm _ _).trans sorted,
          AffinityQueryPlanInterceptor.getQueryPlan_batchWrite found applies batch preferred ranked⟩
  · exact .inl (AffinityQueryPlanInterceptor.getQueryPlan_of_not_routable routable)

/-- The affinity interceptor makes sound plans of a membership that has nodes. -/
theorem planSound_getQueryPlan (client : AffinityQueryPlanInterceptor Url)
    (iteration : VoteIteration Url) (input : Input)
    (populated : client.affinityNodes.liveNodes ≠ []) :
    PlanSound client.affinityNodes.liveNodes
      (client.getQueryPlan murmur3X64128 iteration input) := by
  obtain plan | ⟨nodes, perm, plan⟩ :=
    @getQueryPlan_cases Url _ murmur3X64128 client iteration input populated
  · rw [plan]
    exact .newBasic
  · rw [plan]
    exact .of_perm perm populated

end Plans

section Fields

variable (s : RoutedClient Url) (task r : Nat) (refresh : Option (RefreshTask Url))
variable (request : RoutedRequest Url) (name : ViewName) (view : NodeView Url)

@[simp] theorem view_setRefresh (name' : ViewName) :
    (s.setRefresh task refresh).view name' = s.view name' := by cases name' <;> rfl

@[simp] theorem view_setRequest (name' : ViewName) :
    (s.setRequest r request).view name' = s.view name' := by cases name' <;> rfl

theorem refreshes_setRefresh :
    (s.setRefresh task refresh).refreshes = update s.refreshes task refresh := rfl

theorem requests_setRequest :
    (s.setRequest r request).requests = update s.requests r (some request) := rfl

@[simp] theorem requests_setRefresh : (s.setRefresh task refresh).requests = s.requests := rfl

@[simp] theorem refreshes_setRequest : (s.setRequest r request).refreshes = s.refreshes := rfl

@[simp] theorem refreshes_setView : (s.setView name view).refreshes = s.refreshes := by
  unfold setView
  split <;> rfl

@[simp] theorem requests_setView : (s.setView name view).requests = s.requests := by
  unfold setView
  split <;> rfl

/-- Writing one view writes one of the two memberships. -/
theorem view_setView {P : List Url → Prop} (all : ∀ name', P (s.view name').liveNodes)
    (written : P view.liveNodes) (name' : ViewName) :
    P ((s.setView name view).view name').liveNodes := by
  have ordinary := all .ordinary
  have affinity := all .affinity
  simp only [RoutedClient.view] at ordinary affinity
  cases name <;> cases name' <;> cases own : s.affinity <;>
    simp_all [setView, RoutedClient.view]

end Fields

/-- What is true in every state of a run. -/
structure Sound (inputs : DiscoveryInputs Url) (pathAndQuery : Url → Text)
    (s : RoutedClient Url) : Prop where
  views : ∀ name, inputs.Populated (s.view name).liveNodes
  refreshes : ∀ i task, s.refreshes i = some task →
    task.program.Ensures (RefreshAction.Sound inputs) (DiscoveryOutcomes.Known inputs)
  requests : ∀ r request, s.requests r = some request → request.Sound pathAndQuery inputs

section Steps

variable {inputs : DiscoveryInputs Url} {acceptsUri : Text → Bool} {pathAndQuery : Url → Text}
variable {s : RoutedClient Url}

theorem Sound.setRefresh (sound : s.Sound inputs pathAndQuery) (i : Nat)
    {refresh : Option (RefreshTask Url)}
    (ensures : ∀ task, refresh = some task →
      task.program.Ensures (RefreshAction.Sound inputs) (DiscoveryOutcomes.Known inputs)) :
    (s.setRefresh i refresh).Sound inputs pathAndQuery := by
  refine ⟨?_, ?_, sound.requests⟩
  · intro name
    rw [view_setRefresh]
    exact sound.views name
  · intro j task found
    by_cases same : j = i
    · subst same
      rw [refreshes_setRefresh, update_self] at found
      exact ensures task found
    · rw [refreshes_setRefresh, update_of_ne same] at found
      exact sound.refreshes j task found

theorem Sound.setRequest (sound : s.Sound inputs pathAndQuery) (r : Nat)
    {request : RoutedRequest Url} (ok : request.Sound pathAndQuery inputs) :
    (s.setRequest r request).Sound inputs pathAndQuery := by
  refine ⟨?_, sound.refreshes, ?_⟩
  · intro name
    rw [view_setRequest]
    exact sound.views name
  · intro r' request' found
    by_cases same : r' = r
    · subst same
      rw [requests_setRequest, update_self] at found
      cases found
      exact ok
    · rw [requests_setRequest, update_of_ne same] at found
      exact sound.requests r' request' found

theorem Sound.setView (sound : s.Sound inputs pathAndQuery) (name : ViewName)
    {view : NodeView Url} (populated : inputs.Populated view.liveNodes) :
    (s.setView name view).Sound inputs pathAndQuery := by
  refine ⟨s.view_setView name view sound.views populated, ?_, ?_⟩
  · rw [refreshes_setView]
    exact sound.refreshes
  · rw [requests_setView]
    exact sound.requests

/-- A draw that finds a node ends its attempt at that node. -/
theorem Sound.finish [LinearOrder Url] (laws : inputs.library.HttpLaws acceptsUri pathAndQuery)
    (scheme : isHttpScheme inputs.alternatorScheme = true) (sound : s.Sound inputs pathAndQuery)
    {r : Nat} {request : RoutedRequest Url} (found : s.requests r = some request) {uri : Text}
    {restarted : Bool} (underway : request.underway = some (uri, restarted))
    {plan : QueryPlan Url} (order : plan.order = request.plan.order)
    (name : plan.liveNodes = request.plan.liveNodes) {node : Url}
    (drawn : (plan.nextNode (s.view request.plan.liveNodes)).1 = some node) :
    (s.finish inputs acceptsUri r request uri
      (plan.nextNode (s.view request.plan.liveNodes))).Sound inputs pathAndQuery := by
  obtain ⟨planSound, captured, isUri, routed⟩ := sound.requests r request found
  obtain ⟨sameOrder, sameName, sameLive, member⟩ :=
    plan.nextNode_spec (s.view request.plan.liveNodes)
  have populated : inputs.Populated
      (plan.nextNode (s.view request.plan.liveNodes)).2.2.liveNodes := by
    rw [sameLive]
    exact sound.views _
  refine (sound.setView _ populated).setRequest r ⟨?_, captured, ?_, ?_⟩
  · exact planSound.congr (sameOrder.trans order) (sameName.trans name)
  · exact fun uri restarted absent => nomatch absent
  · intro attempt recorded
    obtain earlier | latest := List.mem_append.mp recorded
    · obtain ⟨node, candidate, rest⟩ := routed attempt earlier
      refine ⟨node, ?_, rest⟩
      rw [candidates] at candidate ⊢
      rwa [sameOrder, order]
    · rw [List.mem_singleton] at latest
      subst latest
      have drawnFrom := member node drawn
      rw [order] at drawnFrom
      -- A round-robin plan draws from the ordinary view as it is now.
      have candidate : node ∈ request.plan.order.elim s.ordinary.liveNodes
          fun _ => request.captured := by
        cases kind : request.plan.order with
        | none =>
            rw [kind, Option.getD_none, planSound.roundRobin kind] at drawnFrom
            exact drawnFrom
        | some nodes =>
            rw [kind, Option.getD_some] at drawnFrom
            exact (planSound.ordered nodes kind).2 node drawnFrom
      have known : ∃ addr, inputs.hostToUri addr = .ok node := by
        cases kind : request.plan.order with
        | none =>
            rw [kind] at candidate
            exact (sound.views .ordinary).2 node candidate
        | some nodes =>
            rw [kind] at candidate
            exact captured.2 node candidate
      obtain ⟨addr, built⟩ := known
      obtain ⟨original, parsed, http⟩ := UrlLibrary.exists_of_isHttpUri (isUri uri restarted underway)
      obtain ⟨target, rewritten, pointsAt⟩ := UrlLibrary.modifyBeforeSigning_ok laws
        (UrlLibrary.isHttp_of_hostToUri laws scheme built) parsed http
      refine ⟨node, ?_, original, target, parsed, ?_, pointsAt⟩
      · rw [candidates, sameOrder, order]
        exact candidate
      · rw [drawn]
        exact rewritten

theorem known_ordinaryOutcomes (sound : s.Sound inputs pathAndQuery) {task : Nat}
    {outcomes : DiscoveryOutcomes Url} (ended : s.ordinaryOutcomes task = some outcomes) :
    outcomes.Known inputs := by
  rw [ordinaryOutcomes] at ended
  split at ended
  · next result found =>
    cases ended
    exact sound.refreshes task _ found
  · cases ended

variable [LinearOrder Url] {murmur3X64128 : Murmur3}

theorem Sound.next (laws : inputs.library.HttpLaws acceptsUri pathAndQuery)
    (scheme : isHttpScheme inputs.alternatorScheme = true) (sound : s.Sound inputs pathAndQuery)
    {e : Event Url} (guard : s.enabled inputs e) :
    (s.next inputs acceptsUri murmur3X64128 e).Sound inputs pathAndQuery := by
  cases e with
  | ordinaryRefresh task =>
      refine sound.setRefresh task ?_
      rintro _ ⟨⟩
      exact NodeView.updateLiveNodesFrom_ensures _ (DiscoveryOutcomes.all_none inputs.Known) _ _
  | affinityRefresh task ordinary =>
      simp only [RoutedClient.next]
      split
      · next outcomes ended =>
        refine sound.setRefresh task ?_
        rintro _ ⟨⟩
        exact NodeView.updateLiveNodesFrom_ensures _ (known_ordinaryOutcomes sound ended) _ _
      · exact sound
  | refresh task oracle =>
      simp only [RoutedClient.next]
      split
      · next name action rest found =>
        have ensures := sound.refreshes task _ found
        have populated := NodeView.respond_populated (sound.views name) oracle ensures.1
        refine (sound.setView name populated).setRefresh task ?_
        rintro _ ⟨⟩
        exact ensures.2 _
      · exact sound
  | abort task => exact sound.setRefresh task fun _ absent => nomatch absent
  | request r source =>
      refine sound.setRequest r ⟨?_, sound.views .affinity, (fun _ _ absent => nomatch absent),
        (fun _ absent => nomatch absent)⟩
      cases source with
      | roundRobin => exact ⟨fun _ => rfl, fun _ absent => nomatch absent⟩
      | affinity affinityType resolver iteration input =>
          exact planSound_getQueryPlan
            ⟨affinityType, s.ordinary, s.view .affinity, resolver⟩ iteration input
            (sound.views .affinity).1
  | sign r uri =>
      simp only [RoutedClient.next]
      split
      · next request found =>
        obtain ⟨plan, captured, -, attempts⟩ := sound.requests r request found
        refine sound.setRequest r ⟨plan, captured, ?_, attempts⟩
        rintro _ _ ⟨⟩
        exact guard.2
      · exact sound
  | draw r =>
      simp only [RoutedClient.next]
      split
      · next request found =>
        obtain ⟨plan, captured, isUri, attempts⟩ := sound.requests r request found
        split
        · next uri underway =>
          split
          · next node drawn eq =>
            rw [← eq]
            exact sound.finish laws scheme found underway rfl rfl (congrArg Prod.fst eq)
          · refine sound.setRequest r ⟨plan, captured, ?_, attempts⟩
            rintro _ _ ⟨⟩
            exact isUri _ _ underway
        · next uri underway =>
          have drawable := plan.drawable (sound.views request.plan.liveNodes).1
          obtain ⟨node, drawn⟩ := Option.isSome_iff_exists.mp
            (QueryPlan.restart_nextNode_isSome drawable)
          exact sound.finish laws scheme found underway (QueryPlan.restart_order _)
            (QueryPlan.restart_liveNodes _) drawn
        · exact sound
      · exact sound

end Steps

section Runs

variable [LinearOrder Url] {library : UrlLibrary Url} {acceptsUri : Text → Bool}
variable {pathAndQuery : Url → Text} {murmur3X64128 : Murmur3}
variable {buildDiscoveryHttpClient : Text → Except LiveNodesBuildError Bool}
variable {config : AlternatorConfig} {live : LiveNodes Url} {s : RoutedClient Url}

theorem Reachable.sound (laws : live.inputs.library.HttpLaws acceptsUri pathAndQuery)
    (accepted : live.inputs.Accepted)
    (view : live.view.liveNodes = live.inputs.seedUrls)
    (reach : (machine acceptsUri murmur3X64128 live).Reachable s) :
    s.Sound live.inputs pathAndQuery := by
  refine Machine.Reachable.invariant ?_
    (fun _ _ sound guard => sound.next laws accepted.scheme guard)
    reach
  rintro _ rfl
  refine ⟨?_, (fun _ _ absent => nomatch absent), (fun _ _ absent => nomatch absent)⟩
  have ordinary : live.inputs.Populated live.view.liveNodes := by
    rw [view]
    exact accepted.seedUrls
  intro name
  cases name with
  | ordinary => exact ordinary
  | affinity =>
      simp only [start, RoutedClient.view, LiveNodes.affinityView]
      split
      · exact accepted.seedUrls
      · exact ordinary

end Runs

namespace RefreshedClient

/-- A client of the rack `r` with the seeds `a` and `b`. -/
def config : AlternatorConfig where
  activeInterval := none
  idleInterval := none
  routingScope := some (.fromRack "d" "r")
  scheme := some "HTTP".toList
  port := none
  seedHosts := some [['b'], ['a']]
  withoutDiscovery := false
  hasHttpClient := false

def live : LiveNodes PlainUrl where
  view := .new (.fromRack "d" "r") [PlainUrl.node ['a'], PlainUrl.node ['b']]
  inputs := ⟨PlainUrl.library, [PlainUrl.node ['a'], PlainUrl.node ['b']], "HTTP".toList, none⟩
  activeInterval := defaultActiveRefreshInterval
  idleInterval := defaultIdleRefreshInterval
  nativeRootsUsable := true

def oracle : Oracle PlainUrl := ⟨id, fun _ _ => none⟩

def placeholder : Text := "https://dynamodb/table?page".toList

/-- A request makes three attempts while a refresh begins and is aborted. For the third
one its plan starts over. -/
def events : List (Event PlainUrl) :=
  [.request 0 .roundRobin, .ordinaryRefresh 0, .refresh 0 oracle, .sign 0 placeholder, .draw 0,
    .refresh 0 oracle, .sign 0 placeholder, .draw 0, .abort 0, .sign 0 placeholder, .draw 0,
    .draw 0]

def machine : Machine (RoutedClient PlainUrl) (Event PlainUrl) :=
  RoutedClient.machine (fun _ => true) (fun _ => 0) live

end RefreshedClient

end RoutedClient

end AlternatorDriver
