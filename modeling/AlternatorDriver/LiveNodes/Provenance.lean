import AlternatorDriver.LiveNodes.Writers

/-!
# Where nodes come from

Every node of a view is a seed, or some reply has listed it, and discovery sends its requests
to such nodes only. This holds of all views of a manager, however its calls, loops and
affinity refreshes interleave.

A refresh obeys a regime when, as long as its replies are as promised, it performs only what
the regime allows. The rule for whole runs of a manager is proved for any regime.
-/

namespace AlternatorDriver

open Foundation Function

variable {Url : Type}

/-- What is promised of replies, what refreshes then perform and end with, and what all
memberships are. -/
structure Regime (Url : Type) where
  Promised : (action : RefreshAction Url) → action.Reply → Prop
  Performs : RefreshAction Url → Prop
  Ends : DiscoveryOutcomes Url → Prop
  Lists : List Url → Prop

def Regime.Obeys (regime : Regime Url) (refresh : Refresh Url (DiscoveryOutcomes Url)) : Prop :=
  refresh.EnsuresIf regime.Promised regime.Performs regime.Ends

variable [LinearOrder Url]

/-- The refreshes of the source obey the regime, and what they perform keeps the memberships
as they should be. -/
structure Regime.Sound (regime : Regime Url) (inputs : DiscoveryInputs Url) : Prop where
  seeds : regime.Lists inputs.seedUrls
  ends : regime.Ends fun _ => none
  refresh : ∀ scope outcomes candidates reuse, regime.Ends outcomes →
    (∀ candidate ∈ candidates, ∃ nodes, regime.Lists nodes ∧ candidate ∈ nodes) →
    regime.Obeys
      (NodeView.updateLiveNodesFrom inputs scope outcomes candidates reuse)
  respond : ∀ (view : NodeView Url) oracle action, regime.Lists view.liveNodes →
    regime.Performs action → regime.Lists (view.respond oracle action).2.liveNodes

namespace DiscoveryManager

/-- The reply that a statement gives to a refresh, if it gives one, is as promised. -/
def Promises (regime : Regime Url) (s : DiscoveryManager Url) : Event Url → Prop
  | .refresh l oracle => ∀ action next, (s.loops l).refresh = .act action next →
      regime.Promised action (s.ordinary.respond oracle action).1
  | .refreshAffinity a oracle => ∀ view action next, s.views (s.affinities a).view = some view →
      (s.affinities a).refresh = .act action next →
      regime.Promised action (view.respond oracle action).1
  | _ => True

/-- What holds in every state under a regime. -/
structure Obeys (regime : Regime Url) (s : DiscoveryManager Url) : Prop where
  ordinary : regime.Lists s.ordinary.liveNodes
  views : ∀ v view, s.views v = some view → regime.Lists view.liveNodes
  loops : ∀ l, regime.Obeys (s.loops l).refresh
  tasks : ∀ a, regime.Obeys (s.affinities a).refresh
  candidates : ∀ l v candidates, s.critical = some (.affinity l v (.spawn candidates)) →
    regime.Lists candidates

variable {regime : Regime Url} {config : ManagerConfig Url} {s : DiscoveryManager Url}
  {e : Event Url}

/-- Candidates are the ordinary membership of the moment they are loaded in. -/
theorem candidates_of_next {l v : Nat} {candidates : List Url} (guard : s.enabled e)
    (holds : (s.next config e).critical = some (.affinity l v (.spawn candidates))) :
    s.critical = some (.affinity l v (.spawn candidates)) ∨ candidates = s.ordinary.liveNodes := by
  cases @next_lockChange _ s e _ config guard with
  | same _ same => exact .inl (same.symm.trans holds)
  | start _ _ _ set | left _ _ _ _ _ _ set | installed _ _ _ _ set => cases set.symm.trans holds
  | install l' v' at_ goes set =>
      cases set.symm.trans holds
      cases goes with
      | loaded => exact .inr rfl

/-- A refresh that obeys a regime performs what it allows, and goes on obeying it. -/
theorem advance_obeys {inputs : DiscoveryInputs Url} (sound : regime.Sound inputs)
    {view : NodeView Url} {refresh : Refresh Url (DiscoveryOutcomes Url)} (oracle : Oracle Url)
    (lists : regime.Lists view.liveNodes) (obeys : regime.Obeys refresh)
    (promised : ∀ action next, refresh = .act action next →
      regime.Promised action (view.respond oracle action).1) :
    regime.Obeys (refresh.advance oracle view).1 ∧
      regime.Lists (refresh.advance oracle view).2.liveNodes := by
  cases refresh with
  | done result => exact ⟨obeys, lists⟩
  | act action next =>
      exact ⟨obeys.2 _ (promised action next rfl), sound.respond view oracle action lists obeys.1⟩

theorem Obeys.step (sound : regime.Sound config.inputs) (obeys : s.Obeys regime)
    (guard : s.enabled e) (promised : s.Promises regime e) : (s.next config e).Obeys regime := by
  have candidates : ∀ l v candidates,
      (s.next config e).critical = some (.affinity l v (.spawn candidates)) →
      regime.Lists candidates := by
    intro l v candidates holds
    obtain before | rfl := candidates_of_next guard holds
    · exact obeys.candidates l v candidates before
    · exact obeys.ordinary
  have loops (l : Nat) {refresh : Refresh Url (DiscoveryOutcomes Url)}
      (sets : s.SetsLoop (s.next config e) l refresh) (here : regime.Obeys refresh) (l' : Nat) :
      regime.Obeys ((s.next config e).loops l').refresh := by
    by_cases same : l' = l
    · rw [same, sets.here]
      exact here
    · rw [sets.others l' same]
      exact obeys.loops l'
  have tasks (a v : Nat) {refresh : Refresh Url (DiscoveryOutcomes Url)}
      (sets : s.SetsTask (s.next config e) a v refresh) (here : regime.Obeys refresh) (a' : Nat) :
      regime.Obeys ((s.next config e).affinities a').refresh := by
    by_cases same : a' = a
    · rw [same, sets.here.2]
      exact here
    · rw [sets.others a' same]
      exact obeys.tasks a'
  have views (v : Nat) {view : NodeView Url} (lists : regime.Lists view.liveNodes)
      (set : (s.next config e).views = update s.views v (some view)) (v' : Nat)
      (view' : NodeView Url) (known : (s.next config e).views v' = some view') :
      regime.Lists view'.liveNodes := by
    rw [set] at known
    by_cases same : v' = v
    · rw [same, update_self] at known
      cases known
      exact lists
    · rw [update_of_ne same] at known
      exact obeys.views v' view' known
  cases @next_writes _ _ config s e guard with
  | rests rests idles =>
      refine ⟨?_, ?_, fun l => ?_, fun a => ?_, candidates⟩
      · rw [rests.ordinary]
        exact obeys.ordinary
      · rw [rests.views]
        exact obeys.views
      · obtain same | new := rests.loops l
        · rw [same]
          exact obeys.loops l
        · rw [new]
          exact sound.ends
      · rw [(rests.tasks a).2]
        exact obeys.tasks a
  | view v absent ordinary set loopsSame tasksSame =>
      refine ⟨?_, views v sound.seeds set, ?_, ?_, candidates⟩
      · rw [ordinary]
        exact obeys.ordinary
      · rw [loopsSame]
        exact obeys.loops
      · rw [tasksSame]
        exact obeys.tasks
  | turn l ordinary sets =>
      refine ⟨?_, ?_, loops l sets ?_, ?_, candidates⟩
      · rw [ordinary]
        exact obeys.ordinary
      · rw [sets.views]
        exact obeys.views
      · exact sound.refresh _ _ _ _ sound.ends (by simp)
      · rw [sets.affinities]
        exact obeys.tasks
  | spawn l v a loaded view here absent set sets =>
      refine ⟨?_, ?_, ?_, tasks a v sets ?_, candidates⟩
      · rw [sets.ordinary]
        exact obeys.ordinary
      · rw [set]
        exact obeys.views
      · rw [sets.loops]
        exact obeys.loops
      · refine sound.refresh _ _ _ _ ?_ fun candidate member =>
          ⟨loaded, obeys.candidates l v loaded guard.1, member⟩
        have ended := obeys.loops l
        rw [outcomes]
        split
        · next result done =>
          rw [done] at ended
          exact ended
        · exact sound.ends
  | refresh l oracle fine ordinary sets =>
      obtain ⟨goes, lists⟩ := advance_obeys sound oracle obeys.ordinary (obeys.loops l)
        promised
      refine ⟨?_, ?_, loops l sets goes, ?_, candidates⟩
      · rw [ordinary]
        exact lists
      · rw [sets.views]
        exact obeys.views
      · rw [sets.affinities]
        exact obeys.tasks
  | refreshAffinity a oracle view here fine set sets =>
      obtain ⟨goes, lists⟩ := advance_obeys sound oracle
        (obeys.views _ view here) (obeys.tasks a) fun action next => promised view action next here
      refine ⟨?_, views _ lists set, ?_, tasks a _ sets goes, candidates⟩
      · rw [sets.ordinary]
        exact obeys.ordinary
      · rw [sets.loops]
        exact obeys.loops

end DiscoveryManager

section Origins

/-! ## Nodes have an origin -/

/-- All nodes of a list have an origin. -/
def From (Origin : Url → Prop) (nodes : List Url) : Prop := ∀ node ∈ nodes, Origin node

/-- A reply lists nodes that have an origin; a membership that is loaded has such nodes only,
and a shuffle of such nodes adds no other. -/
def RefreshAction.Supplies (inputs : DiscoveryInputs Url) (Origin : Url → Prop) :
    (action : RefreshAction Url) → action.Reply → Prop
  | .getLiveNodes _ _, reply =>
      ∀ addresses, reply = some addresses → From Origin (inputs.nodesOf addresses)
  | .loadLiveNodes, reply => From Origin reply
  | .shuffle nodes, reply => From Origin nodes → From Origin reply
  | _, _ => True

/-- Once a refresh has its generation, its requests go to nodes that have an origin, and it
publishes lists of such nodes under that generation. -/
def RefreshAction.Uses (Origin : Url → Prop) (generation : Nat) : RefreshAction Url → Prop
  | .beginRefresh => False
  | .getLiveNodes _ node => Origin node
  | .publishPartial g nodes | .publish g nodes =>
      g = generation ∧ nodes ≠ [] ∧ From Origin nodes
  | _ => True

def DiscoveryInputs.origins (inputs : DiscoveryInputs Url) (Origin : Url → Prop) : Regime Url where
  Promised := RefreshAction.Supplies inputs Origin
  Performs action := action = .beginRefresh ∨ ∃ generation, action.Uses Origin generation
  Ends := DiscoveryOutcomes.All (From Origin)
  Lists nodes := nodes ≠ [] ∧ From Origin nodes

namespace NodeView

variable {inputs : DiscoveryInputs Url} {Origin : Url → Prop}

theorem discoverClusterLoop_origins (generation : Nat) {candidates newNodes : List Url}
    (candidatesFrom : From Origin candidates)
    (newNodesFrom : From Origin newNodes) (gotResponse : Bool) :
    (discoverClusterLoop inputs generation candidates newNodes gotResponse).EnsuresIf
      (RefreshAction.Supplies inputs Origin) (RefreshAction.Uses Origin generation)
      (fun reply => ∀ nodes, reply = some nodes → From Origin nodes) := by
  induction candidates generalizing newNodes gotResponse with
  | nil =>
      intro nodes answered
      cases gotResponse with
      | false => cases answered
      | true =>
          cases answered
          intro node member
          exact newNodesFrom node (mem_sortDedup.mp member)
  | cons nodeAddr candidates ih =>
      have rest : From Origin candidates := fun node member =>
        candidatesFrom node (List.mem_cons_of_mem _ member)
      rw [discoverClusterLoop]
      split
      · exact ih rest newNodesFrom gotResponse
      · refine ⟨candidatesFrom nodeAddr List.mem_cons_self, fun reply supplied => ?_⟩
        cases reply with
        | none => exact ih rest newNodesFrom gotResponse
        | some addresses =>
            have together : From Origin (sortDedup (newNodes ++ inputs.nodesOf addresses)) := by
              intro node member
              obtain earlier | listed := List.mem_append.mp (mem_sortDedup.mp member)
              · exact newNodesFrom node earlier
              · exact supplied addresses rfl node listed
            have go := ih rest together true
            change Program.EnsuresIf _ _ _ (if _ then _ else _)
            split
            · next nonempty =>
              refine ⟨⟨rfl, ?_, together⟩, fun _ _ => go⟩
              simp_all
            · exact go

theorem probe_origins (generation : Nat) {additionalCandidates : List Url} (reuseOutcomes : Bool)
    (scope : RoutingScope) {nodeAddr : Url} {outcomes : DiscoveryOutcomes Url}
    (seeds : From Origin inputs.seedUrls)
    (additional : From Origin additionalCandidates) (here : Origin nodeAddr)
    (known : outcomes.All (From Origin)) :
    (probe inputs generation additionalCandidates reuseOutcomes scope nodeAddr outcomes).EnsuresIf
      (RefreshAction.Supplies inputs Origin) (RefreshAction.Uses Origin generation)
      (fun reply => ∀ nodes, reply = some nodes → From Origin nodes) := by
  rw [probe]
  split
  · next cached found =>
    intro nodes same
    cases same
    exact known _ _ (Option.eq_some_of_filter_eq_some found)
  · split
    · refine ⟨trivial, fun liveNodes loaded => ⟨trivial, fun candidates shuffled => ?_⟩⟩
      refine discoverClusterLoop_origins generation (fun node member => ?_)
        (fun _ member => absurd member List.not_mem_nil) false
      refine shuffled (fun node member => ?_) node member
      obtain known | extra := List.mem_append.mp (mem_sortDedup.mp member)
      · obtain live | seed := List.mem_append.mp known
        · exact loaded node live
        · exact seeds node seed
      · exact additional node extra
    · refine ⟨here, fun reply supplied nodes answered => ?_⟩
      obtain ⟨addresses, replied, rfl⟩ := Option.map_eq_some_iff.mp answered
      exact supplied addresses replied

theorem updateLoop_origins (generation : Nat) {additionalCandidates : List Url}
    (reuseOutcomes : Bool) (scope : RoutingScope) (candidates : List Url) (usingSeeds : Bool)
    (outcomes : DiscoveryOutcomes Url) (seeds : From Origin inputs.seedUrls)
    (additional : From Origin additionalCandidates)
    (candidatesFrom : From Origin candidates)
    (known : outcomes.All (From Origin)) :
    (updateLoop inputs generation additionalCandidates reuseOutcomes scope candidates usingSeeds
      outcomes).EnsuresIf (RefreshAction.Supplies inputs Origin)
      (RefreshAction.Uses Origin generation)
      (DiscoveryOutcomes.All (From Origin)) := by
  induction scope, candidates, usingSeeds, outcomes using updateLoop.induct inputs with
  | case1 scope usingSeeds outcomes =>
      rw [updateLoop]
      exact known
  | case2 scope usingSeeds outcomes nodeAddr rest viaSeeds next fallback =>
      have here := candidatesFrom nodeAddr List.mem_cons_self
      have others : From Origin rest := fun node member =>
        candidatesFrom node (List.mem_cons_of_mem _ member)
      rw [updateLoop]
      refine ⟨trivial, fun _ _ => ?_⟩
      refine (probe_origins generation reuseOutcomes scope seeds additional here known).bind ?_
      intro reply listed
      cases reply with
      | none =>
          dsimp only
          split
          · exact known
          · split
            · next recover => exact viaSeeds recover seeds known
            · exact next others known
      | some newNodes =>
          have newFrom := listed newNodes rfl
          have updated := known.update scope.discoveryOperation newFrom
          cases empty : newNodes.isEmpty with
          | true =>
              cases scope with
              | last target => simpa [empty] using updated
              | withNext target fallbackScope =>
                  have requeued : From Origin (rest ++ [nodeAddr]) := by
                    intro node member
                    obtain earlier | last := List.mem_append.mp member
                    · exact others node earlier
                    · rwa [List.mem_singleton.mp last]
                  simpa [empty] using fallback newNodes requeued updated
          | false =>
              dsimp only
              rw [if_neg (by simp [empty])]
              exact ⟨⟨rfl, by simpa using empty, newFrom⟩, fun _ _ => updated⟩

/-- A refresh that has its generation uses nodes that have an origin only. -/
theorem updateLiveNodesFrom_origins (inputs : DiscoveryInputs Url) (scope : RoutingScope)
    {candidates : List Url} (reuse : Bool) {outcomes : DiscoveryOutcomes Url}
    (seeds : From Origin inputs.seedUrls)
    (additional : From Origin candidates) (known : outcomes.All (From Origin)) :
    ∃ next, updateLiveNodesFrom inputs scope outcomes candidates reuse = .act .beginRefresh next ∧
      next none = .done outcomes ∧ ∀ generation, (next (some generation)).EnsuresIf
        (RefreshAction.Supplies inputs Origin) (RefreshAction.Uses Origin generation)
        (DiscoveryOutcomes.All (From Origin)) := by
  refine ⟨_, rfl, rfl, fun generation => ⟨trivial, fun liveNodes loaded =>
    ⟨trivial, fun nodes shuffled => ?_⟩⟩⟩
  refine updateLoop_origins _ _ _ _ _ _ seeds additional (fun node member => ?_) known
  obtain live | extra := mem_addCandidates.mp member
  · exact shuffled loaded node live
  · exact additional node extra

end NodeView

/-- The refreshes of the source use nodes that have an origin only. -/
theorem DiscoveryInputs.sound_origins {inputs : DiscoveryInputs Url} {Origin : Url → Prop}
    (populated : inputs.seedUrls ≠ []) (seeds : From Origin inputs.seedUrls) :
    (inputs.origins Origin).Sound inputs where
  seeds := ⟨populated, seeds⟩
  ends := DiscoveryOutcomes.all_none _
  refresh scope outcomes candidates reuse known listed := by
    have additional : From Origin candidates := by
      intro node member
      obtain ⟨nodes, lists, found⟩ := listed node member
      exact lists.2 node found
    obtain ⟨next, same, refused, goes⟩ :=
      NodeView.updateLiveNodesFrom_origins inputs scope reuse seeds additional known
    rw [same]
    refine ⟨.inl rfl, fun generation _ => ?_⟩
    cases generation with
    | none =>
        rw [refused]
        exact known
    | some generation => exact (goes generation).mono (fun _ uses => .inr ⟨generation, uses⟩)
  respond view oracle action lists performs := by
    obtain same | ⟨generation, newNodes, rfl, same⟩ | ⟨generation, discovered, rfl, same⟩ :=
      view.respond_liveNodes oracle action
    · rw [same]
      exact lists
    · obtain begins | ⟨_, uses⟩ := performs
      · cases begins
      · rw [same]
        exact uses.2
    · obtain begins | ⟨_, uses⟩ := performs
      · cases begins
      · rw [same]
        refine ⟨?_, fun node member => ?_⟩
        · rw [Ne, sortDedup_eq_nil, List.append_eq_nil_iff]
          exact fun none => lists.1 none.1
        · obtain live | new := List.mem_append.mp (mem_sortDedup.mp member)
          · exact lists.2 node live
          · exact uses.2.2 node new

end Origins

/-- The parts of the manager that `try_new` builds which never change. -/
def LiveNodes.managerConfig (live : LiveNodes Url) : ManagerConfig Url :=
  ⟨live.inputs, live.activeInterval, live.idleInterval⟩

def Refresh.action {Url α : Type} : Refresh Url α → Option (RefreshAction Url)
  | .done _ => none
  | .act action _ => some action

namespace DiscoveryManager

section Runs

/-- What answers the action of a refresh that a statement performs. -/
def Event.oracle : Event Url → Option (Oracle Url)
  | .refresh _ oracle | .refreshAffinity _ oracle => some oracle
  | _ => none

/-- The action of a refresh that a statement performs. -/
def performs (s : DiscoveryManager Url) : Event Url → Option (RefreshAction Url)
  | .refresh l _ => (s.loops l).refresh.action
  | .refreshAffinity a _ => (s.affinities a).refresh.action
  | _ => none

/-- The statement requests `/localnodes` of a node. -/
def Requests (s : DiscoveryManager Url) (e : Event Url) (node : Url) : Prop :=
  ∃ operation, s.performs e = some (.getLiveNodes operation node)

/-- The statement receives a list of addresses, one of which is that of a node. -/
def Reports (inputs : DiscoveryInputs Url) (s : DiscoveryManager Url) (e : Event Url)
    (node : Url) : Prop :=
  ∃ operation target oracle addresses, s.performs e = some (.getLiveNodes operation target) ∧
    e.oracle = some oracle ∧ oracle.getLiveNodes operation target = some addresses ∧
    node ∈ inputs.nodesOf addresses

/-- The node is a seed, or a step of the run has received its address. -/
def HasOrigin (config : ManagerConfig Url) (start : DiscoveryManager Url)
    (events : List (Event Url)) (node : Url) : Prop :=
  node ∈ config.inputs.seedUrls ∨ ∃ before e after, events = before ++ e :: after ∧
    ((machine config).exec start before).Reports config.inputs e node

/-- The shuffles of a statement return what they are given in some order. -/
def Event.Shuffles (e : Event Url) : Prop :=
  ∀ oracle, e.oracle = some oracle → ∀ nodes, (oracle.shuffle nodes).Perm nodes

/-- The views that requests are routed by. -/
def IsView (s : DiscoveryManager Url) (view : NodeView Url) : Prop :=
  view = s.ordinary ∨ ∃ v, s.views v = some view

variable {regime : Regime Url} {config : ManagerConfig Url} {s : DiscoveryManager Url}
  {e : Event Url} {events : List (Event Url)} {Origin : Url → Prop}

omit [LinearOrder Url] in
theorem Obeys.isView {view : NodeView Url} (obeys : s.Obeys regime) (isView : s.IsView view) :
    regime.Lists view.liveNodes := by
  obtain rfl | ⟨v, known⟩ := isView
  · exact obeys.ordinary
  · exact obeys.views v view known

theorem supplies_respond {inputs : DiscoveryInputs Url} {view : NodeView Url} {oracle : Oracle Url}
    (live : From Origin view.liveNodes) (shuffles : ∀ nodes, (oracle.shuffle nodes).Perm nodes)
    {action : RefreshAction Url}
    (reports : ∀ operation target addresses, action = .getLiveNodes operation target →
      oracle.getLiveNodes operation target = some addresses →
      From Origin (inputs.nodesOf addresses)) :
    RefreshAction.Supplies inputs Origin action (view.respond oracle action).1 := by
  cases action with
  | getLiveNodes operation target =>
      exact fun addresses replied => reports operation target addresses rfl replied
  | loadLiveNodes => exact live
  | shuffle nodes => exact fun known node member => known node ((shuffles nodes).mem_iff.mp member)
  | _ => trivial

/-- A step whose reports have an origin keeps the promises that are made to refreshes. -/
theorem Obeys.promises (obeys : s.Obeys (config.inputs.origins Origin))
    (shuffles : e.Shuffles) (reports : ∀ node, s.Reports config.inputs e node → Origin node) :
    s.Promises (config.inputs.origins Origin) e := by
  cases e with
  | refresh l oracle =>
      intro action next here
      refine supplies_respond obeys.ordinary.2 (shuffles oracle rfl) ?_
      rintro operation target addresses rfl replied node listed
      exact reports node ⟨operation, target, oracle, addresses, by simp [performs, here,
        Refresh.action], rfl, replied, listed⟩
  | refreshAffinity a oracle =>
      intro view action next known here
      refine supplies_respond (obeys.views _ view known).2 (shuffles oracle rfl) ?_
      rintro operation target addresses rfl replied node listed
      exact reports node ⟨operation, target, oracle, addresses, by simp [performs, here,
        Refresh.action], rfl, replied, listed⟩
  | _ => trivial

/-- After a run from a view of the seeds, everything has an origin in the run. -/
theorem obeys_of_run {scope : RoutingScope} {now : Nat} (populated : config.inputs.seedUrls ≠ [])
    (run : (machine config).Admits (.new (.new scope config.inputs.seedUrls) now) events)
    (shuffles : ∀ e ∈ events, e.Shuffles) :
    ((machine config).exec (.new (.new scope config.inputs.seedUrls) now) events).Obeys
      (config.inputs.origins
        (HasOrigin config (.new (.new scope config.inputs.seedUrls) now) events)) := by
  let Known := HasOrigin config (.new (.new scope config.inputs.seedUrls) now) events
  have seeds : From Known config.inputs.seedUrls := fun node seed => .inl seed
  have sound := DiscoveryInputs.sound_origins populated seeds
  have kept : ((machine config).restrict fun s e => e.Shuffles ∧
      ∀ node, s.Reports config.inputs e node → Known node).Admits
        (.new (.new scope config.inputs.seedUrls) now) events :=
    run.restrict fun before e after split =>
      ⟨shuffles e (split ▸ List.mem_append_right _ List.mem_cons_self),
        fun node reported => .inr ⟨before, e, after, split, reported⟩⟩
  refine kept.preserves (I := fun s => s.Obeys (config.inputs.origins Known)) ?_ ?_
  · intro s e obeys guard
    exact obeys.step sound guard.1 (obeys.promises guard.2.1 guard.2.2)
  · exact ⟨⟨populated, seeds⟩, (fun _ _ absent => nomatch absent), fun _ => sound.ends,
      fun _ => sound.ends, fun _ _ _ absent => nomatch absent⟩

omit [LinearOrder Url] in
theorem Obeys.uses {node : Url} (obeys : s.Obeys (config.inputs.origins Origin))
    (requests : s.Requests e node) : Origin node := by
  have uses {refresh : Refresh Url (DiscoveryOutcomes Url)} {operation : DiscoveryOperation}
      (here : (config.inputs.origins Origin).Obeys refresh)
      (performed : refresh.action = some (.getLiveNodes operation node)) : Origin node := by
    cases refresh with
    | done result => cases performed
    | act action next =>
        cases performed
        obtain begins | ⟨_, uses⟩ := here.1
        · cases begins
        · exact uses
  obtain ⟨operation, performed⟩ := requests
  cases e with
  | refresh l oracle => exact uses (obeys.loops l) performed
  | refreshAffinity a oracle => exact uses (obeys.tasks a) performed
  | _ => cases performed

/-- Every node of a view, and every node that discovery sends a request to, is a seed or has
been listed in a reply that was received before. This holds in every run of the manager of an
accepted configuration, and no view is ever empty. -/
theorem nodes_have_an_origin {library : UrlLibrary Url}
    {buildDiscoveryHttpClient : Text → Except LiveNodesBuildError Bool}
    {settings : AlternatorConfig} {live : LiveNodes Url} {now : Nat}
    (accepted : LiveNodes.tryNew library buildDiscoveryHttpClient settings = .ok (some live))
    (run : (machine live.managerConfig).Admits (.new live.view now) events)
    (shuffles : ∀ e ∈ events, e.Shuffles) :
    (∀ view, ((machine live.managerConfig).exec (.new live.view now) events).IsView view →
      view.liveNodes ≠ [] ∧ ∀ node ∈ view.liveNodes,
        HasOrigin live.managerConfig (.new live.view now) events node) ∧
    ∀ before e after node, events = before ++ e :: after →
      ((machine live.managerConfig).exec (.new live.view now) before).Requests e node →
      HasOrigin live.managerConfig (.new live.view now) before node := by
  obtain ⟨inputsAccepted, -, view⟩ := LiveNodes.tryNew_accepts accepted
  rw [view] at run ⊢
  have populated : live.managerConfig.inputs.seedUrls ≠ [] := inputsAccepted.seedUrls.1
  refine ⟨fun view isView => (obeys_of_run populated run shuffles).isView isView, ?_⟩
  rintro before e after node rfl requests
  have earlier := ((Machine.admits_append ..).mp run).1
  exact (obeys_of_run populated earlier fun e member =>
    shuffles e (List.mem_append_left _ member)).uses requests

/-- A configuration of one seed. -/
def plainConfig : AlternatorConfig where
  activeInterval := none
  idleInterval := none
  routingScope := none
  scheme := none
  port := none
  seedHosts := some [['a']]
  withoutDiscovery := false
  hasHttpClient := false

def plainLive : LiveNodes PlainUrl where
  view := .new .fromCluster [PlainUrl.node ['a']]
  inputs := plainManager.inputs
  activeInterval := defaultActiveRefreshInterval
  idleInterval := defaultIdleRefreshInterval
  nativeRootsUsable := true

/-- A loop starts and refreshes, and learns of the node `b` from the seed. -/
def learns : List (Event PlainUrl) :=
  startLoop 0 .ensure 1 0 ++ [.poll 0, .turn 0, .proceed 0] ++
    List.replicate 9 (.refresh 0 ⟨id, fun _ _ => some [['b']]⟩)

theorem shuffles_of_mem_learns {e : Event PlainUrl} (member : e ∈ learns) : e.Shuffles := by
  intro oracle answers nodes
  simp only [learns, startLoop, List.mem_append, List.mem_cons, List.mem_replicate,
    List.not_mem_nil, or_false] at member
  obtain ((rfl | rfl | rfl | rfl | rfl | rfl | rfl | rfl | rfl | rfl | rfl | rfl) |
    rfl | rfl | rfl) | ⟨-, rfl⟩ := member <;> cases answers
  exact .refl _

theorem nodes_have_an_origin_learns :
    ((machine plainLive.managerConfig).exec (.new plainLive.view 0) learns).ordinary.liveNodes =
      [PlainUrl.node ['b']] ∧
    HasOrigin plainLive.managerConfig (.new plainLive.view 0) learns (PlainUrl.node ['b']) := by
  have accepted : LiveNodes.tryNew PlainUrl.library (fun _ => .ok true) plainConfig =
      .ok (some plainLive) := rfl
  have learned : ((machine plainLive.managerConfig).exec (.new plainLive.view 0)
      learns).ordinary.liveNodes = [PlainUrl.node ['b']] := by
    decide +kernel
  have run : (machine plainLive.managerConfig).Admits (.new plainLive.view 0) learns := by
    decide +kernel
  obtain ⟨views, -⟩ := nodes_have_an_origin accepted run fun _ => shuffles_of_mem_learns
  refine ⟨learned, (views _ (.inl rfl)).2 _ ?_⟩
  rw [learned]
  exact List.mem_singleton_self _

end Runs

end DiscoveryManager

end AlternatorDriver
