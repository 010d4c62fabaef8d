import AlternatorDriver.Routing.CapturedOrder
import AlternatorDriver.Routing.EveryAttempt
import AlternatorDriver.Routing.Rotation

/-!
# Nodes that are listed twice

The union of a cluster pass drops repeated nodes, but the seeds and the reply of a
datacenter or a rack are sorted only. A configuration or a reply that names one node twice
therefore makes a membership that repeats it. As long as neither does, no membership ever
repeats a node, and the plans of a client rely on it.
-/

namespace AlternatorDriver

open Foundation Function

variable {Url : Type} [LinearOrder Url]

/-- A reply that is published as it is stands for distinct nodes. Cluster replies are
united, and may repeat nodes. -/
def DistinctReply (inputs : DiscoveryInputs Url) (operation : DiscoveryOperation)
    (addresses : List Text) : Prop :=
  operation ≠ .cluster → (inputs.nodesOf addresses).Nodup

theorem nodup_sortDedup (nodes : List Url) : (sortDedup nodes).Nodup :=
  (pairwise_sortDedup nodes).imp ne_of_lt

theorem keeps_nodup (inputs : DiscoveryInputs Url) :
    inputs.Keeps (DistinctReply inputs) List.Nodup where
  nil := List.nodup_nil
  single _ _ notCluster distinct := distinct notCluster
  union _ _ _ _ := nodup_sortDedup _
  canonical _ _ := nodup_sortDedup _

section Passes

/-! ## One pass of a plan -/

variable (views : Nat → NodeView Url) (meanwhile : Nat → NodeView Url → NodeView Url)

namespace QueryPlan

/-- The nodes of the attempts of one pass over a membership of this size. -/
def pass (plan : QueryPlan Url) (size number : Nat) : List (Option Url) :=
  (List.range size).map fun i => plan.attempt views meanwhile (size * number + i)

/-- An ordered plan tries the nodes of its order in each pass. -/
theorem pass_ordered (name : ViewName) (nodes : List Url) (number : Nat) :
    (⟨name, .ordered nodes 0⟩ : QueryPlan Url).pass views meanwhile nodes.length number =
      nodes.map some := by
  refine List.ext_getElem (by simp [pass]) fun i bound bound' => ?_
  rw [List.length_map] at bound'
  have populated : 0 < nodes.length := Nat.zero_lt_of_lt bound'
  simp [pass, attempt_ordered views meanwhile name populated, Nat.mod_eq_of_lt bound']

theorem after_add (plan : QueryPlan Url) (n m : Nat) :
    plan.after views meanwhile (n + m) = (plan.after views meanwhile n).after
      (fun i => views (n + i)) (fun i => meanwhile (n + i)) m := by
  induction m with
  | zero => rfl
  | succ m ih => rw [← Nat.add_assoc, after, ih, after]

theorem attempt_add (plan : QueryPlan Url) (n m : Nat) :
    plan.attempt views meanwhile (n + m) = (plan.after views meanwhile n).attempt
      (fun i => views (n + i)) (fun i => meanwhile (n + i)) m := by
  rw [attempt, attempt, after_add]

/-- No refresh comes between the attempts. Other plans may move the counter. -/
structure Steady (live : List Url) : Prop where
  views : ∀ i, (views i).liveNodes = live
  meanwhile : ∀ i view, view.liveNodes = live → (meanwhile i view).liveNodes = live

variable {views meanwhile} {live used : List Url}

omit [LinearOrder Url] in
theorem Steady.shift (steady : Steady views meanwhile live) (n : Nat) :
    Steady (fun i => views (n + i)) (fun i => meanwhile (n + i)) live :=
  ⟨fun i => steady.views (n + i), fun i => steady.meanwhile (n + i)⟩

/-- An attempt of a round-robin plan goes to an unused node, and if there is none the plan
starts over. -/
theorem nextNodeOrRestart_roundRobin (name : ViewName) {view : NodeView Url}
    {others : NodeView Url → NodeView Url} (same : view.liveNodes = live)
    (steady : (others view).liveNodes = live) (populated : live ≠ []) :
    ∃ node ∈ live,
      ((⟨name, .roundRobin used⟩ : QueryPlan Url).nextNodeOrRestart view others).1 = some node ∧
      ((⟨name, .roundRobin used⟩ : QueryPlan Url).nextNodeOrRestart view others).2.1 =
        ⟨name, .roundRobin (node :: if ∀ node ∈ live, node ∈ used then [] else used)⟩ ∧
      ((∃ node ∈ live, node ∉ used) → node ∉ used) := by
  cases drawn : (drawFrom live used view.counter).1 with
  | some node =>
      obtain ⟨member, unused⟩ := drawFrom_eq_some drawn
      have remaining : ¬ ∀ node ∈ live, node ∈ used := fun all => unused (all node member)
      refine ⟨node, member, ?_, ?_, fun _ => unused⟩
      · simp [nextNodeOrRestart, nextNode, NodeView.getNextNodeRoundRobin_eq_drawFrom, same, drawn]
      · simp [nextNodeOrRestart, nextNode, NodeView.getNextNodeRoundRobin_eq_drawFrom, same, drawn,
          remaining]
  | none =>
      have exhausted := drawFrom_eq_none.mp drawn
      obtain ⟨first, listed⟩ := List.exists_mem_of_ne_nil _ populated
      cases redrawn : (drawFrom live [] (others view).counter).1 with
      | none => exact absurd (drawFrom_eq_none.mp redrawn first listed) List.not_mem_nil
      | some node =>
          have stays : view.getNextNodeRoundRobin used = (none, view) := by
            subst same
            rw [NodeView.getNextNodeRoundRobin_eq_drawFrom, drawn, drawFrom_counter drawn]
          refine ⟨node, (drawFrom_eq_some redrawn).1, ?_, ?_, ?_⟩
          · simp [nextNodeOrRestart, nextNode, stays, restart,
              NodeView.getNextNodeRoundRobin_eq_drawFrom, steady, redrawn]
          · simp only [nextNodeOrRestart, nextNode, stays, restart,
              NodeView.getNextNodeRoundRobin_eq_drawFrom, steady, redrawn, if_pos exhausted]
          · rintro ⟨unused, member, absent⟩
            exact absurd (exhausted unused member) absent

/-- The attempts of a pass so far: distinct nodes, which the plan remembers. -/
theorem after_roundRobin (steady : Steady views meanwhile live) (distinctLive : live.Nodup)
    (name : ViewName)
    (start : used = [] ∨ ∀ node ∈ live, node ∈ used) (k : Nat) (positive : 0 < k)
    (bound : k ≤ live.length) :
    ∃ drawn : List Url, drawn.length = k ∧ drawn.Nodup ∧ drawn ⊆ live ∧
      (⟨name, .roundRobin used⟩ : QueryPlan Url).after views meanwhile k =
        ⟨name, .roundRobin drawn⟩ ∧
      (List.range k).map ((⟨name, .roundRobin used⟩ : QueryPlan Url).attempt views meanwhile) =
        drawn.reverse.map some := by
  have populated : live ≠ [] := List.ne_nil_of_length_pos (Nat.lt_of_lt_of_le positive bound)
  have draw (used : List Url) (i : Nat) :=
    @nextNodeOrRestart_roundRobin Url _ live used name (views i)
    (meanwhile i) (steady.views i) (steady.meanwhile i _ (steady.views i)) populated
  induction k, positive using Nat.le_induction with
  | base =>
      obtain ⟨node, member, drawn, moved, -⟩ := draw used 0
      refine ⟨[node], rfl, List.nodup_singleton node, by simpa using member, ?_, ?_⟩
      · have fresh : (if ∀ node ∈ live, node ∈ used then [] else used) = [] := by
          obtain rfl | full := start
          · exact ite_self _
          · exact if_pos full
        rw [after, after, moved, fresh]
      · simpa [attempt, after] using drawn
  | succ k positive ih =>
      obtain ⟨earlier, length, distinct, within, reached, attempts⟩ := ih (by omega)
      -- Fewer nodes have been drawn than there are.
      have remaining : ∃ node ∈ live, node ∉ earlier := by
        by_contra none
        push Not at none
        have all := (List.subperm_of_subset distinctLive none).length_le
        omega
      obtain ⟨node, member, drawn, moved, unused⟩ := draw earlier k
      have notAll : ¬ ∀ node ∈ live, node ∈ earlier := by
        obtain ⟨other, listed, absent⟩ := remaining
        exact fun all => absent (all other listed)
      refine ⟨node :: earlier, by simp [length], List.nodup_cons.mpr ⟨unused remaining, distinct⟩,
        List.cons_subset.mpr ⟨member, within⟩, ?_, ?_⟩
      · rw [after, reached, moved, if_neg notAll]
      · rw [List.range_succ, List.map_append, attempts, List.reverse_cons, List.map_append]
        simpa [attempt, reached] using drawn

/-- A round-robin plan tries every node of a steady membership in each pass. -/
theorem pass_roundRobin (steady : Steady views meanwhile live) (distinctLive : live.Nodup)
    (name : ViewName) (number : Nat) :
    ((⟨name, .roundRobin []⟩ : QueryPlan Url).pass views meanwhile live.length number).Perm
      (live.map some) := by
  obtain empty | positive := Nat.eq_zero_or_pos live.length
  · rw [List.length_eq_zero_iff.mp empty]
    exact .refl _
  have whole {drawn : List Url} (length : drawn.length = live.length) (distinct : drawn.Nodup)
      (within : drawn ⊆ live) : drawn.Perm live :=
    (List.subperm_of_subset distinct within).perm_of_length_le (by omega)
  have starts (number : Nat) : ∃ used, (used = [] ∨ ∀ node ∈ live, node ∈ used) ∧
      (⟨name, .roundRobin []⟩ : QueryPlan Url).after views meanwhile (live.length * number) =
        ⟨name, .roundRobin used⟩ := by
    induction number with
    | zero => exact ⟨[], .inl rfl, rfl⟩
    | succ number ih =>
        obtain ⟨used, start, reached⟩ := ih
        obtain ⟨drawn, length, distinct, within, moved, -⟩ :=
          after_roundRobin (steady.shift (live.length * number)) distinctLive name start live.length
            positive (Nat.le_refl _)
        refine ⟨drawn, .inr fun node member => ?_, ?_⟩
        · exact (whole length distinct within).mem_iff.mpr member
        · rw [Nat.mul_succ, after_add, reached, moved]
  obtain ⟨used, start, reached⟩ := starts number
  obtain ⟨drawn, length, distinct, within, -, attempts⟩ :=
    after_roundRobin (steady.shift (live.length * number)) distinctLive name start live.length
      positive (Nat.le_refl _)
  have attempted : (⟨name, .roundRobin []⟩ : QueryPlan Url).pass views meanwhile live.length number =
      drawn.reverse.map some := by
    rw [← attempts, pass]
    simp only [attempt_add, reached]
  rw [attempted]
  exact ((List.reverse_perm drawn).trans (whole length distinct within)).map some

end QueryPlan

end Passes

namespace RoutedClient

/-- A step whose reply to a scoped query, if it is one, stands for distinct nodes. -/
def DistinctReplies (inputs : DiscoveryInputs Url) (s : RoutedClient Url) : Event Url → Prop
  | .refresh task oracle => ∀ name operation node rest addresses,
      s.refreshes task = some ⟨name, .act (.getLiveNodes operation node) rest⟩ →
      oracle.getLiveNodes operation node = some addresses → DistinctReply inputs operation addresses
  | _ => True

/-- What is true in every state as long as the replies stand for distinct nodes. -/
structure Distinct (inputs : DiscoveryInputs Url) (s : RoutedClient Url) : Prop where
  views : ∀ name, (s.view name).liveNodes ≠ [] ∧ (s.view name).liveNodes.Nodup
  refreshes : ∀ i task, s.refreshes i = some task →
    task.program.EnsuresIf (RefreshAction.Promised (DistinctReply inputs))
      (RefreshAction.Publishes List.Nodup) (DiscoveryOutcomes.All List.Nodup)

section Steps

variable {inputs : DiscoveryInputs Url} {s : RoutedClient Url}

/-- A membership of distinct nodes stays one when a publication of such a list is
performed on it. -/
theorem respond_distinct {view : NodeView Url}
    (distinct : view.liveNodes ≠ [] ∧ view.liveNodes.Nodup) (oracle : Oracle Url)
    {action : RefreshAction Url} (publishes : action.Publishes List.Nodup) :
    (view.respond oracle action).2.liveNodes ≠ [] ∧
      (view.respond oracle action).2.liveNodes.Nodup := by
  obtain same | ⟨generation, newNodes, rfl, same⟩ | ⟨generation, discovered, rfl, same⟩ :=
    view.respond_liveNodes oracle action
  · rw [same]
    exact distinct
  · rw [same]
    exact publishes
  · rw [same]
    refine ⟨?_, nodup_sortDedup _⟩
    rw [Ne, sortDedup_eq_nil, List.append_eq_nil_iff]
    exact fun none => distinct.1 none.1

omit [LinearOrder Url] in
theorem Distinct.setRefresh (distinct : s.Distinct inputs) (i : Nat)
    {refresh : Option (RefreshTask Url)}
    (ensures : ∀ task, refresh = some task →
      task.program.EnsuresIf (RefreshAction.Promised (DistinctReply inputs))
        (RefreshAction.Publishes List.Nodup) (DiscoveryOutcomes.All List.Nodup)) :
    (s.setRefresh i refresh).Distinct inputs := by
  refine ⟨fun name => ?_, fun j task found => ?_⟩
  · rw [view_setRefresh]
    exact distinct.views name
  · by_cases same : j = i
    · subst same
      rw [refreshes_setRefresh, update_self] at found
      exact ensures task found
    · rw [refreshes_setRefresh, update_of_ne same] at found
      exact distinct.refreshes j task found

omit [LinearOrder Url] in
theorem Distinct.setRequest (distinct : s.Distinct inputs) (r : Nat) (request : RoutedRequest Url) :
    (s.setRequest r request).Distinct inputs := by
  refine ⟨fun name => ?_, distinct.refreshes⟩
  rw [view_setRequest]
  exact distinct.views name

omit [LinearOrder Url] in
theorem Distinct.setView (distinct : s.Distinct inputs) (name : ViewName) {view : NodeView Url}
    (written : view.liveNodes ≠ [] ∧ view.liveNodes.Nodup) :
    (s.setView name view).Distinct inputs := by
  have views := @view_setView Url s name view (fun nodes => nodes ≠ [] ∧ nodes.Nodup) distinct.views
    written
  refine ⟨views, ?_⟩
  rw [refreshes_setView]
  exact distinct.refreshes

/-- A draw changes no membership. -/
theorem Distinct.finish (distinct : s.Distinct inputs) (acceptsUri : Text → Bool) (r : Nat)
    (request : RoutedRequest Url) (uri : Text) (plan : QueryPlan Url) :
    (s.finish inputs acceptsUri r request uri
      (plan.nextNode (s.view request.plan.liveNodes))).Distinct inputs := by
  refine (distinct.setView _ ?_).setRequest r _
  rw [(plan.nextNode_spec (s.view request.plan.liveNodes)).2.2.1]
  exact distinct.views _

theorem Distinct.next (distinct : s.Distinct inputs) (acceptsUri : Text → Bool)
    (murmur3X64128 : Murmur3) {e : Event Url} (replies : s.DistinctReplies inputs e) :
    (s.next inputs acceptsUri murmur3X64128 e).Distinct inputs := by
  have keeps := keeps_nodup inputs
  cases e with
  | ordinaryRefresh task =>
      refine distinct.setRefresh task ?_
      rintro _ ⟨⟩
      exact NodeView.updateLiveNodesFrom_ensuresIf keeps _ (DiscoveryOutcomes.all_none _) _ _
  | affinityRefresh task ordinary =>
      simp only [RoutedClient.next]
      split
      · next outcomes ended =>
        refine distinct.setRefresh task ?_
        rintro _ ⟨⟩
        refine NodeView.updateLiveNodesFrom_ensuresIf keeps _ ?_ _ _
        rw [ordinaryOutcomes] at ended
        split at ended
        · next result found =>
          cases ended
          exact distinct.refreshes ordinary _ found
        · cases ended
      · exact distinct
  | refresh task oracle =>
      simp only [RoutedClient.next]
      split
      · next name action rest found =>
        have ensures := distinct.refreshes task _ found
        refine (distinct.setView name (respond_distinct (distinct.views name) oracle
          ensures.1)).setRefresh task ?_
        rintro _ ⟨⟩
        refine ensures.2 _ ?_
        cases action with
        | getLiveNodes operation node =>
            intro addresses replied
            exact replies name operation node rest addresses found replied
        | _ => trivial
      · exact distinct
  | abort task => exact distinct.setRefresh task (by simp)
  | request r source => exact distinct.setRequest r _
  | sign r uri =>
      simp only [RoutedClient.next]
      split
      · exact distinct.setRequest r _
      · exact distinct
  | draw r =>
      simp only [RoutedClient.next]
      split
      · next request found =>
        split
        · next uri underway =>
          split
          · next node drawn eq =>
            rw [← eq]
            exact distinct.finish acceptsUri r request uri request.plan
          · exact distinct.setRequest r _
        · exact distinct.finish acceptsUri r request _ request.plan.restart
        · exact distinct
      · exact distinct

end Steps

section Runs

variable {library : UrlLibrary Url} {acceptsUri : Text → Bool} {murmur3X64128 : Murmur3}
variable {buildDiscoveryHttpClient : Text → Except LiveNodesBuildError Bool}
variable {config : AlternatorConfig} {live : LiveNodes Url} {s : RoutedClient Url}

/-- The runs of a client whose seeds are distinct, all of whose scoped replies stand for
distinct nodes. -/
structure DistinctRun (library : UrlLibrary Url)
    (buildDiscoveryHttpClient : Text → Except LiveNodesBuildError Bool) (acceptsUri : Text → Bool)
    (murmur3X64128 : Murmur3) (config : AlternatorConfig) (live : LiveNodes Url)
    (s : RoutedClient Url) : Prop where
  accepted : LiveNodes.tryNew library buildDiscoveryHttpClient config = .ok (some live)
  seeds : live.inputs.seedUrls.Nodup
  reach : ((machine acceptsUri murmur3X64128 live).restrict
    (DistinctReplies live.inputs)).Reachable s

theorem DistinctRun.distinct
    (run : DistinctRun library buildDiscoveryHttpClient acceptsUri murmur3X64128 config live s) :
    s.Distinct live.inputs := by
  obtain ⟨inputsAccepted, -, view⟩ := LiveNodes.tryNew_accepts run.accepted
  refine run.reach.invariant ?_ fun s e distinct guard =>
    distinct.next acceptsUri murmur3X64128 guard.2
  rintro _ rfl
  refine ⟨fun name => ?_, fun _ _ absent => nomatch absent⟩
  have seeds := And.intro inputsAccepted.seedUrls.1 run.seeds
  have ordinary : live.view.liveNodes ≠ [] ∧ live.view.liveNodes.Nodup := by
    rw [view]
    exact seeds
  cases name with
  | ordinary => exact ordinary
  | affinity =>
      simp only [start, RoutedClient.view, LiveNodes.affinityView]
      split
      · exact seeds
      · exact ordinary

/-- A plan of any source tries every node of its membership once in each pass. -/
theorem Distinct.pass_newPlan {inputs : DiscoveryInputs Url} (distinct : s.Distinct inputs)
    (source : PlanSource Url) {views : Nat → NodeView Url}
    {meanwhile : Nat → NodeView Url → NodeView Url}
    (steady : (s.newPlan murmur3X64128 source).order = none →
      QueryPlan.Steady views meanwhile (s.view (s.newPlan murmur3X64128 source).liveNodes).liveNodes)
    (number : Nat) :
    ((s.newPlan murmur3X64128 source).pass views meanwhile
      (s.view (s.newPlan murmur3X64128 source).liveNodes).liveNodes.length number).Perm
      ((s.view (s.newPlan murmur3X64128 source).liveNodes).liveNodes.map some) := by
  have basic (plan : s.newPlan murmur3X64128 source = .newBasic .ordinary) :
      ((s.newPlan murmur3X64128 source).pass views meanwhile
        (s.view (s.newPlan murmur3X64128 source).liveNodes).liveNodes.length number).Perm
        ((s.view (s.newPlan murmur3X64128 source).liveNodes).liveNodes.map some) := by
    rw [plan] at steady ⊢
    exact QueryPlan.pass_roundRobin (steady rfl) (distinct.views _).2 .ordinary number
  cases source with
  | roundRobin => exact basic rfl
  | affinity affinityType resolver iteration input =>
      obtain plan | ⟨nodes, perm, plan⟩ := @getQueryPlan_cases Url _ murmur3X64128
        ⟨affinityType, s.ordinary, s.view .affinity, resolver⟩ iteration input
        (distinct.views .affinity).1
      · exact basic plan
      · have made : s.newPlan murmur3X64128 (.affinity affinityType resolver iteration input) =
            ⟨.affinity, .ordered nodes 0⟩ := plan
        rw [made]
        dsimp only at perm ⊢
        rw [← perm.length_eq, QueryPlan.pass_ordered]
        exact perm.map some

/-- No membership repeats a node, as long as the seeds are distinct and so are the nodes of
every scoped reply. Then one pass of any plan tries every node once, and clients whose
affinity views list the same nodes make the same plans for the same keys. -/
theorem no_node_listed_twice
    (run : DistinctRun library buildDiscoveryHttpClient acceptsUri murmur3X64128 config live s) :
    (∀ name, (s.view name).liveNodes.Nodup) ∧
    (∀ source views meanwhile,
      ((s.newPlan murmur3X64128 source).order = none → QueryPlan.Steady views meanwhile
        (s.view (s.newPlan murmur3X64128 source).liveNodes).liveNodes) →
      ∀ number, ((s.newPlan murmur3X64128 source).pass views meanwhile
        (s.view (s.newPlan murmur3X64128 source).liveNodes).liveNodes.length number).Perm
        ((s.view (s.newPlan murmur3X64128 source).liveNodes).liveNodes.map some)) ∧
    ∀ library' buildDiscoveryHttpClient' acceptsUri' config' live' s',
      DistinctRun library' buildDiscoveryHttpClient' acceptsUri' murmur3X64128 config' live' s' →
      (∀ node, node ∈ (s.view .affinity).liveNodes ↔ node ∈ (s'.view .affinity).liveNodes) →
      ∀ affinityType resolver resolver' iteration iteration' input input' op op',
        resolver.cache = resolver'.cache →
        DynamoOp.fromInput input = some op → DynamoOp.fromInput input' = some op' →
        op.shouldApply affinityType = true → op'.shouldApply affinityType = true →
        AffinityQueryPlanInterceptor.usableHashes murmur3X64128
          ⟨affinityType, s.ordinary, s.view .affinity, resolver⟩ op ≠ [] →
        SameKeys resolver.cache op op' →
        s.newPlan murmur3X64128 (.affinity affinityType resolver iteration input) =
          s'.newPlan murmur3X64128 (.affinity affinityType resolver' iteration' input') := by
  have distinct := run.distinct
  refine ⟨fun name => (distinct.views name).2, fun source views meanwhile steady =>
    distinct.pass_newPlan source steady, ?_⟩
  intro library' _ _ config' live' s' run' sameNodes affinityType resolver resolver' iteration
    iteration' input input' op op' sameCache found found' applies applies' usable same
  have perm : (s.view .affinity).liveNodes.Perm (s'.view .affinity).liveNodes :=
    (List.perm_ext_iff_of_nodup (distinct.views _).2 (run'.distinct.views _).2).mpr sameNodes
  obtain ⟨nodes, -, plan, plan'⟩ := @AffinityQueryPlanInterceptor.getQueryPlan_congr Url _
    murmur3X64128 ⟨affinityType, s.ordinary, s.view .affinity, resolver⟩
    ⟨affinityType, s'.ordinary, s'.view .affinity, resolver'⟩ iteration iteration' input input' op
    op' rfl sameCache perm (distinct.views _).1 found found' applies applies' usable same
  exact plan.trans plan'.symm

end Runs

namespace RepeatedNodes

/-- The nodes `c` and `d` answer every query, or the node `c` twice. -/
def oracle (second : Text) : Oracle PlainUrl := ⟨id, fun _ _ => some [['c'], second]⟩

/-- One refresh from its beginning to its end. -/
def refreshed (second : Text) : List (Event PlainUrl) :=
  .ordinaryRefresh 0 :: List.replicate 6 (.refresh 0 (oracle second))

theorem no_node_listed_twice_refreshed :
    ((RefreshedClient.machine.exec (start RefreshedClient.live)
      (refreshed ['d'])).view .ordinary).liveNodes.Nodup := by
  have admits : (machine (fun _ => true) (fun _ => 0) RefreshedClient.live).Admits
      (start RefreshedClient.live) (refreshed ['d']) := by decide +kernel
  have distinct (s : RoutedClient PlainUrl) :
      ∀ e ∈ refreshed ['d'], s.DistinctReplies RefreshedClient.live.inputs e := by
    refine List.forall_mem_cons.mpr ⟨trivial, fun e member => ?_⟩
    rw [List.eq_of_mem_replicate member]
    rintro name operation node rest addresses - ⟨⟩ -
    decide
  have reach : (RefreshedClient.machine.restrict
      (DistinctReplies RefreshedClient.live.inputs)).Reachable
        (RefreshedClient.machine.exec (start RefreshedClient.live) (refreshed ['d'])) := by
    refine ⟨start RefreshedClient.live, refreshed ['d'], rfl, admits.restrict ?_, rfl⟩
    intro before e after split
    exact distinct _ e (split ▸ List.mem_append_right _ List.mem_cons_self)
  have run : DistinctRun PlainUrl.library (fun _ => .ok true) (fun _ => true) (fun _ => 0)
      RefreshedClient.config RefreshedClient.live
      (RefreshedClient.machine.exec (start RefreshedClient.live) (refreshed ['d'])) :=
    ⟨rfl, by decide, reach⟩
  exact (no_node_listed_twice run).1 .ordinary

/-- A configuration that names the seed `a` twice, and the live nodes built from it. -/
def config : AlternatorConfig := { RefreshedClient.config with seedHosts := some [['a'], ['a']] }

def live : LiveNodes PlainUrl where
  view := .new (.fromRack "d" "r") [PlainUrl.node ['a'], PlainUrl.node ['a']]
  inputs := ⟨PlainUrl.library, [PlainUrl.node ['a'], PlainUrl.node ['a']], "HTTP".toList, none⟩
  activeInterval := defaultActiveRefreshInterval
  idleInterval := defaultIdleRefreshInterval
  nativeRootsUsable := true

/-- The seeds repeat a node from the start; distinct seeds do not prevent the reply of a
rack from doing so. -/
theorem membership_repeats_nodes :
    (LiveNodes.tryNew PlainUrl.library (fun _ => .ok true) config = .ok (some live) ∧
      (machine (fun _ => true) (fun _ => 0) live).Reachable (start live) ∧
      ¬ ((start live).view .ordinary).liveNodes.Nodup) ∧
    LiveNodes.tryNew PlainUrl.library (fun _ => .ok true) RefreshedClient.config =
      .ok (some RefreshedClient.live) ∧
    ∃ s, RefreshedClient.machine.Reachable s ∧ RefreshedClient.live.inputs.seedUrls.Nodup ∧
      (s.view .ordinary).liveNodes = [PlainUrl.node ['c'], PlainUrl.node ['c']] := by
  have admits : (machine (fun _ => true) (fun _ => 0) RefreshedClient.live).Admits
      (start RefreshedClient.live) (refreshed ['c']) := by decide +kernel
  refine ⟨⟨rfl, .init rfl, by decide⟩, rfl, _, ⟨_, refreshed ['c'], rfl, admits, rfl⟩, by decide, ?_⟩
  decide +kernel

end RepeatedNodes

end RoutedClient

end AlternatorDriver
