import AlternatorDriver.LiveNodes.Convergence

/-!
# The cluster pass

A cluster pass asks one candidate after another and unites their replies. It does not ask
a candidate that some reply has listed already. As long as the nodes of one datacenter
agree, nothing is lost by that: the skipped reply would be among the nodes collected.
-/

namespace AlternatorDriver

open Foundation

variable {Url : Type} {inputs : DiscoveryInputs Url}

/-- The replies of the candidates that reply at all. -/
def candidateReplies (inputs : DiscoveryInputs Url) (reply : Url → Option (List Text))
    (candidates : List Url) : List (List Url) :=
  candidates.filterMap fun candidate => (reply candidate).map inputs.nodesOf

/-- The union of some replies, if there are any. -/
def unite [LinearOrder Url] (replies : List (List Url)) : Option (List Url) :=
  if replies.isEmpty then none else some (sortDedup replies.flatten)

/-- The plain algorithm: every candidate is queried, and the replies are united. -/
def queryEveryCandidate [LinearOrder Url] (inputs : DiscoveryInputs Url)
    (reply : Url → Option (List Text)) (candidates : List Url) : Option (List Url) :=
  unite (candidateReplies inputs reply candidates)

/-- A node that some reply lists, by its host and effective port, lists only nodes of
that reply, if it replies at all. -/
def RepliesAgree (inputs : DiscoveryInputs Url) (reply : Url → Option (List Text)) : Prop :=
  ∀ candidate addresses, reply candidate = some addresses →
    ∀ node addresses', inputs.library.nodeIsInList node (inputs.nodesOf addresses) = true →
      reply node = some addresses' → inputs.nodesOf addresses' ⊆ inputs.nodesOf addresses

section Skipping

/-- A query of one node in any environment. -/
theorem DiscoveryInputs.fetchLiveNodes_run {σ : Type}
    (respond : σ → (action : RefreshAction Url) → action.Reply × σ)
    (operation : DiscoveryOperation) (node : Url) (s : σ) :
    (inputs.fetchLiveNodes operation node).run respond s =
      (Option.map inputs.nodesOf (respond s (.getLiveNodes operation node)).1,
        (respond s (.getLiveNodes operation node)).2) := rfl

variable {reply : Url → Option (List Text)} {candidates newNodes : List Url} {candidate : Url}

theorem candidateReplies_cons_of_some {addresses : List Text}
    (replied : reply candidate = some addresses) :
    candidateReplies inputs reply (candidate :: candidates) =
      inputs.nodesOf addresses :: candidateReplies inputs reply candidates := by
  simp [candidateReplies, replied]

theorem candidateReplies_cons_of_none (failed : reply candidate = none) :
    candidateReplies inputs reply (candidate :: candidates) =
      candidateReplies inputs reply candidates := by
  simp [candidateReplies, failed]

theorem candidateReplies_perm {candidates' : List Url} (perm : candidates.Perm candidates') :
    (candidateReplies inputs reply candidates).Perm (candidateReplies inputs reply candidates') :=
  perm.filterMap _

/-- The nodes collected so far are whole replies. -/
def Collected (inputs : DiscoveryInputs Url) (reply : Url → Option (List Text))
    (newNodes : List Url) : Prop :=
  ∀ node ∈ newNodes, ∃ candidate addresses, reply candidate = some addresses ∧
    node ∈ inputs.nodesOf addresses ∧ inputs.nodesOf addresses ⊆ newNodes

/-- A candidate that has been listed would add nothing. -/
theorem Collected.skip (collected : Collected inputs reply newNodes)
    (agree : RepliesAgree inputs reply)
    (listed : inputs.library.nodeIsInList candidate newNodes = true) {addresses : List Text}
    (replied : reply candidate = some addresses) : inputs.nodesOf addresses ⊆ newNodes := by
  obtain ⟨known, member, same⟩ := List.any_eq_true.mp listed
  obtain ⟨lister, listing, replied', within, whole⟩ := collected known member
  have listedThere : inputs.library.nodeIsInList candidate (inputs.nodesOf listing) = true :=
    List.any_eq_true.mpr ⟨known, within, same⟩
  exact List.Subset.trans (agree lister listing replied' candidate addresses listedThere replied)
    whole

variable [LinearOrder Url]

theorem Collected.add (collected : Collected inputs reply newNodes) {addresses : List Text}
    (replied : reply candidate = some addresses) :
    Collected inputs reply (sortDedup (newNodes ++ inputs.nodesOf addresses)) := by
  intro node member
  rw [mem_sortDedup, List.mem_append] at member
  obtain earlier | new := member
  · obtain ⟨lister, listing, replied', within, whole⟩ := collected node earlier
    refine ⟨lister, listing, replied', within, fun x listed => ?_⟩
    exact mem_sortDedup.mpr (List.mem_append_left _ (whole listed))
  · refine ⟨candidate, addresses, replied, new, fun x listed => ?_⟩
    exact mem_sortDedup.mpr (List.mem_append_right _ listed)

theorem queryEveryCandidate_perm {candidates' : List Url} (perm : candidates.Perm candidates') :
    queryEveryCandidate inputs reply candidates = queryEveryCandidate inputs reply candidates' := by
  have replies : (candidateReplies inputs reply candidates).Perm
      (candidateReplies inputs reply candidates') := candidateReplies_perm perm
  have united : sortDedup (candidateReplies inputs reply candidates).flatten =
      sortDedup (candidateReplies inputs reply candidates').flatten :=
    sortDedup_congr fun x => replies.flatten.mem_iff
  simp only [queryEveryCandidate, unite, replies.isEmpty_eq, united]

namespace NodeView

variable {σ : Type} {respond : σ → (action : RefreshAction Url) → action.Reply × σ}

/-- The loop unites the replies of the remaining candidates with what it has collected.
The induction carries that the collected nodes are whole replies. -/
theorem run_discoverClusterLoop_eq (agree : RepliesAgree inputs reply)
    (replies : ∀ s node, (respond s (.getLiveNodes .cluster node)).1 = reply node)
    (generation : Nat) (gotResponse : Bool) (s : σ) (collected : Collected inputs reply newNodes)
    (answered : newNodes ≠ [] → gotResponse = true) :
    ((discoverClusterLoop inputs generation candidates newNodes gotResponse).run respond s).1 =
      if gotResponse = true ∨ candidateReplies inputs reply candidates ≠ [] then
        some (sortDedup (newNodes ++ (candidateReplies inputs reply candidates).flatten))
      else none := by
  induction candidates generalizing newNodes gotResponse s with
  | nil => simp [discoverClusterLoop, candidateReplies]
  | cons nodeAddr candidates ih =>
      rw [discoverClusterLoop]
      by_cases listed : inputs.library.nodeIsInList nodeAddr newNodes = true
      · -- The candidate is skipped, after some reply has listed it.
        rw [if_pos listed, ih gotResponse s collected answered]
        have got : gotResponse = true := by
          apply answered
          rintro rfl
          cases listed
        cases replied : reply nodeAddr with
        | none => rw [candidateReplies_cons_of_none replied]
        | some addresses =>
            have lost := collected.skip agree listed replied
            rw [candidateReplies_cons_of_some replied, if_pos (.inl got), if_pos (.inl got)]
            congr 1
            refine sortDedup_congr fun x => ?_
            simp only [List.flatten_cons, List.mem_append]
            constructor
            · exact Or.imp_right .inr
            · rintro (present | skipped | later)
              · exact .inl present
              · exact .inl (lost skipped)
              · exact .inr later
      · rw [if_neg listed]
        simp only [Program.run_bind, DiscoveryInputs.fetchLiveNodes_run, replies]
        generalize (respond s (.getLiveNodes .cluster nodeAddr)).2 = s'
        cases replied : reply nodeAddr with
        | none =>
            rw [candidateReplies_cons_of_none replied]
            exact ih gotResponse _ collected answered
        | some addresses =>
            have united (s' : σ) :
                ((discoverClusterLoop inputs generation candidates
                  (sortDedup (newNodes ++ inputs.nodesOf addresses)) true).run respond s').1 =
                some (sortDedup (newNodes ++
                  (candidateReplies inputs reply (nodeAddr :: candidates)).flatten)) := by
              rw [ih true s' (collected.add replied) (fun _ => rfl), if_pos (.inl rfl),
                candidateReplies_cons_of_some replied]
              congr 1
              refine sortDedup_congr fun x => ?_
              simp only [List.flatten_cons, List.mem_append, mem_sortDedup, or_assoc]
            rw [if_pos (.inr (by simp [candidateReplies_cons_of_some replied])), Option.map_some]
            dsimp only
            split
            · rw [Program.run_bind]
              exact united _
            · exact united s'

end NodeView

/-- Skipping listed nodes loses nothing. Where the nodes of a reply agree with it, a pass
over any candidates returns what querying every one of them would, so the order in which
they are shuffled does not matter. -/
theorem skipping_listed_nodes_loses_nothing {σ : Type}
    {respond : σ → (action : RefreshAction Url) → action.Reply × σ}
    (agree : RepliesAgree inputs reply)
    (replies : ∀ s node, (respond s (.getLiveNodes .cluster node)).1 = reply node)
    (generation : Nat) (candidates : List Url) (s : σ) :
    ((NodeView.discoverClusterLoop inputs generation candidates [] false).run respond s).1 =
      queryEveryCandidate inputs reply candidates ∧
    (queryEveryCandidate inputs reply candidates = none ↔
      ∀ candidate ∈ candidates, reply candidate = none) ∧
    (∀ nodes, queryEveryCandidate inputs reply candidates = some nodes →
      nodes.Pairwise (· < ·) ∧ ∀ node, node ∈ nodes ↔ ∃ candidate ∈ candidates, ∃ addresses,
        reply candidate = some addresses ∧ node ∈ inputs.nodesOf addresses) ∧
    ∀ shuffled s', shuffled.Perm candidates →
      ((NodeView.discoverClusterLoop inputs generation shuffled [] false).run respond s').1 =
        ((NodeView.discoverClusterLoop inputs generation candidates [] false).run respond s).1 := by
  have plain (candidates : List Url) (s : σ) :
      ((NodeView.discoverClusterLoop inputs generation candidates [] false).run respond s).1 =
        queryEveryCandidate inputs reply candidates := by
    rw [NodeView.run_discoverClusterLoop_eq agree replies generation false s
      (fun _ member => absurd member List.not_mem_nil) (fun populated => absurd rfl populated)]
    simp only [queryEveryCandidate, unite, List.nil_append, Bool.false_eq_true, false_or,
      List.isEmpty_iff, ite_not]
  refine ⟨plain candidates s, ?_, ?_, ?_⟩
  · simp [queryEveryCandidate, unite, candidateReplies]
  · intro nodes united
    simp only [queryEveryCandidate, unite] at united
    split at united
    · cases united
    · cases united
      refine ⟨pairwise_sortDedup _, fun node => ?_⟩
      simp [candidateReplies, List.mem_flatten, and_assoc]
  · intro shuffled s' perm
    rw [plain, plain, queryEveryCandidate_perm perm]

end Skipping

namespace TwoDatacenters

def discovery : DiscoveryInputs PlainUrl := ⟨PlainUrl.library, [], "http".toList, none⟩

/-- The nodes `a` and `b` are in one datacenter, where `b` knows only itself, and `d` is in
another. -/
def reply (node : PlainUrl) : Option (List Text) :=
  if node.host = ['a'] then some [['b'], ['a']]
  else if node.host = ['b'] then some [['b']]
  else if node.host = ['d'] then some [['d']]
  else none

def oracle : Oracle PlainUrl := ⟨id, fun _ node => reply node⟩

/-- The network that replies so at all times. -/
def network (view : NodeView PlainUrl) (action : RefreshAction PlainUrl) :
    action.Reply × NodeView PlainUrl :=
  view.respond oracle action

def hosts : List PlainUrl := [['d'], ['c'], ['a'], ['b']].map PlainUrl.node

theorem repliesAgree : RepliesAgree discovery reply := by
  intro candidate addresses replied node addresses' listed replied'
  obtain ⟨known, member, same⟩ := List.any_eq_true.mp listed
  have sameHost : known.host = node.host :=
    Option.some.inj (eq_of_beq (Bool.and_eq_true_iff.mp same).1)
  have sameReply : reply node = reply known := by rw [reply, reply, sameHost]
  have agree : ∀ addresses ∈ [[['b'], ['a']], [['b']], [['d']]],
      ∀ known ∈ discovery.nodesOf addresses, (reply known).all
        (fun addresses' => discovery.nodesOf addresses' ⊆ discovery.nodesOf addresses) = true := by
    decide
  have possible : addresses ∈ [[['b'], ['a']], [['b']], [['d']]] := by
    simp only [reply] at replied
    split at replied
    · cases replied
      decide
    · split at replied
      · cases replied
        decide
      · split at replied <;> cases replied
        decide
  have within := agree addresses possible known member
  rw [← sameReply, replied'] at within
  simpa using within

theorem skipping_listed_nodes_loses_nothing_twoDatacenters :
    ((NodeView.discoverClusterLoop discovery 1 hosts [] false).run network
      (.new .fromCluster [])).1 = some ([['a'], ['b'], ['d']].map PlainUrl.node) := by
  obtain ⟨plain, -⟩ := @skipping_listed_nodes_loses_nothing PlainUrl discovery reply _ _ network
    repliesAgree (fun _ _ => rfl) 1 hosts (.new .fromCluster [])
  rw [plain]
  decide

end TwoDatacenters

end AlternatorDriver
