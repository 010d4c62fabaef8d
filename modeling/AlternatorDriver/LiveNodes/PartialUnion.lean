import AlternatorDriver.LiveNodes.ClusterPass
import Mathlib.Data.List.ReduceOption

/-!
# The memberships of a cluster pass

Until a cluster pass is complete, it shows the old membership with the nodes found so
far. So the memberships only grow, whatever the candidates reply.
-/

namespace AlternatorDriver

open Foundation

variable {Url : Type} [LinearOrder Url] {inputs : DiscoveryInputs Url} {env : Nat → Oracle Url}

/-- The actions of a refresh, each with the world that it met. -/
abbrev Actions (Url : Type) := List (World Url × RefreshAction Url)

/-- The replies to the queries of an operation among some actions, as nodes. -/
def repliesIn (inputs : DiscoveryInputs Url) (env : Nat → Oracle Url)
    (operation : DiscoveryOperation) (actions : Actions Url) : List (Option (List Url)) :=
  actions.filterMap fun action => match action.2 with
    | .getLiveNodes operation' node =>
        if operation' = operation then
          some (((env action.1.time).getLiveNodes operation' node).map inputs.nodesOf)
        else none
    | _ => none

section Lists

omit [LinearOrder Url]

@[simp] theorem repliesIn_append (operation : DiscoveryOperation) (first second : Actions Url) :
    repliesIn inputs env operation (first ++ second) =
      repliesIn inputs env operation first ++ repliesIn inputs env operation second :=
  List.filterMap_append

/-- The memberships that some actions met. -/
def observed (actions : Actions Url) : List (List Url) := actions.map (·.1.view.liveNodes)

@[simp] theorem observed_nil : observed ([] : Actions Url) = [] := rfl

@[simp] theorem observed_cons (w : World Url) (action : RefreshAction Url) (rest : Actions Url) :
    observed ((w, action) :: rest) = w.view.liveNodes :: observed rest := rfl

@[simp] theorem observed_append (first second : Actions Url) :
    observed (first ++ second) = observed first ++ observed second := List.map_append

end Lists

section Growth

/-! ## Memberships that only grow -/

/-- Memberships that only grow, between `base` and its union with `upper`, and that are
in canonical order once they have changed. -/
structure Grows (base upper start : List Url) (memberships : List (List Url)) : Prop where
  lower : ∀ m ∈ memberships, start ⊆ m
  pairwise : memberships.Pairwise (· ⊆ ·)
  within : ∀ m ∈ memberships, ∀ node ∈ m, node ∈ base ∨ node ∈ upper
  canonical : ∀ m ∈ memberships, m = base ∨ m.Pairwise (· < ·)

variable {base upper upper' start start' : List Url} {memberships : List (List Url)}

theorem Grows.cons (grows : Grows base upper start' memberships) (first : start ⊆ start')
    (within : ∀ node ∈ start, node ∈ base ∨ node ∈ upper)
    (canonical : start = base ∨ start.Pairwise (· < ·)) :
    Grows base upper start (start :: memberships) := by
  have later : ∀ m ∈ memberships, start ⊆ m := fun m member =>
    List.Subset.trans first (grows.lower m member)
  refine ⟨?_, List.pairwise_cons.mpr ⟨later, grows.pairwise⟩, ?_, ?_⟩
  · exact List.forall_mem_cons.mpr ⟨List.Subset.refl _, later⟩
  · exact List.forall_mem_cons.mpr ⟨within, grows.within⟩
  · exact List.forall_mem_cons.mpr ⟨canonical, grows.canonical⟩

theorem Grows.single (within : ∀ node ∈ start, node ∈ base ∨ node ∈ upper)
    (canonical : start = base ∨ start.Pairwise (· < ·)) : Grows base upper start [start] := by
  refine ⟨?_, List.pairwise_singleton _ _, ?_, ?_⟩
  · exact List.forall_mem_singleton.mpr (List.Subset.refl _)
  · exact List.forall_mem_singleton.mpr within
  · exact List.forall_mem_singleton.mpr canonical

theorem Grows.append {earlier : List (List Url)} (grows : Grows base upper base memberships)
    (constant : ∀ m ∈ earlier, m = base) : Grows base upper base (earlier ++ memberships) := by
  induction earlier with
  | nil => exact grows
  | cons m earlier ih =>
      obtain ⟨rfl, rest⟩ := List.forall_mem_cons.mp constant
      exact (ih rest).cons (List.Subset.refl _) (fun _ present => .inl present) (.inl rfl)

theorem Grows.congr (grows : Grows base upper start memberships)
    (same : ∀ node, node ∈ upper → node ∈ upper') : Grows base upper' start memberships :=
  ⟨grows.lower, grows.pairwise, fun m member node present =>
    (grows.within m member node present).imp_right (same node), grows.canonical⟩

/-- Memberships that stay the same grow, to whatever they become at last. -/
theorem Grows.of_constant (constant : ∀ m ∈ memberships, m = base) :
    Grows base upper base memberships := by
  refine ⟨?_, ?_, ?_, ?_⟩
  · intro m member
    rw [constant m member]
    exact List.Subset.refl _
  · refine List.pairwise_iff_forall_sublist.mpr fun {m m'} sublist => ?_
    have both := sublist.subset
    rw [constant m (both (by simp)), constant m' (both (by simp))]
    exact List.Subset.refl _
  · intro m member node present
    exact .inl (constant m member ▸ present)
  · exact fun m member => .inl (constant m member)

end Growth

namespace NodeView

section Pass

/-! ## One cluster pass -/

variable {w : World Url} {generation : Nat} {candidates newNodes base : List Url}

/-- The memberships from a program's first action to its end. -/
def memberships {α : Type} (env : Nat → Oracle Url) (p : Refresh Url α) (w : World Url) :
    List (List Url) :=
  observed (p.trace (World.respond env) w) ++ [(p.run (World.respond env) w).2.view.liveNodes]

/-- What a cluster pass comes to, from what it has collected so far. -/
structure PassSpec (inputs : DiscoveryInputs Url) (env : Nat → Oracle Url) (generation : Nat)
    (base newNodes : List Url) (gotResponse : Bool) (w : World Url)
    (p : Refresh Url (Option (List Url))) (replies : List (List Url)) : Prop where
  replied : replies = (repliesIn inputs env .cluster (p.trace (World.respond env) w)).reduceOption
  returned : (p.run (World.respond env) w).1 =
    if gotResponse = true ∨ replies ≠ [] then some (sortDedup (newNodes ++ replies.flatten))
    else none
  turns : (p.run (World.respond env) w).2.turns = w.turns
  published : (p.run (World.respond env) w).2.published = w.published
  accepted : (p.run (World.respond env) w).2.view.accepts generation = true
  grows : Grows base (newNodes ++ replies.flatten) w.view.liveNodes (memberships env p w)
  quiet : newNodes ++ replies.flatten = [] → (p.run (World.respond env) w).2.view = w.view ∧
    ∀ action ∈ p.trace (World.respond env) w, action.1.view = w.view

section Query

variable {α : Type} {operation : DiscoveryOperation} {node : Url} {addresses : Option (List Text)}
  {k : Option (List Url) → Refresh Url α}

theorem run_query_bind (reply : (env w.time).getLiveNodes operation node = addresses) :
    (inputs.fetchLiveNodes operation node >>= k).run (World.respond env) w =
      (k (addresses.map inputs.nodesOf)).run (World.respond env) { w with time := w.time + 1 } := by
  subst reply
  rfl

theorem trace_query_bind (reply : (env w.time).getLiveNodes operation node = addresses) :
    (inputs.fetchLiveNodes operation node >>= k).trace (World.respond env) w =
      (w, .getLiveNodes operation node) ::
        (k (addresses.map inputs.nodesOf)).trace (World.respond env)
          { w with time := w.time + 1 } := by
  subst reply
  rfl

end Query

/-- One more action before the rest of a pass, which may collect a reply. -/
theorem PassSpec.cons {newNodes' : List Url} {gotResponse gotResponse' : Bool} {w' : World Url}
    {p p' : Refresh Url (Option (List Url))} {replies new : List (List Url)}
    (spec : PassSpec inputs env generation base newNodes' gotResponse' w' p replies)
    (action : RefreshAction Url)
    (trace : p'.trace (World.respond env) w = (w, action) :: p.trace (World.respond env) w')
    (run : p'.run (World.respond env) w = p.run (World.respond env) w')
    (turns : w'.turns = w.turns) (published : w'.published = w.published)
    (replied : (repliesIn inputs env .cluster [(w, action)]).reduceOption = new)
    (got : gotResponse' = true ↔ gotResponse = true ∨ new ≠ [])
    (collected : ∀ node, node ∈ newNodes' ↔ node ∈ newNodes ++ new.flatten)
    (grown : w.view.liveNodes ⊆ w'.view.liveNodes)
    (within : ∀ node ∈ w.view.liveNodes, node ∈ base ∨ node ∈ newNodes)
    (canonical : w.view.liveNodes = base ∨ w.view.liveNodes.Pairwise (· < ·))
    (quiet : newNodes' = [] → w'.view = w.view) :
    PassSpec inputs env generation base newNodes gotResponse w p' (new ++ replies) := by
  have members (node : Url) :
      node ∈ newNodes' ++ replies.flatten ↔ node ∈ newNodes ++ (new ++ replies).flatten := by
    rw [List.flatten_append, ← List.append_assoc, List.mem_append, List.mem_append, collected]
  refine ⟨?_, ?_, ?_, ?_, ?_, ?_, ?_⟩
  · rw [trace, ← List.singleton_append, repliesIn_append, List.reduceOption_append,
      replied, spec.replied]
  · have someone : gotResponse' = true ∨ replies ≠ [] ↔ gotResponse = true ∨ new ++ replies ≠ [] := by
      rw [got, or_assoc, Ne, Ne, Ne, List.append_eq_nil_iff, not_and_or]
    rw [run, spec.returned]
    simp only [someone, sortDedup_congr members]
  · rw [run, spec.turns, turns]
  · rw [run, spec.published, published]
  · rw [run]
    exact spec.accepted
  · have grows := spec.grows.congr fun node member => (members node).mp member
    rw [memberships, trace, run, observed_cons, List.cons_append]
    refine grows.cons grown ?_ canonical
    exact fun node member => (within node member).imp_right fun known => List.mem_append_left _ known
  · intro none
    have none' : newNodes' ++ replies.flatten = [] := by
      simp only [List.eq_nil_iff_forall_not_mem, members] at none ⊢
      exact none
    obtain ⟨after, during⟩ := spec.quiet none'
    have same := quiet (List.append_eq_nil_iff.mp none').1
    rw [run, trace]
    refine ⟨after.trans same, List.forall_mem_cons.mpr ⟨rfl, fun action member => ?_⟩⟩
    exact (during action member).trans same

/-- A pass from any state that has collected some nodes, with any replies. -/
theorem discoverClusterLoop_spec (gotResponse : Bool)
    (accepted : w.view.accepts generation = true) (answered : newNodes ≠ [] → gotResponse = true)
    (within : ∀ node ∈ w.view.liveNodes, node ∈ base ∨ node ∈ newNodes)
    (canonical : w.view.liveNodes = base ∨ w.view.liveNodes.Pairwise (· < ·)) :
    ∃ replies, PassSpec inputs env generation base newNodes gotResponse w
      (discoverClusterLoop inputs generation candidates newNodes gotResponse) replies := by
  induction candidates generalizing newNodes gotResponse w with
  | nil =>
      refine ⟨[], rfl, ?_, rfl, rfl, accepted, ?_, fun _ => ⟨rfl, fun _ absent => nomatch absent⟩⟩
      · simp only [discoverClusterLoop, Program.run_pure, ne_eq, not_true_eq_false, or_false,
          List.flatten_nil, List.append_nil]
      · simp only [List.flatten_nil, List.append_nil]
        exact .single within canonical
  | cons nodeAddr candidates ih =>
      rw [discoverClusterLoop]
      by_cases listed : inputs.library.nodeIsInList nodeAddr newNodes = true
      · rw [if_pos listed]
        exact ih gotResponse accepted answered within canonical
      · rw [if_neg listed]
        cases reply : (env w.time).getLiveNodes .cluster nodeAddr with
        | none =>
            obtain ⟨replies, spec⟩ := @ih { w with time := w.time + 1 } newNodes gotResponse accepted
              answered within canonical
            refine ⟨[] ++ replies,
              spec.cons _ (trace_query_bind reply) (run_query_bind reply) rfl rfl ?_ ?_ ?_ ?_
              within canonical (fun _ => rfl)⟩
            · simp [repliesIn, reply, List.reduceOption]
            · simp
            · simp
            · exact List.Subset.refl _
        | some addresses =>
            have known (node : Url) : node ∈ sortDedup (newNodes ++ inputs.nodesOf addresses) ↔
                node ∈ newNodes ++ [inputs.nodesOf addresses].flatten := by
              rw [mem_sortDedup, List.flatten_singleton]
            have within' : ∀ node ∈ w.view.liveNodes,
                node ∈ base ∨ node ∈ sortDedup (newNodes ++ inputs.nodesOf addresses) :=
              fun node member => (within node member).imp_right fun found =>
                mem_sortDedup.mpr (List.mem_append_left _ found)
            have collects : (repliesIn inputs env .cluster
                [(w, .getLiveNodes .cluster nodeAddr)]).reduceOption =
                [inputs.nodesOf addresses] := by
              simp [repliesIn, reply, List.reduceOption]
            by_cases empty : inputs.nodesOf addresses = []
            · obtain ⟨replies, spec⟩ := @ih { w with time := w.time + 1 }
                (sortDedup (newNodes ++ inputs.nodesOf addresses)) true accepted (fun _ => rfl) within' canonical
              refine ⟨[inputs.nodesOf addresses] ++ replies, spec.cons
                (.getLiveNodes .cluster nodeAddr) ?_ ?_ rfl rfl collects ?_ known ?_
                within canonical (fun _ => rfl)⟩
              · rw [trace_query_bind reply]
                simp [empty]
              · rw [run_query_bind reply]
                simp [empty]
              · simp
              · exact List.Subset.refl _
            · -- The nodes found so far are added to the membership before the pass goes on.
              have stored := @publishPartial_of_accepts _ _ _ _
                (sortDedup (newNodes ++ inputs.nodesOf addresses)) accepted
              obtain ⟨replies, spec⟩ := @ih
                { w with
                  view := w.view.publishPartialClusterLiveNodes generation
                    (sortDedup (newNodes ++ inputs.nodesOf addresses))
                  time := w.time + 1 + 1 }
                (sortDedup (newNodes ++ inputs.nodesOf addresses)) true
                (accepts_publishPartial accepted) (fun _ => rfl)
                (by
                  rw [stored]
                  intro node member
                  rw [mem_sortDedup, List.mem_append] at member
                  exact member.elim (within' node) .inr)
                (by
                  rw [stored]
                  exact .inr (pairwise_sortDedup _))
              have published : PassSpec inputs env generation base
                  (sortDedup (newNodes ++ inputs.nodesOf addresses)) true
                  { w with time := w.time + 1 }
                  (do
                    Refresh.publishPartial generation
                      (sortDedup (newNodes ++ inputs.nodesOf addresses))
                    discoverClusterLoop inputs generation candidates
                      (sortDedup (newNodes ++ inputs.nodesOf addresses)) true)
                  ([] ++ replies) := by
                refine spec.cons (.publishPartial generation
                    (sortDedup (newNodes ++ inputs.nodesOf addresses))) rfl rfl rfl rfl rfl
                  (by simp) (by simp) ?_ within' canonical ?_
                · rw [stored]
                  exact fun node member => mem_sortDedup.mpr (List.mem_append_left _ member)
                · simp [empty]
              refine ⟨[inputs.nodesOf addresses] ++ ([] ++ replies), published.cons
                (.getLiveNodes .cluster nodeAddr) ?_ ?_ rfl rfl collects (by simp) known
                (List.Subset.refl _) within canonical (fun _ => rfl)⟩
              · rw [trace_query_bind reply]
                simp [empty]
              · rw [run_query_bind reply]
                simp [empty]

end Pass

end NodeView

end AlternatorDriver
