import AlternatorDriver.Foundation.Machine
import AlternatorDriver.LiveNodes.NodeView

/-!
# An older refresh never overwrites a newer one

Any number of refreshes share one `NodeView`. Each holds the generation its
`begin_refresh` returned, publishes any number of partial and complete lists, and may
stop at any point. The watermark `latest_published_generation` alone decides which of
the publications take effect.

A refresh of the source publishes at most one complete list. The machine does not insist
on that, so its runs include all of theirs.
-/

namespace AlternatorDriver

open Function Foundation

/-- A view and the refreshes that are going on, each with the generation it holds. -/
structure Refreshes (Url : Type) where
  view : NodeView Url
  generation : Nat → Option Nat

namespace Refreshes

variable {Url : Type} [LinearOrder Url]

inductive Event (Url : Type) where
  | begin (refresh : Nat)
  | publishPartial (refresh : Nat) (discovered : List Url)
  | publish (refresh : Nat) (newNodes : List Url)
  | stop (refresh : Nat)

/-- The generation of the publication that an event attempts. -/
def attempt (s : Refreshes Url) : Event Url → Option Nat
  | .publishPartial r _ | .publish r _ => s.generation r
  | .begin _ | .stop _ => none

/-- The event attempts a publication of this generation, and it takes effect. -/
def TakesEffect (s : Refreshes Url) (e : Event Url) (g : Nat) : Prop :=
  s.attempt e = some g ∧ s.view.accepts g = true

/-- The event attempts a publication whose generation is below the watermark. -/
def rejected (s : Refreshes Url) (e : Event Url) : Bool :=
  (s.attempt e).any fun g => !s.view.accepts g

def enabled (s : Refreshes Url) : Event Url → Prop
  | .begin r => s.generation r = none
  | .publishPartial r _ | .publish r _ | .stop r => s.generation r ≠ none

def next (s : Refreshes Url) : Event Url → Refreshes Url
  | .begin r =>
      match s.view.beginRefresh with
      | some (g, view) => ⟨view, update s.generation r (some g)⟩
      | none => s
  | .publishPartial r discovered =>
      match s.generation r with
      | some g => { s with view := s.view.publishPartialClusterLiveNodes g discovered }
      | none => s
  | .publish r newNodes =>
      match s.generation r with
      | some g => { s with view := s.view.publishLiveNodes g newNodes }
      | none => s
  | .stop r => { s with generation := update s.generation r none }

/-- The generation that the event hands out. -/
def handsOut (s : Refreshes Url) : Event Url → Option Nat
  | .begin _ => s.view.beginRefresh.map (·.1)
  | _ => none

instance (s : Refreshes Url) (e : Event Url) : Decidable (s.enabled e) := by
  cases e <;> simp only [enabled] <;> infer_instance

def machine : Machine (Refreshes Url) (Event Url) where
  init s := ∃ scope nodes, s = ⟨.new scope nodes, fun _ => none⟩
  enabled := enabled
  next := next

instance (s : Refreshes Url) (e : Event Url) : Decidable (machine.enabled s e) :=
  inferInstanceAs (Decidable (s.enabled e))

/-- The two generations of the view, with the refreshes below them. -/
structure Ordered (s : Refreshes Url) : Prop where
  latest_le : s.view.refreshState.latestPublishedGeneration ≤ s.view.refreshState.nextGeneration
  generation_le : ∀ r g, s.generation r = some g → g ≤ s.view.refreshState.nextGeneration
  distinct : ∀ r r' g, s.generation r = some g → s.generation r' = some g → r = r'

/-- What an event does to the view: nothing, a new generation, or a publication of the
generation that its refresh holds. -/
theorem next_view (s : Refreshes Url) (e : Event Url) :
    (s.next e).view = s.view ∨
    (∃ g view, s.view.beginRefresh = some (g, view) ∧ (s.next e).view = view) ∨
    (∃ g nodes, s.TakesEffect e g ∧ (s.next e).view = { s.view with
      liveNodes := nodes, refreshState := ⟨s.view.refreshState.nextGeneration, g⟩ }) := by
  cases e with
  | begin r =>
      cases started : s.view.beginRefresh with
      | none => exact .inl (by simp [next, started])
      | some begun => exact .inr (.inl ⟨begun.1, begun.2, rfl, by simp [next, started]⟩)
  | stop r => exact .inl rfl
  | publishPartial r discovered =>
      cases held : s.generation r with
      | none => exact .inl (by simp [next, held])
      | some g =>
          by_cases accepted : s.view.accepts g = true
          · refine .inr (.inr ⟨g, sortDedup (s.view.liveNodes ++ discovered), ⟨held, accepted⟩, ?_⟩)
            simp only [next, held, NodeView.publishPartial_of_accepts accepted]
          · have turned := Bool.not_eq_true _ ▸ accepted
            exact .inl (by simp only [next, held, NodeView.publishPartial_of_rejected turned])
  | publish r newNodes =>
      cases held : s.generation r with
      | none => exact .inl (by simp [next, held])
      | some g =>
          by_cases accepted : s.view.accepts g = true
          · refine .inr (.inr ⟨g, newNodes, ⟨held, accepted⟩, ?_⟩)
            simp only [next, held, NodeView.publishLiveNodes_of_accepts accepted]
          · have turned := Bool.not_eq_true _ ▸ accepted
            exact .inl (by simp only [next, held, NodeView.publishLiveNodes_of_rejected turned])

/-- Neither generation ever moves back. -/
theorem Ordered.mono {s : Refreshes Url} (e : Event Url) :
    s.view.refreshState.nextGeneration ≤ (s.next e).view.refreshState.nextGeneration ∧
      s.view.refreshState.latestPublishedGeneration ≤
        (s.next e).view.refreshState.latestPublishedGeneration := by
  rcases next_view s e with same | ⟨g, view, begun, after⟩ | ⟨g, nodes, effective, after⟩
  · rw [same]
    exact ⟨Nat.le_refl _, Nat.le_refl _⟩
  · obtain ⟨rfl, rfl⟩ := NodeView.beginRefresh_eq begun
    rw [after]
    exact ⟨Nat.le_succ _, Nat.le_refl _⟩
  · rw [after]
    exact ⟨Nat.le_refl _, (NodeView.accepts_iff ..).mp effective.2⟩

/-- A refresh holds its generation until it stops; only `begin` hands out a new one. -/
theorem generation_next {s : Refreshes Url} {e : Event Url} {r g : Nat}
    (held : (s.next e).generation r = some g) :
    s.generation r = some g ∨ (e = .begin r ∧ ∃ view, s.view.beginRefresh = some (g, view)) := by
  cases e with
  | begin r' =>
      cases begun : s.view.beginRefresh with
      | none => exact .inl (by simpa [next, begun] using held)
      | some result =>
          simp only [next, begun] at held
          by_cases same : r = r'
          · rw [same, update_self] at held
            cases held
            exact .inr ⟨by rw [same], result.2, rfl⟩
          · exact .inl (by simpa only [update_of_ne same] using held)
  | stop r' =>
      by_cases same : r = r'
      · simp [next, same] at held
      · exact .inl (by simpa only [next, update_of_ne same] using held)
  | publishPartial r' discovered =>
      left
      simp only [next] at held
      split at held <;> exact held
  | publish r' newNodes =>
      left
      simp only [next] at held
      split at held <;> exact held

theorem Ordered.next {s : Refreshes Url} (ordered : s.Ordered) (e : Event Url) :
    (s.next e).Ordered := by
  obtain ⟨nextMono, -⟩ := Ordered.mono (s := s) e
  have below : ∀ r g, (s.next e).generation r = some g →
      g ≤ (s.next e).view.refreshState.nextGeneration := by
    intro r g held
    rcases generation_next held with held | ⟨rfl, view, begun⟩
    · exact Nat.le_trans (ordered.generation_le r g held) nextMono
    · obtain ⟨-, rfl⟩ := NodeView.beginRefresh_eq begun
      simp [Refreshes.next, begun]
  have isNew : ∀ {r g view}, s.view.beginRefresh = some (g, view) → s.generation r ≠ some g := by
    intro r g view begun held
    have old := ordered.generation_le r g held
    obtain ⟨rfl, -⟩ := NodeView.beginRefresh_eq begun
    omega
  refine ⟨?_, below, ?_⟩
  · have latest := ordered.latest_le
    rcases next_view s e with same | ⟨g, view, begun, after⟩ | ⟨g, nodes, effective, after⟩
    · rw [same]
      exact latest
    · obtain ⟨rfl, rfl⟩ := NodeView.beginRefresh_eq begun
      rw [after]
      exact Nat.le_succ_of_le latest
    · rw [after]
      -- An attempt carries the generation of its refresh.
      cases e with
      | publishPartial r _ => exact ordered.generation_le r g effective.1
      | publish r _ => exact ordered.generation_le r g effective.1
      | begin r => exact absurd effective.1 (by simp [attempt])
      | stop r => exact absurd effective.1 (by simp [attempt])
  · intro r r' g hr hr'
    rcases generation_next hr with old | ⟨rfl, view, begun⟩ <;>
      rcases generation_next hr' with old' | ⟨same, view', begun'⟩
    · exact ordered.distinct r r' g old old'
    · exact absurd old (isNew begun')
    · exact absurd old' (isNew begun)
    · cases same
      rfl

theorem ordered_of_reachable {s : Refreshes Url} (h : machine.Reachable s) : s.Ordered := by
  refine h.invariant ?_ (fun s e ordered _ => ordered.next e)
  rintro s ⟨scope, nodes, rfl⟩
  exact ⟨Nat.le_refl _, by simp, by simp⟩

/-- A rejected attempt changes nothing. -/
theorem next_of_rejected (s : Refreshes Url) (e : Event Url) (turned : s.rejected e = true) :
    s.next e = s := by
  cases e with
  | begin r => cases turned
  | stop r => cases turned
  | publishPartial r discovered =>
      cases held : s.generation r with
      | none => simp [next, held]
      | some g =>
          have below : s.view.accepts g = false := by
            simpa [rejected, attempt, held] using turned
          simp only [next, held, NodeView.publishPartial_of_rejected below]
  | publish r newNodes =>
      cases held : s.generation r with
      | none => simp [next, held]
      | some g =>
          have below : s.view.accepts g = false := by
            simpa [rejected, attempt, held] using turned
          simp only [next, held, NodeView.publishLiveNodes_of_rejected below]

theorem next_publish {s : Refreshes Url} {r g : Nat} {newNodes : List Url}
    (effective : s.TakesEffect (.publish r newNodes) g) :
    (s.next (.publish r newNodes)).view.liveNodes = newNodes ∧
      (s.next (.publish r newNodes)).view.refreshState.latestPublishedGeneration = g := by
  have held : s.generation r = some g := effective.1
  simp [next, held, NodeView.publishLiveNodes_of_accepts effective.2]

/-- Nothing but an effective publication of this generation or a newer one ends the
membership that a publication of this generation left. -/
theorem published_preserved {s : Refreshes Url} {g : Nat} {nodes : List Url}
    {events : List (Event Url)}
    (run : (machine.restrict fun s e => ∀ g' ≥ g, ¬ s.TakesEffect e g').Admits s events)
    (published : s.view.liveNodes = nodes ∧ s.view.refreshState.latestPublishedGeneration = g) :
    (machine.exec s events).view.liveNodes = nodes := by
  have kept := run.preserves
    (I := fun s => s.view.liveNodes = nodes ∧
      s.view.refreshState.latestPublishedGeneration = g) ?_ published
  · exact kept.1
  · rintro s e ⟨stays, watermark⟩ ⟨-, quiet⟩
    change (s.next e).view.liveNodes = nodes ∧
      (s.next e).view.refreshState.latestPublishedGeneration = g
    rcases next_view s e with same | ⟨g', view, begun, after⟩ | ⟨g', nodes', effective, after⟩
    · rw [same]
      exact ⟨stays, watermark⟩
    · obtain ⟨-, rfl⟩ := NodeView.beginRefresh_eq begun
      rw [after]
      exact ⟨stays, watermark⟩
    · have newer := (NodeView.accepts_iff ..).mp effective.2
      rw [watermark] at newer
      exact absurd effective (quiet g' newer)

/-- The watermark passes a generation only through an effective publication of a newer
one: refreshes that published nothing do not move it. -/
theorem effective_of_watermark {start : Refreshes Url} {events : List (Event Url)} {g : Nat}
    (run : machine.Admits start events)
    (below : start.view.refreshState.latestPublishedGeneration ≤ g)
    (passed : g < (machine.exec start events).view.refreshState.latestPublishedGeneration) :
    ∃ before e after g', events = before ++ e :: after ∧
      (machine.exec start before).TakesEffect e g' ∧ g < g' := by
  obtain ⟨before, e, after, split, -, -, notYet, now⟩ := run.exists_change
    (P := fun s => g < s.view.refreshState.latestPublishedGeneration) (Nat.not_lt.mpr below) passed
  refine ⟨before, e, after, ?_⟩
  change g < ((machine.exec start before).next e).view.refreshState.latestPublishedGeneration at now
  rcases next_view (machine.exec start before) e with
    same | ⟨g', view, begun, changed⟩ | ⟨g', nodes, effective, changed⟩
  · rw [same] at now
    exact absurd now notYet
  · obtain ⟨-, rfl⟩ := NodeView.beginRefresh_eq begun
    rw [changed] at now
    exact absurd now notYet
  · rw [changed] at now
    exact ⟨g', split, effective, now⟩

theorem handsOut_fresh (s : Refreshes Url) (e : Event Url) (g : Nat)
    (handed : s.handsOut e = some g) :
    s.view.refreshState.nextGeneration < g ∧
      g ≤ (machine.next s e).view.refreshState.nextGeneration := by
  cases e with
  | begin r =>
      obtain ⟨⟨g', view⟩, begun, rfl⟩ := Option.map_eq_some_iff.mp handed
      obtain ⟨rfl, rfl⟩ := NodeView.beginRefresh_eq begun
      refine ⟨Nat.lt_succ_self _, ?_⟩
      simp [machine, next, begun]
  | _ => cases handed

theorem latest_le_exec {start : Refreshes Url} (events : List (Event Url)) :
    start.view.refreshState.latestPublishedGeneration ≤
      (machine.exec start events).view.refreshState.latestPublishedGeneration := by
  induction events generalizing start with
  | nil => exact Nat.le_refl _
  | cons e events ih => exact Nat.le_trans (Ordered.mono e).2 ih

/-- An older refresh never overwrites a newer one. Over every interleaving the generations
handed out increase and the watermark stays among them; a complete list stays until a
publication of its generation or a newer one takes effect; the rejected attempts could
as well not have been made; and each rejection is due to a newer refresh that has
published. -/
theorem older_refresh_never_overwrites {start : Refreshes Url} {events : List (Event Url)}
    (initial : machine.init start) (run : machine.Admits start events) :
    let s := machine.exec start events
    let pruned := machine.dropIdle rejected start
    (machine.outputs handsOut start events).Pairwise (· < ·) ∧
    (∀ r r' g, s.generation r = some g → s.generation r' = some g → r = r') ∧
    s.view.refreshState.latestPublishedGeneration ≤ s.view.refreshState.nextGeneration ∧
    (∀ before after, events = before ++ after →
      (machine.exec start before).view.refreshState.latestPublishedGeneration ≤
        s.view.refreshState.latestPublishedGeneration) ∧
    (∀ before r g nodes after, events = before ++ .publish r nodes :: after →
      (machine.exec start before).TakesEffect (.publish r nodes) g →
      (∀ mid e rest, after = mid ++ e :: rest → ∀ g' ≥ g,
        ¬ (machine.exec start (before ++ .publish r nodes :: mid)).TakesEffect e g') →
      s.view.liveNodes = nodes) ∧
    (machine.Admits start (pruned events) ∧ ∀ before after, events = before ++ after →
      ∃ rest, pruned events = pruned before ++ rest ∧
        machine.exec start (pruned before) = machine.exec start before) ∧
    ∀ e g, s.attempt e = some g → s.rejected e = true →
      ∃ before e' after g', events = before ++ e' :: after ∧
        (machine.exec start before).TakesEffect e' g' ∧ g < g' := by
  have ordered : (machine.exec start events).Ordered :=
    ordered_of_reachable ((Machine.Reachable.init initial).run run)
  refine ⟨?_, ordered.distinct, ordered.latest_le, ?_, ?_, ⟨?_, ?_⟩, ?_⟩
  · exact (Machine.outputs_increasing (b := fun s => s.view.refreshState.nextGeneration)
      (fun s e => (Ordered.mono e).1) handsOut_fresh start events).1
  · rintro before after rfl
    rw [Machine.exec_append]
    exact latest_le_exec after
  · rintro before r g nodes after rfl effective quiet
    have rest := ((Machine.admits_append ..).mp run).2
    rw [Machine.exec_append, Machine.exec_cons]
    refine published_preserved (g := g) (rest.2.restrict ?_) ?_
    · intro mid e tail split g' newer
      have := quiet mid e tail split g' newer
      rwa [Machine.exec_append, Machine.exec_cons] at this
    · exact next_publish effective
  · exact run.dropIdle next_of_rejected
  · rintro before after rfl
    exact ⟨_, Machine.dropIdle_append .., Machine.exec_dropIdle next_of_rejected ..⟩
  · intro e g attempted turned
    refine effective_of_watermark run ?_ ?_
    · obtain ⟨scope, nodes, rfl⟩ := initial
      exact Nat.zero_le g
    · have below := turned
      simp only [rejected, attempted, Option.any_some, Bool.not_eq_true'] at below
      have notLe : ¬ _ ≤ g := fun le => by
        rw [(NodeView.accepts_iff ..).mpr le] at below
        cases below
      exact Nat.lt_of_not_le notLe

/-- Two refreshes, the newer of which publishes first and the older one too late. -/
def overtakenRefresh : List (Event Nat) :=
  [.begin 0, .begin 1, .publishPartial 0 [1], .publish 1 [2], .publish 0 [3]]

theorem older_refresh_never_overwrites_overtakenRefresh :
    (machine.exec ⟨.new .fromCluster [0], fun _ => none⟩ overtakenRefresh).view.liveNodes = [2] := by
  obtain ⟨-, -, -, -, stays, -⟩ := @older_refresh_never_overwrites Nat _
    ⟨.new .fromCluster [0], fun _ => none⟩ overtakenRefresh ⟨_, _, rfl⟩ (by decide)
  refine stays [.begin 0, .begin 1, .publishPartial 0 [1]] 1 2 [2] [.publish 0 [3]] rfl
    ⟨by decide, by decide⟩ ?_
  intro mid e rest split g newer effective
  cases mid with
  | nil =>
      cases split
      have older : some 1 = some g := effective.1
      cases older
      omega
  | cons _ mid => simp at split

end Refreshes

end AlternatorDriver
