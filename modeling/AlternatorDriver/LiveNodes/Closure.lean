import AlternatorDriver.LiveNodes.Replacement

/-!
# Background discovery after its registry is closed

A closed registry admits no task, and the wrapper of a task sees the cancelled token before
it polls the future. So the tracked tasks can only end, and once none is left the views stay
as they are. A registration that is left then belongs to a call that is still in progress.
-/

namespace AlternatorDriver

open Function Foundation

/-- What the registry spawns: a discovery loop, the recheck of an owner, or a refresh of the
affinity view. -/
inductive DiscoveryTask where
  | loop (l : Nat)
  | recheck (r : Nat)
  | affinity (a : Nat)
  deriving DecidableEq

namespace DiscoveryManager

variable {Url : Type}

/-- The admitted future of a loop is being destroyed. A future that was not admitted is
destroyed by the call that holds the lock. -/
def Leaving (s : DiscoveryManager Url) (l : Nat) : Prop :=
  ((s.loops l).pc = .dropStop ∨ (s.loops l).pc = .dropClear) ∧
    s.critical ≠ some (.start l (.destroyed none))

/-- The future of the task was admitted and is not destroyed yet. -/
def Tracks (s : DiscoveryManager Url) : DiscoveryTask → Prop
  | .loop l => (s.loops l).pc.alive = true ∨ s.Leaving l
  | .recheck r =>
      (∃ owner deadline, (s.calls r).kind = .recheck owner deadline) ∧
        (s.calls r).pc ≠ .idle ∧ (s.calls r).pc ≠ .returned
  | .affinity a => (s.affinities a).pc = .refresh

/-- `TaskTracker::wait` completes when the tracker is closed and has no task. -/
def Drained (s : DiscoveryManager Url) : Prop := ∀ task, ¬ s.Tracks task

/-- No call of `ensure_discovery_started` is in progress. -/
def Quiescent (s : DiscoveryManager Url) : Prop :=
  ∀ c, (s.calls c).pc = .idle ∨ (s.calls c).pc = .returned

/-- The task whose future the event starts to poll. -/
def Event.polls : Event Url → Option DiscoveryTask
  | .poll l => some (.loop l)
  | .wake c _ _ => some (.recheck c)
  | .pollAffinity a => some (.affinity a)
  | _ => none

variable [LinearOrder Url] {config : ManagerConfig Url} {s : DiscoveryManager Url} {e : Event Url}

section Registry

/-- Only `stop` writes the registry. -/
theorem next_tasks (guard : s.enabled e) : s.tasks.Step (s.next config e).tasks := by
  cases @next_sharedChange _ s _ config e with
  | cancels => exact .cancel guard
  | closes => exact .close guard
  | _ =>
      rename_i set
      exact .of_eq (congrArg Shared.tasks set)

theorem wellFormed_of_reachable (reachable : (machine config).Reachable s) :
    s.tasks.WellFormed := by
  refine reachable.invariant (I := fun s => s.tasks.WellFormed) ?_ fun s e h guard =>
    h.step (next_tasks guard)
  rintro s ⟨ordinary, now, rfl⟩
  exact DiscoveryTasks.wellFormed_default

end Registry

section Tasks

omit [LinearOrder Url] in
/-- A task whose token is cancelled is not polled again. -/
theorem polls_of_stopped (stopped : s.tasks.stopped = true) (guard : s.enabled e) :
    e.polls = none := by
  cases e with
  | poll l => simp [enabled, loopDoomed, stopped] at guard
  | wake c owner deadline => simp [enabled, recheckDoomed, stopped] at guard
  | pollAffinity a => simp [enabled, affinityDoomed, stopped] at guard
  | _ => rfl

omit [LinearOrder Url] in
theorem not_admits_of_closed (closed : s.tasks.closed = true) : s.tasks.admits = false := by
  simp [DiscoveryTasks.admits, DiscoveryTasks.isStopped, closed]

section Loops

variable {l : Nat}

/-- No loop starts to run. -/
theorem alive_of_next (orderly : s.Orderly) (closed : s.tasks.closed = true)
    (guard : s.enabled e) (alive : ((s.next config e).loops l).pc.alive = true) :
    (s.loops l).pc.alive = true := by
  cases @next_loopChange _ s _ config e l with
  | same _ same => exact same ▸ alive
  | aborted _ set =>
      rw [set] at alive
      exact alive
  | spawned pc stage at_ event spawned held set =>
      rw [set] at alive
      cases spawned with
      | rejected | refused => cases alive
      | started admitted => simp [not_admits_of_closed closed] at admitted
  | turns event =>
      subst event
      rw [guard.1]
      rfl
  | refreshes oracle event =>
      subst event
      rw [guard.1]
      rfl
  | goes pc stage goes set =>
      rw [set] at alive
      change pc.alive = true at alive
      obtain before | rfl | ⟨-, rfl⟩ | rfl := goes.before orderly guard
      · exact before
      · exact alive
      · cases alive
      · cases alive

/-- A loop that is being destroyed has run before, unless its future was not admitted. -/
theorem leaving_of_next (orderly : s.Orderly) (closed : s.tasks.closed = true)
    (guard : s.enabled e) (leaving : (s.next config e).Leaving l) :
    (s.loops l).pc.alive = true ∨ s.Leaving l := by
  obtain ⟨here, admitted⟩ := leaving
  have left (here : (s.loops l).pc = .dropStop ∨ (s.loops l).pc = .dropClear) : s.Leaving l := by
    refine ⟨here, fun held => admitted (destroyed_stays guard held ?_)⟩
    obtain here | here := here <;> rw [here] <;> exact nofun
  cases @next_loopChange _ s _ config e l with
  | same _ same => exact .inr (left (same ▸ here))
  | aborted _ set =>
      rw [set] at here
      exact .inr (left here)
  | spawned pc stage at_ event spawned held set =>
      cases spawned with
      | rejected => exact absurd held admitted
      | refused admitted | started admitted => simp [not_admits_of_closed closed] at admitted
  | turns event =>
      subst event
      rw [guard.1]
      exact .inl rfl
  | refreshes oracle event =>
      subst event
      rw [guard.1]
      exact .inl rfl
  | goes pc stage goes set =>
      rw [set] at here
      change pc = _ ∨ pc = _ at here
      obtain before | rfl | ⟨before, -⟩ | rfl := goes.before orderly guard
      · exact .inl before
      · exact .inr (left here)
      · exact .inr (left (.inl before))
      · obtain here | here := here <;> cases here

end Loops

theorem tracksRecheck_of_next {r : Nat} (orderly : s.Orderly) (closed : s.tasks.closed = true)
    (guard : s.enabled e)    (tracked : (s.next config e).Tracks (.recheck r)) : s.Tracks (.recheck r) := by
  obtain ⟨⟨owner, deadline, kind⟩, begun, unreturned⟩ := tracked
  cases @next_callChange _ s e _ config guard r with
  | same _ same =>
      rw [same] at kind begun unreturned
      exact ⟨⟨owner, deadline, kind⟩, begun, unreturned⟩
  | aborted _ set =>
      rw [set] at kind begun unreturned
      exact ⟨⟨owner, deadline, kind⟩, begun, unreturned⟩
  | called kind' runtime event set =>
      subst event
      rw [set] at kind
      obtain same | same := guard.2.2 <;> cases same.symm.trans kind
  | armed c owner' started site event needed admitted =>
      simp [not_admits_of_closed closed] at admitted
  | goes pc goes set =>
      rw [set] at kind
      refine ⟨⟨owner, deadline, kind⟩, ?_⟩
      obtain ⟨awake, -⟩ | ⟨sleeping, -⟩ | ⟨-, kind', runtime, event⟩ :=
        caller_stands orderly guard goes.caller
      · refine ⟨?_, ?_⟩ <;> intro same <;> rw [same] at awake <;> cases awake
      · rw [sleeping]
        exact ⟨nofun, nofun⟩
      · subst event
        cases goes

theorem tracksAffinity_of_next {a : Nat} (closed : s.tasks.closed = true) (guard : s.enabled e)
    (tracked : (s.next config e).Tracks (.affinity a)) : s.Tracks (.affinity a) := by
  have here : ((s.next config e).affinities a).pc = .refresh := tracked
  change (s.affinities a).pc = .refresh
  cases @next_affinityChange _ s _ config e a with
  | same same => exact same ▸ here
  | aborted set | refreshes oracle view event known set =>
      rw [set] at here
      exact here
  | spawned l v candidates view event known admitted =>
      simp [not_admits_of_closed closed] at admitted
  | polled stage event =>
      obtain ⟨rfl, -⟩ | ⟨rfl, -⟩ := event
      · exact guard.1
      · exact guard.1
  | ended event set =>
      rw [set] at here
      cases here

/-- A closed registry tracks no further task. -/
theorem tracks_of_next {task : DiscoveryTask} (orderly : s.Orderly)
    (closed : s.tasks.closed = true) (guard : s.enabled e)
    (tracked : (s.next config e).Tracks task) : s.Tracks task := by
  cases task with
  | loop l =>
      obtain alive | leaving := tracked
      · exact .inl (alive_of_next orderly closed guard alive)
      · exact leaving_of_next orderly closed guard leaving
  | recheck r => exact tracksRecheck_of_next orderly closed guard tracked
  | affinity a => exact tracksAffinity_of_next closed guard tracked

/-- Without a task nobody writes a view. -/
theorem views_of_drained (drained : s.Drained) (guard : s.enabled e) :
    (s.next config e).ordinary = s.ordinary ∧
      ∀ v view, s.views v = some view → (s.next config e).views v = some view := by
  cases @next_sharedChange _ s _ config e with
  | refreshes l oracle =>
      have here : (s.loops l).pc = .refresh := guard.1
      exact absurd (.inl (by rw [here]; rfl)) (drained (.loop l))
  | refreshesView a oracle => exact absurd guard.1 (drained (.affinity a))
  | views v =>
      refine ⟨rfl, fun v' view known => ?_⟩
      have other : v' ≠ v := by
        rintro rfl
        rw [guard.2.2] at known
        cases known
      exact (update_of_ne other _ _).trans known
  | _ =>
      rename_i set
      have views : (s.next config _).views = s.views := congrArg Shared.views set
      refine ⟨congrArg Shared.ordinary set, fun v view known => ?_⟩
      rw [views]
      exact known

omit [LinearOrder Url] in
/-- Without a task and a call there is no registration. -/
theorem Owned.vacant (owned : s.Owned) (drained : s.Drained) (quiescent : s.Quiescent) :
    s.discoveryRuntime = none := by
  have free {c : Nat} {at_ : StartPc} : s.critical ≠ some (.start c at_) := by
    intro holds
    have inside := owned.orderly.inside c at_ holds
    obtain idle | returned := quiescent c
    · rw [inside] at idle
      cases idle
    · rw [inside] at returned
      cases returned
  cases registered : s.discoveryRuntime with
  | none => rfl
  | some owner =>
      obtain live | here | here | ⟨c, at_, holds⟩ := owned.occupied registered
      · exact absurd (.inl live.1) (drained (.loop owner))
      · exact absurd (.inr ⟨.inl here, free⟩) (drained (.loop owner))
      · exact absurd (.inr ⟨.inr here, free⟩) (drained (.loop owner))
      · exact absurd holds free

end Tasks

section Runs

/-- The registry is closed, and no task is left: `DiscoveryTasks::shutdown` can return. -/
structure Joined (s : DiscoveryManager Url) : Prop where
  closed : s.tasks.closed = true
  drained : s.Drained

/-- The views of a manager are those of an earlier state, and maybe new ones. -/
structure SameViews (s s' : DiscoveryManager Url) : Prop where
  ordinary : s'.ordinary = s.ordinary
  views : ∀ v view, s.views v = some view → s'.views v = some view

theorem closed_run {events : List (Event Url)} (run : (machine config).Admits s events)
    (closed : s.tasks.closed = true) : ((machine config).exec s events).tasks.closed = true :=
  run.preserves (I := fun s => s.tasks.closed = true)
    (fun _ _ closed guard => (next_tasks guard).closed closed) closed

theorem Joined.step (joined : s.Joined) (orderly : s.Orderly) (guard : s.enabled e) :
    (s.next config e).Joined where
  closed := (next_tasks guard).closed joined.closed
  drained task tracked :=
    joined.drained task (tracks_of_next orderly joined.closed guard tracked)

/-- What is joined stays joined, with the views that it has. -/
theorem Joined.run {events : List (Event Url)} (joined : s.Joined)
    (reachable : (machine config).Reachable s) (run : (machine config).Admits s events) :
    ((machine config).exec s events).Joined ∧ s.SameViews ((machine config).exec s events) := by
  refine reachable.relates (R := fun s s' => s.Joined → s'.Joined ∧ s.SameViews s')
    (fun _ joined => ⟨joined, rfl, fun _ _ known => known⟩) ?_ ?_ run joined
  · intro s s' s'' first second joined
    obtain ⟨middle, ordinary, views⟩ := first joined
    obtain ⟨last, ordinary', views'⟩ := second middle
    exact ⟨last, ordinary'.trans ordinary, fun v view known => views' v view (views v view known)⟩
  · intro s e here guard joined
    obtain ⟨ordinary, views⟩ := views_of_drained joined.drained guard
    exact ⟨joined.step (Owned.of_reachable here).orderly guard, ordinary, views⟩

end Runs

end DiscoveryManager

end AlternatorDriver
