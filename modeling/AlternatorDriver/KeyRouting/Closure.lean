import AlternatorDriver.KeyRouting.Exclusive

/-!
# Partition-key discovery after its registry is closed

A closed registry admits no task and polls none again. Once the tasks are gone the cache
stays as it is, and a marker belongs to a call of `trigger_discovery` in progress: one that
had found the registry open, and whose task is going to be rejected.
-/

namespace AlternatorDriver

open Function Foundation

namespace PartitionKeyResolver

/-- The future of the task is on a runtime and not destroyed yet. One that the registry or its
runtime has refused is destroyed by the call. -/
def Tracks (s : PartitionKeyResolver) (i : Nat) : Prop :=
  (s.discoveries i).pc ≠ .absent ∧ (s.discoveries i).pc ≠ .finished

/-- `TaskTracker::wait` completes when the tracker is closed and has no task. -/
def Drained (s : PartitionKeyResolver) : Prop := ∀ i, ¬ s.Tracks i

/-- The task whose future the event starts to poll. -/
def Event.polls : Event → Option Nat
  | .poll i => some i
  | _ => none

variable {s : PartitionKeyResolver} {e : Event} {i : Nat}

section Registry

theorem callNext_tasks (c : Nat) (runtime : Bool) : (s.callNext c runtime).tasks = s.tasks := by
  unfold callNext
  cases s.calls c with
  | claim t | spawn t =>
      dsimp only
      split <;> rfl
  | _ => rfl

theorem taskNext_tasks (reply : DescribeTableResult) (jitteredDelay : Nat) :
    (s.taskNext i reply jitteredDelay).tasks = s.tasks := by
  unfold taskNext
  cases (s.discoveries i).pc <;> rfl

/-- Only `stop` writes the registry. -/
theorem next_tasks (guard : s.enabled e) : s.tasks.Step (s.next e).tasks := by
  cases e with
  | cancel => exact .cancel guard
  | close => exact .close guard
  | call c runtime => exact .of_eq (callNext_tasks c runtime)
  | task i reply jitteredDelay => exact .of_eq (taskNext_tasks reply jitteredDelay)
  | destroy i =>
      refine .of_eq ?_
      simp only [next]
      split <;> rfl
  | _ => exact .same

theorem wellFormed_of_reachable (reachable : machine.Reachable s) : s.tasks.WellFormed := by
  refine reachable.invariant (I := fun s => s.tasks.WellFormed) ?_ fun s e h guard =>
    h.step (next_tasks guard)
  rintro s ⟨pkInfo, now, rfl⟩
  exact DiscoveryTasks.wellFormed_default

end Registry

section Tasks

/-- A task whose token is cancelled is not polled again. -/
theorem polls_of_stopped (stopped : s.tasks.stopped = true) (guard : s.enabled e) :
    e.polls = none := by
  cases e with
  | poll i => simp [enabled, stopped] at guard
  | _ => rfl

theorem tracks_of_suspended (suspended : (s.discoveries i).suspendedTable.isSome) :
    s.Tracks i := by
  constructor
  · exact DiscoverTask.present_of_suspended suspended
  · intro finished
    simp [DiscoverTask.suspendedTable, finished] at suspended

/-- A task that goes on was tracked before. -/
theorem tracks_of_setTask {j : Nat} {task : DiscoverTask} (present : s.Tracks i)
    (tracked : (s.setTask i task).Tracks j) : s.Tracks j := by
  by_cases same : j = i
  · rw [same]
    exact present
  · simpa only [Tracks, setTask, update_of_ne same] using tracked

theorem tracks_of_callNext {c : Nat} {runtime : Bool} (closed : s.tasks.closed = true)
    (tracked : (s.callNext c runtime).Tracks i) : s.Tracks i := by
  unfold callNext at tracked
  cases here : s.calls c with
  | spawn t =>
      simp only [here, DiscoveryTasks.admits, DiscoveryTasks.isStopped, closed, Bool.not_true,
        Bool.false_and, Bool.false_eq_true, if_false] at tracked
      exact tracked
  | claim t =>
      simp only [here] at tracked
      split at tracked <;> exact tracked
  | _ =>
      simp only [here] at tracked
      exact tracked

theorem tracks_of_taskNext {j : Nat} {reply : DescribeTableResult} {jitteredDelay : Nat}
    (tracked : (s.taskNext j reply jitteredDelay).Tracks i) : s.Tracks i := by
  unfold taskNext at tracked
  cases here : (s.discoveries j).pc with
  | absent | finished =>
      simp only [here] at tracked
      exact tracked
  | _ =>
      have present : s.Tracks j := by simp [Tracks, here]
      simp only [here] at tracked
      exact tracks_of_setTask present tracked

/-- A closed registry tracks no further task. -/
theorem tracks_of_next (closed : s.tasks.closed = true) (guard : s.enabled e)
    (tracked : (s.next e).Tracks i) : s.Tracks i := by
  cases e with
  | call c runtime => exact tracks_of_callNext closed tracked
  | task j reply jitteredDelay => exact tracks_of_taskNext tracked
  | poll j => exact tracks_of_setTask (tracks_of_suspended guard.1) tracked
  | park j =>
      refine tracks_of_setTask (i := j) ?_ tracked
      constructor <;> intro ended <;> simp [enabled, DiscoverTask.canPark, ended] at guard
  | destroy j =>
      simp only [next] at tracked
      split at tracked
      · exact tracks_of_setTask (tracks_of_suspended guard) tracked
      · exact tracked
  | _ => exact tracked

end Tasks

section Drained

/-- Without a task nobody writes the cache. -/
theorem cache_of_drained (drained : s.Drained) : (s.next e).cache = s.cache := by
  cases e with
  | call c runtime =>
      simp only [next, callNext]
      cases s.calls c with
      | claim t | spawn t =>
          dsimp only
          split <;> rfl
      | _ => rfl
  | task i reply jitteredDelay =>
      simp only [next, taskNext]
      cases here : (s.discoveries i).pc with
      | insertKey t name => exact absurd (by simp [Tracks, here]) (drained i)
      | _ => rfl
  | destroy i =>
      simp only [next]
      split <;> rfl
  | _ => rfl

/-- Without a task each marker belongs to a call in progress. -/
theorem claiming_of_drained (reachable : machine.Reachable s) (drained : s.Drained) {t : String}
    (marked : s.inProgress t = true) : ∃ c, s.Claiming c t := by
  obtain ⟨holder, owns⟩ := ((Reachable.sound reachable).2.claimed_iff t).mp marked
  cases holder with
  | call c => exact ⟨c, claiming_iff.mpr owns⟩
  | task i =>
      have alive : s.Alive i t := alive_iff.mpr owns
      refine absurd ?_ (drained i)
      constructor <;> intro ended <;> simp [Alive, ended] at alive

end Drained

section Runs

/-- The registry is closed, and no task is left: `DiscoveryTasks::shutdown` can return. -/
structure Joined (s : PartitionKeyResolver) : Prop where
  closed : s.tasks.closed = true
  drained : s.Drained

theorem closed_run {events : List Event} (run : machine.Admits s events)
    (closed : s.tasks.closed = true) : (machine.exec s events).tasks.closed = true :=
  run.preserves (I := fun s => s.tasks.closed = true)
    (fun _ _ closed guard => (next_tasks guard).closed closed) closed

theorem Joined.step (joined : s.Joined) (guard : s.enabled e) : (s.next e).Joined where
  closed := (next_tasks guard).closed joined.closed
  drained i tracked := joined.drained i (tracks_of_next joined.closed guard tracked)

/-- What is joined stays joined, with the cache that it has. -/
theorem Joined.run {events : List Event} (joined : s.Joined) (run : machine.Admits s events) :
    (machine.exec s events).Joined ∧ (machine.exec s events).cache = s.cache := by
  refine run.preserves (I := fun s' => s'.Joined ∧ s'.cache = s.cache) ?_ ⟨joined, rfl⟩
  rintro s' e ⟨joined, same⟩ guard
  exact ⟨joined.step guard, (cache_of_drained joined.drained).trans same⟩

end Runs

end PartitionKeyResolver

end AlternatorDriver
