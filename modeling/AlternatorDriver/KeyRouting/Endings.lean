import AlternatorDriver.Foundation.Progress
import AlternatorDriver.KeyRouting.Closure

/-!
# How the discoveries of a closed registry end

A discovery that is suspended is destroyed, and its cleanup releases the marker of its table.
One that is polled goes on until it next awaits something or ends, whatever the reply was.
-/

namespace AlternatorDriver

open Function Foundation

/-- The statements that a discovery has left until it awaits something or ends. -/
def DiscoverPc.left : DiscoverPc → Nat
  | .absent | .finished => 0
  | .dropCleanup _ => 1
  | .insertKey .. | .insertFailure .. => 2
  | .readClock .. => 3
  | .awaiting .. | .sleeping .. => 4
  | .request .. => 5

def DiscoverTask.rank (task : DiscoverTask) : Nat :=
  2 * task.pc.left + if task.running then 1 else 0

namespace PartitionKeyResolver

/-- Statements of polled tasks that await neither the reply nor a delay, and ends of polls and of
suspended tasks. What the reply and the delay would be is given. -/
def windsUp (reply : DescribeTableResult) (jitteredDelay : Nat) (s : PartitionKeyResolver) :
    Event → Prop
  | .task i met delay => met = reply ∧ delay = jitteredDelay ∧ (s.discoveries i).canPark = false
  | .park _ | .destroy _ => True
  | .trigger .. | .call .. | .poll _ | .tick _ | .cancel | .close => False

variable {s : PartitionKeyResolver} {e : Event} {reply : DescribeTableResult} {jitteredDelay : Nat}

section Invariants

/-- The call or the task that an event brings forward. -/
def Event.subject : Event → Option Nat
  | .trigger c _ | .call c _ => some c
  | .poll i | .park i | .task i .. | .destroy i => some i
  | .tick _ | .cancel | .close => none

theorem discoveries_of_other {i : Nat} (other : e.subject ≠ some i) :
    (s.next e).discoveries i = s.discoveries i := by
  have apart {j : Nat} {task : DiscoverTask} {s' : PartitionKeyResolver}
      (same : s'.discoveries = s.discoveries) (ne : i ≠ j) :
      (s'.setTask j task).discoveries i = s.discoveries i :=
    (update_of_ne ne _ _).trans (congrFun same i)
  cases e with
  | call c runtime =>
      have ne : i ≠ c := fun same => other (congrArg some same.symm)
      simp only [next, callNext]
      cases s.calls c with
      | spawn t =>
          dsimp only
          split
          · exact apart rfl ne
          · rfl
      | claim t =>
          dsimp only
          split <;> rfl
      | _ => rfl
  | task j reply jitteredDelay =>
      have ne : i ≠ j := fun same => other (congrArg some same.symm)
      simp only [next, taskNext]
      cases (s.discoveries j).pc with
      | absent | finished => rfl
      | _ => exact apart rfl ne
  | poll j | park j => exact apart rfl fun same => other (congrArg some same.symm)
  | destroy j =>
      simp only [next]
      split
      · exact apart rfl fun same => other (congrArg some same.symm)
      · rfl
  | _ => rfl

end Invariants

section Endings

/-- Only `stop` writes the registry. -/
theorem next_tasks_of_other (cancel : e ≠ .cancel) (close : e ≠ .close) :
    (s.next e).tasks = s.tasks := by
  cases e with
  | cancel => exact absurd rfl cancel
  | close => exact absurd rfl close
  | call c runtime => exact callNext_tasks c runtime
  | task i met delay => exact taskNext_tasks met delay
  | destroy i =>
      simp only [next]
      split <;> rfl
  | _ => rfl

end Endings

end PartitionKeyResolver

end AlternatorDriver
