import AlternatorDriver.LiveNodes.Closure
import AlternatorDriver.LiveNodes.Returning
import Mathlib.Data.Prod.Lex

/-!
# How the tasks of a closed registry end

A task ends when it is next suspended, for the wrapper around its future then sees the
cancelled token. Until then it performs statements of its own, whatever they find; a loop
may have to wait for the `discovery_tasks` lock, and may find a permit instead of its timer
and begin another refresh. No task needs an answer of the network, the clock or a poll.
-/

namespace AlternatorDriver

open Function Foundation

/-- The statements that a loop has left, without those inside of a refresh and under the lock.
A stored permit makes it begin another turn. -/
def LoopPc.left (permit : Bool) : LoopPc → Nat
  | .absent | .finished => 0
  | .dropClear => 1
  | .dropStop => 2
  | .waiting .. => 3 + turns
  | .entering .. => 4 + turns
  | .sleep _ => 5 + turns
  | .elapsed _ => 6 + turns
  | .readActivity => 7 + turns
  | .inside => 8 + turns
  | .lock _ => 9 + turns
  | .upgradeAffinity => 10 + turns
  | .refresh => 11 + turns
  | .turn => 12 + turns
where
  turns : Nat := if permit then 9 else 0

/-- What is left of a poll before its task goes on. It may have to answer a probe. -/
def Stage.rank (probeRequested : Bool) : Stage → Nat
  | .suspended => 0
  | .running => 1
  | .probing => if probeRequested then 3 else 2

/-- The loop that holds the lock. -/
def CriticalPc.loop {Url : Type} : CriticalPc Url → Option Nat
  | .start .. => none
  | .affinity l .. => some l

namespace DiscoveryManager

variable {Url : Type}

/-- Statements of parties that have begun, and ends of suspended tasks. A refresh performs an
action only if it need not await an answer. What the network would answer and whether the
affinity view is still there is given. -/
def windsUp (oracle : Oracle Url) (alive : Bool) (s : DiscoveryManager Url) : Event Url → Prop
  | .tick _ | .closeRuntime _ | .drop | .cancel | .close | .affinityView _ | .call .. | .wake .. |
    .poll _ | .pollAffinity _ | .timeout .. | .notified .. => False
  | .refresh l reply => reply = oracle ∧ (s.loops l).refresh.awaits = false
  | .refreshAffinity a reply => reply = oracle ∧ (s.affinities a).refresh.awaits = false
  | .upgradeAffinity _ upgraded => upgraded = alive
  | _ => True

section Invariants

variable [LinearOrder Url]

variable {config : ManagerConfig Url} {s : DiscoveryManager Url} {e : Event Url}

end Invariants

section Lock

variable [LinearOrder Url] {config : ManagerConfig Url} {s : DiscoveryManager Url} {e : Event Url}
  {oracle : Oracle Url} {alive : Bool}

/-- Only `stop` writes the registry. -/
theorem next_tasks_of_other (cancel : e ≠ .cancel) (close : e ≠ .close) :
    (s.next config e).tasks = s.tasks := by
  cases @next_sharedChange _ s _ config e with
  | cancels => exact absurd rfl cancel
  | closes => exact absurd rfl close
  | _ =>
      rename_i set
      exact congrArg Shared.tasks set

theorem tasks_of_windsUp (permitted : s.windsUp oracle alive e) :
    (s.next config e).tasks = s.tasks := by
  refine next_tasks_of_other ?_ ?_ <;> rintro rfl <;> exact permitted

end Lock

section Loops

variable [LinearOrder Url] {config : ManagerConfig Url} {s : DiscoveryManager Url}
  {oracle : Oracle Url} {alive : Bool} {l : Nat}

/-- The statements that are left inside of a refresh, or under the lock. -/
def within (oracle : Oracle Url) (l : Nat) (s : DiscoveryManager Url) : Nat :=
  match (s.loops l).pc, s.critical with
  | .refresh, _ =>
      ((s.loops l).refresh.trace (fun view => view.respond oracle) s.ordinary).length
  | .inside, some (.affinity _ _ at_) => at_.rank
  | _, _ => 0

end Loops

section Endings

variable [LinearOrder Url] {config : ManagerConfig Url} {s : DiscoveryManager Url}
  {oracle : Oracle Url} {alive : Bool}

/-- The token is cancelled, and `stop` is not at work. -/
structure Halted (s : DiscoveryManager Url) : Prop where
  stopped : s.tasks.stopped = true
  registration : s.tasks.registration = false

theorem Halted.next {e : Event Url} (halted : s.Halted) (permitted : s.windsUp oracle alive e) :
    (s.next config e).Halted := by
  constructor
  · rw [tasks_of_windsUp permitted]
    exact halted.stopped
  · rw [tasks_of_windsUp permitted]
    exact halted.registration

end Endings

end DiscoveryManager

end AlternatorDriver
