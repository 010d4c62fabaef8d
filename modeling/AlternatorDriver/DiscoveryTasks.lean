/-!
# The registry of discovery tasks

`DiscoveryTasks` admits tasks until it is stopped. Admission and closure share the
`registration` lock, so a spawn that races with `stop` either happens before both of
its statements or is rejected. The tasks themselves live in the machines that spawn
them: a task is tracked exactly while its future has not been destroyed.
-/

namespace AlternatorDriver

/-- The cancellation token, the tracker's closed flag, and the registration lock.
The lock is recorded only where it is visible: while `stop` has cancelled the token
and not yet closed the tracker. -/
structure DiscoveryTasks where
  stopped : Bool
  closed : Bool
  registration : Bool
  deriving DecidableEq

namespace DiscoveryTasks

/-- A registry that has not been stopped, `DiscoveryTasks::default`. -/
def default : DiscoveryTasks := ⟨false, false, false⟩

/-- Closure is what callers read, without the lock. -/
def isStopped (tasks : DiscoveryTasks) : Bool := tasks.closed

/-- A spawn waits for the registration lock, -/
def spawnReady (tasks : DiscoveryTasks) : Bool := !tasks.registration

/-- and is admitted when it then finds the tracker open. -/
def admits (tasks : DiscoveryTasks) : Bool := !tasks.isStopped

/-- The first statement of `stop`, under the lock. -/
def cancel (tasks : DiscoveryTasks) : DiscoveryTasks :=
  { tasks with stopped := true, registration := true }

/-- The second statement of `stop`, which then releases the lock. -/
def close (tasks : DiscoveryTasks) : DiscoveryTasks :=
  { tasks with closed := true, registration := false }

/-- The registry seen with the lock free: it is closed exactly when it is cancelled. -/
structure WellFormed (tasks : DiscoveryTasks) : Prop where
  stopped_of_closed : tasks.closed = true → tasks.stopped = true
  stopped_of_registration : tasks.registration = true → tasks.stopped = true
  closed_of_stopped : tasks.stopped = true → tasks.registration = false → tasks.closed = true

theorem wellFormed_default : WellFormed default := by
  constructor <;> simp [default]

theorem wellFormed_cancel (tasks : DiscoveryTasks) : tasks.cancel.WellFormed := by
  constructor <;> simp [DiscoveryTasks.cancel]

theorem WellFormed.close {tasks : DiscoveryTasks} (h : tasks.WellFormed)
    (held : tasks.registration = true) : tasks.close.WellFormed := by
  have cancelled := h.stopped_of_registration held
  constructor <;> simp [DiscoveryTasks.close, cancelled]

/-- What the owner of a registry does to it: a statement of `stop`, or nothing. -/
inductive Step (tasks : DiscoveryTasks) : DiscoveryTasks → Prop where
  | same : Step tasks tasks
  | cancel (free : tasks.registration = false) : Step tasks tasks.cancel
  | close (held : tasks.registration = true) : Step tasks tasks.close

section Step

variable {tasks tasks' : DiscoveryTasks}

theorem Step.of_eq (same : tasks' = tasks) : tasks.Step tasks' := by
  rw [same]
  exact .same

theorem WellFormed.step (h : tasks.WellFormed) (step : tasks.Step tasks') : tasks'.WellFormed := by
  cases step with
  | same => exact h
  | cancel free => exact wellFormed_cancel tasks
  | close held => exact h.close held

/-- Closure is permanent. -/
theorem Step.closed (step : tasks.Step tasks') (closed : tasks.closed = true) :
    tasks'.closed = true := by
  cases step with
  | same | cancel => exact closed
  | close => rfl

end Step

end DiscoveryTasks

end AlternatorDriver
