import Mathlib.Data.List.Basic

/-!
# A notification with one stored permit

Waiters queue up in the order in which they start to wait. A notification wakes the one
that has waited longest, or is stored as a permit when nobody waits. A waiter that was
woken and gives up before it has noticed passes its notification on.
-/

namespace Foundation

universe u

structure Notify (ι : Type u) where
  permit : Bool
  waiters : List ι
  woken : List ι
  deriving DecidableEq

namespace Notify

variable {ι : Type u} {n : Notify ι} {i j : ι}

/-- Nobody waits, and nothing is stored. -/
def new : Notify ι := ⟨false, [], []⟩

def notifyOne (n : Notify ι) : Notify ι :=
  match n.waiters with
  | [] => { n with permit := true }
  | first :: rest => { n with waiters := rest, woken := first :: n.woken }

/-- Takes the permit. -/
def consume (n : Notify ι) : Notify ι := { n with permit := false }

/-- Starts to wait, where there is no permit. -/
def register (n : Notify ι) (i : ι) : Notify ι := { n with waiters := n.waiters ++ [i] }

/-- Whoever is woken stays woken. -/
theorem woken_notifyOne (woken : j ∈ n.woken) : j ∈ n.notifyOne.woken := by
  rw [notifyOne]
  split
  · exact woken
  · exact List.mem_cons_of_mem _ woken

/-- A stored permit stays until it is consumed. -/
theorem permit_notifyOne (stored : n.permit = true) : n.notifyOne.permit = true := by
  rw [notifyOne]
  split
  · rfl
  · exact stored

/-- Only who is first in line is woken. -/
theorem mem_woken_notifyOne_iff (asleep : i ∉ n.woken) :
    i ∈ n.notifyOne.woken ↔ n.waiters.head? = some i := by
  obtain ⟨permit, waiters, woken⟩ := n
  cases waiters with
  | nil => simpa [notifyOne] using asleep
  | cons first rest =>
      have asleep : i ∉ woken := asleep
      simp [notifyOne, asleep, eq_comm]

theorem permit_notifyOne_iff (missing : n.permit = false) :
    n.notifyOne.permit = true ↔ n.waiters = [] := by
  obtain ⟨permit, waiters, woken⟩ := n
  cases waiters with
  | nil => simp [notifyOne]
  | cons first rest => simpa [notifyOne] using missing

variable [DecidableEq ι]

/-- Returns from the wait, woken. -/
def receive (n : Notify ι) (i : ι) : Notify ι := { n with woken := n.woken.filter (· ≠ i) }

/-- Gives up the wait. -/
def forget (n : Notify ι) (i : ι) : Notify ι :=
  if i ∈ n.woken then (n.receive i).notifyOne
  else { n with waiters := n.waiters.filter (· ≠ i) }

theorem woken_receive (other : j ≠ i) (woken : j ∈ n.woken) : j ∈ (n.receive i).woken := by
  simp [receive, woken, other]

theorem woken_forget (other : j ≠ i) (woken : j ∈ n.woken) : j ∈ (n.forget i).woken := by
  rw [forget]
  split
  · exact woken_notifyOne (woken_receive other woken)
  · exact woken

theorem permit_forget (stored : n.permit = true) : (n.forget i).permit = true := by
  rw [forget]
  split
  · exact permit_notifyOne stored
  · exact stored

end Notify

end Foundation
