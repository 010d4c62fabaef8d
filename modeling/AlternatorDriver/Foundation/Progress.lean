import AlternatorDriver.Foundation.Machine
import Mathlib.Order.WellFounded

/-!
# What a machine can still do

Some events of a machine are under the control of a party: its own statements, say, but not
what the network answers. The party can reach a goal from a state if some run of such events
leads there. A rank that one event after the other brings down shows that it can. Whether an
event is permitted may depend on the state it meets.
-/

namespace Foundation

universe u v w x

namespace Machine

variable {σ : Type u} {ε : Type v} {m : Machine σ ε}

/-- A run of permitted events leads to a goal. -/
def CanReach (m : Machine σ ε) (W : σ → ε → Prop) (P : σ → Prop) (s : σ) : Prop :=
  ∃ events, (m.restrict W).Admits s events ∧ P (m.exec s events)

variable {W : σ → ε → Prop} {P Q : σ → Prop} {s : σ}

theorem CanReach.here (holds : P s) : m.CanReach W P s := ⟨[], trivial, holds⟩

theorem CanReach.step {e : ε} (guard : m.enabled s e) (permitted : W s e)
    (later : m.CanReach W P (m.next s e)) : m.CanReach W P s := by
  obtain ⟨events, run, holds⟩ := later
  exact ⟨e :: events, ⟨⟨guard, permitted⟩, run⟩, holds⟩

/-- A goal that can be reached from every state of another goal. -/
theorem CanReach.bind (first : m.CanReach W P s) (known : m.Reachable s)
    (second : ∀ t, m.Reachable t → P t → m.CanReach W Q t) : m.CanReach W Q s := by
  obtain ⟨events, run, holds⟩ := first
  obtain ⟨later, run', holds'⟩ := second _ (known.run (admits_restrict run)) holds
  refine ⟨events ++ later, (admits_append ..).mpr ⟨run, run'⟩, ?_⟩
  rwa [exec_append]

theorem CanReach.mono (can : m.CanReach W P s) (goal : ∀ s, P s → Q s) : m.CanReach W Q s := by
  obtain ⟨run, admits, holds⟩ := can
  exact ⟨run, admits, goal _ holds⟩

/-- As long as the goal is not reached, an event is permitted that lowers the rank. -/
theorem canReach_of_rank {α : Type w} [Preorder α] [WellFoundedLT α] {I : σ → Prop} (rank : σ → α)
    (step : ∀ s, m.Reachable s → I s → ¬ P s → ∃ e, m.enabled s e ∧ W s e ∧ I (m.next s e) ∧
      rank (m.next s e) < rank s)
    (known : m.Reachable s) (holds : I s) : m.CanReach W P s := by
  induction rank_eq : rank s using WellFoundedLT.induction generalizing s with
  | ind a ih =>
      by_cases reached : P s
      · exact .here reached
      · obtain ⟨e, guard, permitted, kept, lower⟩ := step s known holds reached
        rw [rank_eq] at lower
        exact .step guard permitted (ih _ lower (known.step guard) kept rfl)

end Machine

end Foundation
