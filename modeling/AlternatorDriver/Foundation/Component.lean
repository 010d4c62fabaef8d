import AlternatorDriver.Foundation.Machine

/-!
# Machines within machines

A machine may contain another one as a part of its state, or may lack it. When each event of
the outer machine is an event of the part or leaves it alone, a run of the whole is a run of
the part, so what holds along the runs of the part holds within the whole.
-/

namespace Foundation

universe u v w x

namespace Machine

/-- One event of the machine, or none. -/
inductive Moves {τ : Type w} {δ : Type x} (m : Machine τ δ) (t : τ) : τ → Prop where
  | rest : Moves m t t
  | event (e : δ) (guard : m.enabled t e) : Moves m t (m.next t e)

/-- The inner machine is a part of the outer one. -/
structure Contains {σ : Type u} {ε : Type v} {τ : Type w} {δ : Type x} (outer : Machine σ ε)
    (part : σ → Option τ) (inner : Machine τ δ) : Prop where
  init : ∀ s t, outer.init s → part s = some t → inner.init t
  moves : ∀ s e t', outer.enabled s e → part (outer.next s e) = some t' →
    ∃ t, part s = some t ∧ inner.Moves t t'

variable {σ : Type u} {ε : Type v} {τ : Type w} {δ : Type x} {outer : Machine σ ε}
  {part : σ → Option τ} {inner : Machine τ δ} {s : σ} {t' : τ} {events : List ε}

/-- A run of the whole is a run of the part. -/
theorem Contains.run (contains : outer.Contains part inner) (run : outer.Admits s events)
    (here : part (outer.exec s events) = some t') :
    ∃ t moves, part s = some t ∧ inner.Admits t moves ∧ inner.exec t moves = t' := by
  induction events generalizing s with
  | nil => exact ⟨t', [], here, trivial, rfl⟩
  | cons e events ih =>
      obtain ⟨t, moves, after, admits, reached⟩ := ih run.2 here
      obtain ⟨origin, before, moved⟩ := contains.moves s e t run.1 after
      cases moved with
      | rest => exact ⟨_, moves, before, admits, reached⟩
      | event d guard => exact ⟨origin, d :: moves, before, ⟨guard, admits⟩, reached⟩

theorem Contains.reachable (contains : outer.Contains part inner) (reachable : outer.Reachable s)
    (here : part s = some t') : inner.Reachable t' := by
  obtain ⟨start, events, init, run, rfl⟩ := reachable
  obtain ⟨t, moves, before, admits, reached⟩ := contains.run run here
  exact ⟨t, moves, contains.init start t init before, admits, reached⟩

end Machine

end Foundation
