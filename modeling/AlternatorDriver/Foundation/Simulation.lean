import AlternatorDriver.Foundation.Machine

/-!
# Machines that refine machines

A machine refines a smaller one when each of its events is matched by a few events of the
smaller one, maybe none, such that related states stay related. A run of the larger machine
is then a run of the smaller one with gaps, and what holds along the runs of the smaller
machine can be read off the larger one.

A script lists the events of a run, each with the events that match it.
-/

namespace Foundation

universe u v w x

namespace Machine

variable {σ : Type u} {ε : Type v} {τ : Type w} {δ : Type x}

/-- The steps of the outer machine refine the inner one, up to a relation `R` of their states
and with the events that match an event in a state as `L` says. -/
def Refines (outer : Machine σ ε) (inner : Machine τ δ) (R : σ → τ → Prop)
    (L : σ → ε → List δ → Prop) : Prop :=
  ∀ s t e, R s t → outer.enabled s e →
    ∃ moves, L s e moves ∧ inner.Admits t moves ∧ R (outer.next s e) (inner.exec t moves)

/-- The events of a script. -/
def Script.events (script : List (ε × List δ)) : List ε := script.map Prod.fst

/-- The events that match them. -/
def Script.moves (script : List (ε × List δ)) : List δ := script.flatMap Prod.snd

@[simp] theorem Script.events_append (first second : List (ε × List δ)) :
    Script.events (first ++ second) = Script.events first ++ Script.events second :=
  List.map_append

@[simp] theorem Script.moves_append (first second : List (ε × List δ)) :
    Script.moves (first ++ second) = Script.moves first ++ Script.moves second :=
  List.flatMap_append

/-- The two machines go through the script side by side. -/
structure Follows (outer : Machine σ ε) (inner : Machine τ δ) (R : σ → τ → Prop)
    (L : σ → ε → List δ → Prop) (s : σ) (t : τ) (script : List (ε × List δ)) : Prop where
  admits : inner.Admits t (Script.moves script)
  related : ∀ before after, script = before ++ after →
    R (outer.exec s (Script.events before)) (inner.exec t (Script.moves before))
  labelled : ∀ before e moves after, script = before ++ (e, moves) :: after →
    L (outer.exec s (Script.events before)) e moves

variable {outer : Machine σ ε} {inner : Machine τ δ} {R : σ → τ → Prop}
  {L : σ → ε → List δ → Prop} {s : σ} {t : τ} {events : List ε}

theorem Follows.cons {e : ε} {moves : List δ} {script : List (ε × List δ)} (here : R s t)
    (label : L s e moves) (admits : inner.Admits t moves)
    (follows : outer.Follows inner R L (outer.next s e) (inner.exec t moves) script) :
    outer.Follows inner R L s t ((e, moves) :: script) := by
  refine ⟨(admits_append t moves _).mpr ⟨admits, follows.admits⟩, ?_, ?_⟩
  · intro before after split
    cases before with
    | nil => exact here
    | cons first before =>
        obtain ⟨rfl, rest⟩ := List.cons.inj split
        have later := follows.related before after rest
        rwa [← exec_append] at later
  · intro before e' moves' after split
    cases before with
    | nil =>
        obtain ⟨same, -⟩ := List.cons.inj split
        cases same
        exact label
    | cons first before =>
        obtain ⟨rfl, rest⟩ := List.cons.inj split
        exact follows.labelled before e' moves' after rest

/-- A run of the outer machine is followed by one of the inner machine. -/
theorem Refines.follows (refines : outer.Refines inner R L) (here : R s t)
    (run : outer.Admits s events) :
    ∃ script, Script.events script = events ∧ outer.Follows inner R L s t script := by
  induction events generalizing s t with
  | nil =>
      refine ⟨[], rfl, trivial, fun before after split => ?_, fun before e moves after split => ?_⟩
      · obtain ⟨rfl, -⟩ := List.append_eq_nil_iff.mp split.symm
        exact here
      · exact absurd split.symm (by simp)
  | cons e events ih =>
      obtain ⟨moves, label, admits, related⟩ := refines s t e here run.1
      obtain ⟨script, rfl, follows⟩ := ih related run.2
      exact ⟨(e, moves) :: script, rfl, .cons here label admits follows⟩

end Machine

end Foundation
