import Mathlib.Data.List.Induction
import Mathlib.Logic.Function.Basic

/-!
# Guarded machines and what holds along their runs

A machine performs events one at a time. An event has a guard, the states in which
it can happen, and a total update. Threads that interleave are one machine whose
events name the thread that moves, so a run is an interleaving.

Both the guard and the update are functions, hence a concrete run can be evaluated.
Invariants are proved from one step and transported to whole runs here, once.
-/

namespace Foundation

universe u v w x

/-- Where runs start, when an event can happen, and what it does then. -/
structure Machine (σ : Type u) (ε : Type v) where
  init : σ → Prop
  enabled : σ → ε → Prop
  next : σ → ε → σ

namespace Machine

variable {σ : Type u} {ε : Type v} {m : Machine σ ε}

/-- The state after a list of events. -/
def exec (m : Machine σ ε) (s : σ) (events : List ε) : σ := events.foldl m.next s

/-- Every event of the list is enabled when its turn comes. -/
def Admits (m : Machine σ ε) : σ → List ε → Prop
  | _, [] => True
  | s, e :: events => m.enabled s e ∧ Admits m (m.next s e) events

/-- Some run leads from an initial state to this one. -/
def Reachable (m : Machine σ ε) (s : σ) : Prop :=
  ∃ start events, m.init start ∧ m.Admits start events ∧ m.exec start events = s

@[simp] theorem exec_nil (s : σ) : m.exec s [] = s := rfl

@[simp] theorem exec_cons (s : σ) (e : ε) (events : List ε) :
    m.exec s (e :: events) = m.exec (m.next s e) events := rfl

theorem exec_append (s : σ) (first second : List ε) :
    m.exec s (first ++ second) = m.exec (m.exec s first) second :=
  List.foldl_append

@[simp] theorem admits_nil (s : σ) : m.Admits s [] := trivial

@[simp] theorem admits_cons (s : σ) (e : ε) (events : List ε) :
    m.Admits s (e :: events) ↔ m.enabled s e ∧ m.Admits (m.next s e) events := Iff.rfl

theorem admits_append (s : σ) (first second : List ε) :
    m.Admits s (first ++ second) ↔ m.Admits s first ∧ m.Admits (m.exec s first) second := by
  induction first generalizing s with
  | nil => simp
  | cons e first ih => simp only [List.cons_append, admits_cons, exec_cons, ih, and_assoc]

instance decidableAdmits [∀ s e, Decidable (m.enabled s e)] :
    ∀ (s : σ) (events : List ε), Decidable (m.Admits s events)
  | _, [] => inferInstanceAs (Decidable True)
  | s, e :: events =>
      have := decidableAdmits (m.next s e) events
      inferInstanceAs (Decidable (m.enabled s e ∧ m.Admits (m.next s e) events))

theorem Reachable.init {s : σ} (h : m.init s) : m.Reachable s := ⟨s, [], h, trivial, rfl⟩

theorem Reachable.run {s : σ} {events : List ε} (h : m.Reachable s) (run : m.Admits s events) :
    m.Reachable (m.exec s events) := by
  obtain ⟨start, before, hinit, hrun, rfl⟩ := h
  exact ⟨start, before ++ events, hinit, (admits_append ..).mpr ⟨hrun, run⟩, exec_append ..⟩

theorem Reachable.step {s : σ} {e : ε} (h : m.Reachable s) (guard : m.enabled s e) :
    m.Reachable (m.next s e) :=
  h.run (show m.Admits s [e] from ⟨guard, trivial⟩)

/-- A property that one step preserves is preserved by every run. -/
theorem Admits.preserves {I : σ → Prop} (step : ∀ s e, I s → m.enabled s e → I (m.next s e))
    {s : σ} {events : List ε} (run : m.Admits s events) (hs : I s) : I (m.exec s events) := by
  induction events generalizing s with
  | nil => exact hs
  | cons e events ih => exact ih run.2 (step s e hs run.1)

/-- The invariant rule: true at the start and preserved by each step. -/
theorem Reachable.invariant {I : σ → Prop} (start : ∀ s, m.init s → I s)
    (step : ∀ s e, I s → m.enabled s e → I (m.next s e)) {s : σ} (h : m.Reachable s) : I s := by
  obtain ⟨first, events, hinit, run, rfl⟩ := h
  exact run.preserves step (start first hinit)

/-- The same rule for a step that may use invariants proved before. -/
theorem Reachable.invariant_of {J I : σ → Prop} (known : ∀ s, m.Reachable s → J s)
    (start : ∀ s, m.init s → I s)
    (step : ∀ s e, J s → I s → m.enabled s e → I (m.next s e)) {s : σ} (h : m.Reachable s) :
    I s := by
  have both : m.Reachable s ∧ I s := by
    refine Reachable.invariant (I := fun s => m.Reachable s ∧ I s)
      (fun s hs => ⟨.init hs, start s hs⟩) ?_ h
    intro s e hs guard
    exact ⟨hs.1.step guard, step s e (known s hs.1) hs.2 guard⟩
  exact both.2

/-- A relation between the two ends of a step that is a preorder relates the two
ends of every run that starts in a reachable state. -/
theorem Reachable.relates {R : σ → σ → Prop} (refl : ∀ s, R s s)
    (trans : ∀ a b c, R a b → R b c → R a c)
    (step : ∀ s e, m.Reachable s → m.enabled s e → R s (m.next s e))
    {s : σ} (h : m.Reachable s) {events : List ε} (run : m.Admits s events) :
    R s (m.exec s events) := by
  induction events generalizing s with
  | nil => exact refl s
  | cons e events ih =>
      exact trans _ _ _ (step s e h run.1) (ih (h.step run.1) run.2)

/-- The machine that performs only the steps which meet a condition. Its runs are
the runs of the machine all of whose steps meet it. -/
def restrict (m : Machine σ ε) (condition : σ → ε → Prop) : Machine σ ε where
  init := m.init
  enabled s e := m.enabled s e ∧ condition s e
  next := m.next

theorem admits_restrict {condition : σ → ε → Prop} {s : σ} {events : List ε}
    (run : (m.restrict condition).Admits s events) : m.Admits s events := by
  induction events generalizing s with
  | nil => trivial
  | cons e events ih => exact ⟨run.1.1, ih run.2⟩

theorem Reachable.of_restrict {condition : σ → ε → Prop} {s : σ}
    (h : (m.restrict condition).Reachable s) : m.Reachable s := by
  obtain ⟨start, events, hinit, run, hs⟩ := h
  exact ⟨start, events, hinit, admits_restrict run, hs⟩

/-- A run whose steps all meet a condition, each in the state it meets. -/
theorem Admits.restrict {condition : σ → ε → Prop} {s : σ} {events : List ε}
    (run : m.Admits s events)
    (meets : ∀ before e after, events = before ++ e :: after → condition (m.exec s before) e) :
    (m.restrict condition).Admits s events := by
  induction events generalizing s with
  | nil => trivial
  | cons e events ih =>
      refine ⟨⟨run.1, meets [] e events rfl⟩, ih run.2 ?_⟩
      intro before e' after split
      exact meets (e :: before) e' after (by rw [split, List.cons_append])

/-- What becomes true along a run becomes true at one of its steps. -/
theorem Admits.exists_change {P : σ → Prop} {s : σ} {events : List ε} (run : m.Admits s events)
    (first : ¬ P s) (last : P (m.exec s events)) :
    ∃ before e after, events = before ++ e :: after ∧ m.Admits s before ∧
      m.enabled (m.exec s before) e ∧ ¬ P (m.exec s before) ∧
      P (m.next (m.exec s before) e) := by
  induction events generalizing s with
  | nil => exact absurd last first
  | cons e events ih =>
      by_cases now : P (m.next s e)
      · exact ⟨[], e, events, rfl, trivial, run.1, first, now⟩
      · obtain ⟨before, e', after, split, initial, guard, still, change⟩ := ih run.2 now last
        exact ⟨e :: before, e', after, by rw [split, List.cons_append], ⟨run.1, initial⟩, guard,
          still, change⟩

/-- Some state of a run, its ends included, meets a condition. -/
def Visits (m : Machine σ ε) (P : σ → Prop) (s : σ) (events : List ε) : Prop :=
  ∃ before after, events = before ++ after ∧ P (m.exec s before)

theorem Visits.last {P : σ → Prop} {s : σ} {events : List ε} (holds : P (m.exec s events)) :
    m.Visits P s events := ⟨events, [], (List.append_nil events).symm, holds⟩

theorem Visits.append {P : σ → Prop} {s : σ} {events : List ε} (later : List ε)
    (visits : m.Visits P s events) : m.Visits P s (events ++ later) := by
  obtain ⟨before, after, rfl, holds⟩ := visits
  exact ⟨before, after ++ later, List.append_assoc .., holds⟩

/-- A property of runs that holds at the start and that one more step preserves. -/
theorem Admits.snoc_induction {I : List ε → Prop} {s : σ} (start : I [])
    (step : ∀ events e, m.Admits s events → m.enabled (m.exec s events) e → I events →
      I (events ++ [e])) {events : List ε} (run : m.Admits s events) : I events := by
  induction events using List.reverseRecOn with
  | nil => exact start
  | append_singleton events e ih =>
      obtain ⟨before, guard, -⟩ := (admits_append s events [e]).mp run
      exact step events e before guard (ih before)

/-- A property of runs that holds at the start, and that a further step keeps just if the step
meets a condition, holds at every prefix of a run just if all its steps meet it. -/
theorem Admits.forall_prefix_iff {I : List ε → Prop} {P : List ε → ε → Prop} {s : σ}
    (start : I [])
    (step : ∀ events e, m.Admits s events → m.enabled (m.exec s events) e → I events →
      (I (events ++ [e]) ↔ P events e)) {events : List ε} (run : m.Admits s events) :
    (∀ before e after, events = before ++ e :: after → P before e) ↔
      ∀ before after, events = before ++ after → I before := by
  have prefixed {before after : List ε} {e : ε} (split : events = before ++ e :: after) :
      m.Admits s before ∧ m.enabled (m.exec s before) e := by
    rw [split, admits_append] at run
    exact ⟨run.1, run.2.1⟩
  constructor
  · intro meets before
    induction before using List.reverseRecOn with
    | nil => exact fun _ _ => start
    | append_singleton before e ih =>
        intro after split
        rw [List.append_assoc] at split
        obtain ⟨initial, guard⟩ := prefixed split
        exact (step before e initial guard (ih _ split)).mpr (meets before e after split)
  · intro holds before e after split
    obtain ⟨initial, guard⟩ := prefixed split
    refine (step before e initial guard (holds before _ split)).mp (holds _ after ?_)
    rw [split, List.append_assoc]
    rfl

/-- What the steps of a run produce, in order. -/
def outputs {α : Type w} (m : Machine σ ε) (out : σ → ε → Option α) : σ → List ε → List α
  | _, [] => []
  | s, e :: events => (out s e).toList ++ m.outputs out (m.next s e) events

theorem outputs_append {α : Type w} (out : σ → ε → Option α) (s : σ) (first second : List ε) :
    m.outputs out s (first ++ second) =
      m.outputs out s first ++ m.outputs out (m.exec s first) second := by
  induction first generalizing s with
  | nil => rfl
  | cons e first ih => simp only [List.cons_append, outputs, exec_cons, ih, List.append_assoc]

/-- Outputs that each step takes from above a bound, and raises the bound to, increase. -/
theorem outputs_increasing {out : σ → ε → Option Nat} {b : σ → Nat}
    (mono : ∀ s e, b s ≤ b (m.next s e))
    (fresh : ∀ s e n, out s e = some n → b s < n ∧ n ≤ b (m.next s e))
    (s : σ) (events : List ε) :
    (m.outputs out s events).Pairwise (· < ·) ∧ ∀ n ∈ m.outputs out s events, b s < n := by
  induction events generalizing s with
  | nil => simp [outputs]
  | cons e events ih =>
      obtain ⟨increasing, above⟩ := ih (m.next s e)
      cases produced : out s e with
      | none =>
          simp only [outputs, produced, Option.toList_none, List.nil_append]
          exact ⟨increasing, fun n hn => Nat.lt_of_le_of_lt (mono s e) (above n hn)⟩
      | some n =>
          obtain ⟨low, high⟩ := fresh s e n produced
          simp only [outputs, produced, Option.toList_some, List.singleton_append]
          constructor
          · refine List.pairwise_cons.mpr ⟨?_, increasing⟩
            intro k hk
            exact Nat.lt_of_le_of_lt high (above k hk)
          · intro k hk
            rcases List.mem_cons.mp hk with rfl | hk
            · exact low
            · exact Nat.lt_of_le_of_lt (mono s e) (above k hk)

/-- The events of a run without those that are idle when their turn comes. -/
def dropIdle (m : Machine σ ε) (idle : σ → ε → Bool) : σ → List ε → List ε
  | _, [] => []
  | s, e :: events =>
      if idle s e then m.dropIdle idle (m.next s e) events
      else e :: m.dropIdle idle (m.next s e) events

theorem dropIdle_append (idle : σ → ε → Bool) (s : σ) (first second : List ε) :
    m.dropIdle idle s (first ++ second) =
      m.dropIdle idle s first ++ m.dropIdle idle (m.exec s first) second := by
  induction first generalizing s with
  | nil => rfl
  | cons e first ih =>
      simp only [List.cons_append, dropIdle, exec_cons, ih]
      split <;> rfl

/-- Idle events that change nothing can be dropped from a run. -/
theorem exec_dropIdle {idle : σ → ε → Bool} (unchanged : ∀ s e, idle s e = true → m.next s e = s)
    (s : σ) (events : List ε) : m.exec s (m.dropIdle idle s events) = m.exec s events := by
  induction events generalizing s with
  | nil => rfl
  | cons e events ih =>
      simp only [dropIdle, exec_cons]
      split
      · rename_i isIdle
        rw [unchanged s e isIdle, ih]
      · rw [exec_cons, ih]

theorem Admits.dropIdle {idle : σ → ε → Bool}
    (unchanged : ∀ s e, idle s e = true → m.next s e = s) {s : σ} {events : List ε}
    (run : m.Admits s events) : m.Admits s (m.dropIdle idle s events) := by
  induction events generalizing s with
  | nil => trivial
  | cons e events ih =>
      simp only [Machine.dropIdle]
      split
      · rename_i isIdle
        have rest := ih run.2
        rwa [unchanged s e isIdle] at rest ⊢
      · exact ⟨run.1, ih run.2⟩

end Machine

end Foundation
