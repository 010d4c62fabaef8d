import Mathlib.Data.List.Basic
import Mathlib.Order.FixedPoints

/-!
# Readers that are polled

A reader hands out its bytes in pieces of its own choice, no longer than the buffer of
each poll, and a poll may find nothing yet. What it hands out until it ends or fails is
its content, whatever the pieces are.

Readers are built from other readers. A reader is described by what it delivers, so the
description of one that is built from others follows from theirs.
-/

namespace Foundation

variable {Byte ε : Type}

/-- What a poll returns. Nothing yet means that the poll will be repeated; no bytes, for a
buffer that has room, means the end. -/
inductive ReadPoll (Byte ε : Type) where
  | pending
  | ready (bytes : List Byte)
  | error (e : ε)

def ReadPoll.filled : ReadPoll Byte ε → List Byte
  | .ready bytes => bytes
  | _ => []

/-- A state that is polled with the capacity of a buffer, which it does not overrun. -/
structure Reader (Byte ε : Type) : Type 1 where
  State : Type
  state : State
  pollRead : State → Nat → ReadPoll Byte ε × State
  fits : ∀ s capacity, (pollRead s capacity).1.filled.length ≤ capacity

/-- Clean bytes up to a clean end, or bytes up to a failure. -/
inductive Content (Byte : Type) where
  | clean (bytes : List Byte)
  | failing

namespace Content

/-- Some bytes come first. Nothing is known of the bytes before a failure. -/
def Begins (bytes : List Byte) : Content Byte → Prop
  | .clean all => bytes <+: all
  | .failing => True

/-- What is left after some bytes. -/
def drop (bytes : List Byte) : Content Byte → Content Byte
  | .clean all => .clean (all.drop bytes.length)
  | .failing => .failing

def ofOption : Option (List Byte) → Content Byte
  | some bytes => .clean bytes
  | none => .failing

/-- The first content, unless one of the two fails. -/
def andThen : Content Byte → Content Byte → Content Byte
  | .clean bytes, .clean _ => .clean bytes
  | _, _ => .failing

/-- The content, unless it is longer than a limit. -/
def limitTo (limit : Nat) : Content Byte → Content Byte
  | .clean bytes => if bytes.length ≤ limit then .clean bytes else .failing
  | .failing => .failing

variable {content rest : Content Byte} {bytes more : List Byte} {limit : Nat}

@[simp] theorem andThen_failing : content.andThen .failing = .failing := by
  cases content <;> rfl

@[simp] theorem andThen_drop : content.andThen (rest.drop bytes) = content.andThen rest := by
  cases content <;> cases rest <;> rfl

theorem drop_andThen : (content.drop bytes).andThen rest = (content.andThen rest).drop bytes := by
  cases content <;> cases rest <;> rfl

theorem begins_andThen (begins : content.Begins bytes) : (content.andThen rest).Begins bytes := by
  cases content <;> cases rest <;> first | exact begins | trivial

theorem begins_limitTo (begins : content.Begins bytes) : (content.limitTo limit).Begins bytes := by
  cases content with
  | failing => trivial
  | clean all =>
      rw [limitTo]
      split
      · exact begins
      · trivial

theorem drop_limitTo (begins : content.Begins bytes) (within : bytes.length ≤ limit) :
    (content.drop bytes).limitTo (limit - bytes.length) = (content.limitTo limit).drop bytes := by
  cases content with
  | failing => rfl
  | clean all =>
      obtain ⟨rest, rfl⟩ := begins
      have same : rest.length ≤ limit - bytes.length ↔ (bytes ++ rest).length ≤ limit := by
        rw [List.length_append]
        omega
      simp only [drop, limitTo, List.drop_left, same]
      split <;> simp

@[simp] theorem begins_nil : content.Begins [] := by
  cases content <;> simp [Begins]

theorem begins_append (first : content.Begins bytes) (second : (content.drop bytes).Begins more) :
    content.Begins (bytes ++ more) := by
  cases content with
  | failing => trivial
  | clean all =>
      obtain ⟨rest, rfl⟩ := first
      simp only [drop, Begins, List.drop_left] at second
      exact (List.prefix_append_right_inj bytes).mpr second

theorem eq_of_drop_eq_clean (first : content.Begins bytes)
    (second : content.drop bytes = .clean more) : content = .clean (bytes ++ more) := by
  cases content with
  | failing => cases second
  | clean all =>
      obtain ⟨rest, rfl⟩ := first
      simp only [drop, List.drop_left] at second
      cases second
      rfl

theorem eq_failing_of_drop (second : content.drop bytes = .failing) : content = .failing := by
  cases content with
  | failing => rfl
  | clean all => cases second

end Content

namespace Reader

def poll (r : Reader Byte ε) (capacity : Nat) : ReadPoll Byte ε × Reader Byte ε :=
  ((r.pollRead r.state capacity).1, { r with state := (r.pollRead r.state capacity).2 })

/-- A poll finds the end, and leaves the reader in a state of which `P` holds. -/
def endStep (P : Reader Byte ε → Prop) (r : Reader Byte ε) : Prop :=
  ∀ capacity, 0 < capacity → (r.poll capacity).1 = .ready [] ∧ P (r.poll capacity).2

theorem endStep_mono : Monotone (@endStep Byte ε) :=
  fun _ _ le _ step capacity positive =>
    ⟨(step capacity positive).1, le _ (step capacity positive).2⟩

/-- The reader has ended, and every later poll says so too. -/
def AtEnd : Reader Byte ε → Prop := OrderHom.gfp ⟨endStep, endStep_mono⟩

theorem atEnd_iff {r : Reader Byte ε} : r.AtEnd ↔ endStep AtEnd r :=
  iff_of_eq (congrFun (OrderHom.map_gfp ⟨endStep, endStep_mono⟩).symm r)

/-- What every poll keeps, and what says at once that the reader has ended. -/
theorem AtEnd.coinduct (P : Reader Byte ε → Prop) (step : ∀ r, P r → endStep P r)
    (r : Reader Byte ε) (holds : P r) : r.AtEnd :=
  OrderHom.le_gfp ⟨endStep, endStep_mono⟩ step r holds

/-- A poll hands out a piece of the content, and `P` holds of the rest. -/
def deliverStep (P : Content Byte → Reader Byte ε → Prop) (content : Content Byte)
    (r : Reader Byte ε) : Prop :=
  ∀ capacity, 0 < capacity →
    match (r.poll capacity).1 with
    | .pending => P content (r.poll capacity).2
    | .ready [] => content = .clean [] ∧ AtEnd (r.poll capacity).2
    | .ready bytes => content.Begins bytes ∧ P (content.drop bytes) (r.poll capacity).2
    | .error _ => content = .failing

theorem deliverStep_mono : Monotone (@deliverStep Byte ε) := by
  intro P Q le content r step capacity positive
  have step := step capacity positive
  split at step
  · exact le _ _ step
  · exact step
  · exact ⟨step.1, le _ _ step.2⟩
  · exact step

/-- The reader hands out this content, in finitely many polls of whatever capacities. -/
def Delivers : Content Byte → Reader Byte ε → Prop := OrderHom.lfp ⟨deliverStep, deliverStep_mono⟩

theorem delivers_iff {content : Content Byte} {r : Reader Byte ε} :
    Delivers content r ↔ deliverStep Delivers content r :=
  iff_of_eq (congrFun (congrFun (OrderHom.map_lfp ⟨deliverStep, deliverStep_mono⟩).symm content) r)

/-- Induction on the polls that are left until the reading ends. -/
theorem Delivers.induct (P : Content Byte → Reader Byte ε → Prop)
    (step : ∀ content r, deliverStep P content r → P content r) (content : Content Byte)
    (r : Reader Byte ε) (delivers : Delivers content r) : P content r :=
  OrderHom.lfp_le ⟨deliverStep, deliverStep_mono⟩ step content r delivers

inductive Ending where
  | ended
  | failed
  deriving DecidableEq

/-- The bytes of some polls, up to the first event that ends the reading. -/
def read (r : Reader Byte ε) (capacities : Nat → Nat) : Nat → List Byte × Option Ending
  | 0 => ([], none)
  | n + 1 =>
      match (r.poll (capacities 0)).1 with
      | .pending => read (r.poll (capacities 0)).2 (fun i => capacities (i + 1)) n
      | .ready [] => ([], some .ended)
      | .ready bytes =>
          let rest := read (r.poll (capacities 0)).2 (fun i => capacities (i + 1)) n
          (bytes ++ rest.1, rest.2)
      | .error _ => ([], some .failed)

variable {r : Reader Byte ε} {content : Content Byte} {capacities : Nat → Nat}

/-- What is read begins the content; a clean end means that it is all of it, and a failure
that the content has no clean end. -/
theorem Delivers.read_spec (delivers : Delivers content r) (positive : ∀ i, 0 < capacities i)
    (n : Nat) :
    content.Begins (r.read capacities n).1 ∧
      ((r.read capacities n).2 = some .ended → content = .clean (r.read capacities n).1) ∧
      ((r.read capacities n).2 = some .failed → content = .failing) := by
  induction n generalizing r content capacities with
  | zero => simp [read]
  | succ n ih =>
      rw [delivers_iff] at delivers
      have step := delivers (capacities 0) (positive 0)
      rw [read]
      cases polled : (r.poll (capacities 0)).1 with
      | pending =>
          rw [polled] at step
          exact ih step fun i => positive (i + 1)
      | error e =>
          rw [polled] at step
          exact ⟨Content.begins_nil, by simp, fun _ => step⟩
      | ready bytes =>
          rw [polled] at step
          cases bytes with
          | nil => exact ⟨Content.begins_nil, fun _ => step.1, by simp⟩
          | cons b bs =>
              obtain ⟨begins, rest, ended, failed⟩ := And.intro step.1 (ih step.2 fun i =>
                positive (i + 1))
              refine ⟨Content.begins_append begins rest, fun last => ?_, fun last => ?_⟩
              · exact Content.eq_of_drop_eq_clean begins (ended last)
              · exact Content.eq_failing_of_drop (failed last)

/-- Some number of polls is enough. -/
theorem Delivers.terminates (delivers : Delivers content r) (positive : ∀ i, 0 < capacities i) :
    ∃ n, (r.read capacities n).2 ≠ none := by
  refine Delivers.induct (fun _ r => ∀ capacities : Nat → Nat, (∀ i, 0 < capacities i) →
    ∃ n, (r.read capacities n).2 ≠ none) ?_ content r delivers capacities positive
  intro content r step capacities positive
  have step := step (capacities 0) (positive 0)
  cases polled : (r.poll (capacities 0)).1 with
  | pending =>
      rw [polled] at step
      obtain ⟨n, ended⟩ := step (fun i => capacities (i + 1)) fun i => positive (i + 1)
      refine ⟨n + 1, ?_⟩
      rw [read, polled]
      exact ended
  | error e =>
      refine ⟨1, ?_⟩
      rw [read, polled]
      simp
  | ready bytes =>
      cases bytes with
      | nil =>
          refine ⟨1, ?_⟩
          rw [read, polled]
          simp
      | cons b bs =>
          rw [polled] at step
          obtain ⟨n, ended⟩ := step.2 (fun i => capacities (i + 1)) fun i => positive (i + 1)
          refine ⟨n + 1, ?_⟩
          rw [read, polled]
          exact ended

end Reader

end Foundation
