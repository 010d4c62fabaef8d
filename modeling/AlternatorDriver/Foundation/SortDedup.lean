import Mathlib.Data.List.Sort
import Mathlib.Data.List.Destutter

/-!
# Lists without order and repetition

Sorting a list and dropping equal neighbours gives one list for each finite set of
elements. Two lists with the same members therefore have the same canonical form, in
whatever order, and however often, the members were collected.
-/

namespace Foundation

universe u

/-- Sorting by a total order forgets the order of the elements. -/
theorem insertionSort_eq_of_perm {α : Type u} (r : α → α → Prop) [DecidableRel r]
    [Std.Total r] [IsTrans α r] [Std.Antisymm r] {l l' : List α} (h : l.Perm l') :
    l.insertionSort r = l'.insertionSort r := by
  have reordered : (l.insertionSort r).Perm (l'.insertionSort r) :=
    (List.perm_insertionSort r l).trans (h.trans (List.perm_insertionSort r l').symm)
  exact reordered.eq_of_pairwise' (List.pairwise_insertionSort r l)
    (List.pairwise_insertionSort r l')

variable {α : Type u} [LinearOrder α]

/-- The ascending list of the members of a list. -/
def sortDedup (l : List α) : List α := (l.insertionSort (· ≤ ·)).destutter (· ≠ ·)

theorem sortDedup_eq_dedup (l : List α) : sortDedup l = (l.insertionSort (· ≤ ·)).dedup :=
  (List.pairwise_insertionSort (· ≤ ·) l).destutter_eq_dedup

@[simp] theorem mem_sortDedup {x : α} {l : List α} : x ∈ sortDedup l ↔ x ∈ l := by
  rw [sortDedup_eq_dedup, List.mem_dedup, List.mem_insertionSort]

theorem pairwise_sortDedup (l : List α) : (sortDedup l).Pairwise (· < ·) := by
  have ascending : (sortDedup l).Pairwise (· ≤ ·) :=
    (List.pairwise_insertionSort (· ≤ ·) l).sublist (List.destutter_sublist _ _)
  have distinct : (sortDedup l).Nodup := by
    rw [sortDedup_eq_dedup]
    exact List.nodup_dedup _
  exact (ascending.and distinct).imp fun h => lt_of_le_of_ne h.1 h.2

/-- An ascending list is its own canonical form. -/
theorem sortDedup_of_pairwise {l : List α} (h : l.Pairwise (· < ·)) : sortDedup l = l :=
  List.Pairwise.eq_of_mem_iff (pairwise_sortDedup l) h fun _ => mem_sortDedup

/-- The canonical form depends on the members only. -/
theorem sortDedup_congr {l l' : List α} (h : ∀ x, x ∈ l ↔ x ∈ l') : sortDedup l = sortDedup l' := by
  refine List.Pairwise.eq_of_mem_iff (pairwise_sortDedup l) (pairwise_sortDedup l') ?_
  intro x
  rw [mem_sortDedup, mem_sortDedup, h]

@[simp] theorem sortDedup_idem (l : List α) : sortDedup (sortDedup l) = sortDedup l :=
  sortDedup_of_pairwise (pairwise_sortDedup l)

@[simp] theorem sortDedup_eq_nil {l : List α} : sortDedup l = [] ↔ l = [] := by
  simp only [List.eq_nil_iff_forall_not_mem, mem_sortDedup]

end Foundation
