import Mathlib.Data.List.AList

/-!
# Counting in a finite map

A tally is a finite map from elements to counters, filled by adding one element after
another. Its entries depend on how often each element was added and not on the order.
-/

namespace Foundation

universe u

/-- A finite map of counters. -/
abbrev Tally (α : Type u) := AList (fun _ : α => Nat)

variable {α : Type u} [DecidableEq α]

namespace Tally

/-- Adds one to the counter of an element, which starts at zero. -/
def add (t : Tally α) (a : α) : Tally α := t.insert a ((t.lookup a).getD 0 + 1)

def addAll (t : Tally α) (l : List α) : Tally α := l.foldl add t

/-- The tally of a list. -/
def ofList (l : List α) : Tally α := addAll ∅ l

@[simp] theorem addAll_nil (t : Tally α) : t.addAll [] = t := rfl

@[simp] theorem addAll_cons (t : Tally α) (a : α) (l : List α) :
    t.addAll (a :: l) = (t.add a).addAll l := rfl

theorem lookup_add_self (t : Tally α) (a : α) :
    (t.add a).lookup a = some ((t.lookup a).getD 0 + 1) := by
  rw [add, AList.lookup_insert]

theorem lookup_add_ne (t : Tally α) {a b : α} (h : b ≠ a) : (t.add a).lookup b = t.lookup b := by
  rw [add, AList.lookup_insert_ne h]

/-- A counter grows by the number of occurrences; an element that does not occur keeps
its entry, or its lack of one. -/
theorem lookup_addAll (t : Tally α) (l : List α) (a : α) :
    (t.addAll l).lookup a =
      if l.count a = 0 then t.lookup a else some ((t.lookup a).getD 0 + l.count a) := by
  induction l generalizing t with
  | nil => simp
  | cons b l ih =>
      rw [addAll_cons, ih]
      by_cases same : a = b
      · subst same
        have counted : (a :: l).count a = l.count a + 1 := List.count_cons_self
        rw [lookup_add_self, counted, if_neg (Nat.succ_ne_zero _)]
        split
        · next absent => rw [absent]
        · rw [Option.getD_some]
          congr 1
          omega
      · have counted : (b :: l).count a = l.count a := List.count_cons_of_ne (Ne.symm same)
        rw [lookup_add_ne t same, counted]

theorem lookup_ofList (l : List α) (a : α) :
    (ofList l).lookup a = if l.count a = 0 then none else some (l.count a) := by
  rw [ofList, lookup_addAll]
  simp

/-- The order of the additions does not matter. -/
theorem ofList_perm {l l' : List α} (h : l.Perm l') :
    (ofList l).entries.Perm (ofList l').entries := by
  apply List.lookup_ext (ofList l).nodupKeys (ofList l').nodupKeys
  intro a n
  have same : (ofList l).lookup a = (ofList l').lookup a := by
    rw [lookup_ofList, lookup_ofList, h.count_eq]
  exact Iff.of_eq (congrArg (n ∈ ·) same)

/-- The entries are the elements that occur, each with its number of occurrences. -/
theorem mem_entries_ofList {l : List α} {a : α} {n : Nat} :
    ⟨a, n⟩ ∈ (ofList l).entries ↔ a ∈ l ∧ n = l.count a := by
  rw [← List.mem_dlookup_iff (ofList l).nodupKeys]
  change n ∈ (ofList l).lookup a ↔ _
  rw [lookup_ofList]
  by_cases absent : l.count a = 0
  · simp [absent, List.count_eq_zero.mp absent]
  · have present : a ∈ l := List.count_pos_iff.mp (Nat.pos_of_ne_zero absent)
    simp [absent, present, eq_comm]

end Tally

end Foundation
