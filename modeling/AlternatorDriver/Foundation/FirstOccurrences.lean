import Mathlib.Data.List.Induction
import Mathlib.Data.List.Nodup

/-!
# First occurrences in a list

`List.eraseDups` keeps the first occurrence of each element. A loop that appends what it has
not seen before computes it from the front, so its laws are read off one equation for an
element appended at the end.
-/

namespace Foundation

variable {α β : Type} [DecidableEq α] [DecidableEq β]

/-- One more element at the end counts unless it has occurred before. -/
theorem eraseDups_concat (l : List α) (x : α) :
    (l ++ [x]).eraseDups = if x ∈ l then l.eraseDups else l.eraseDups ++ [x] := by
  rw [List.eraseDups_append]
  by_cases seen : x ∈ l <;> simp [List.removeAll, List.eraseDups_cons, seen]

theorem nodup_eraseDups (l : List α) : l.eraseDups.Nodup := by
  induction l using List.reverseRecOn with
  | nil => exact List.nodup_nil
  | append_singleton l x ih =>
      rw [eraseDups_concat]
      split
      · exact ih
      · next new =>
        have apart : ∀ a ∈ l.eraseDups, ∀ b ∈ [x], a ≠ b := by
          rintro a listed b last rfl
          rw [List.mem_singleton.mp last] at listed
          exact new (List.mem_eraseDups.mp listed)
        exact List.nodup_append.mpr ⟨ih, List.nodup_singleton x, apart⟩

theorem eraseDups_sublist (l : List α) : l.eraseDups.Sublist l := by
  induction l using List.reverseRecOn with
  | nil => exact .slnil
  | append_singleton l x ih =>
      rw [eraseDups_concat]
      split
      · exact ih.trans (List.sublist_append_left l [x])
      · exact ih.append (.refl [x])

theorem eraseDups_of_nodup {l : List α} (distinct : l.Nodup) : l.eraseDups = l := by
  induction l using List.reverseRecOn with
  | nil => rfl
  | append_singleton l x ih =>
      obtain ⟨distinct', -, apart⟩ := List.nodup_append.mp distinct
      have new : x ∉ l := fun listed => apart x listed x (List.mem_singleton_self x) rfl
      rw [eraseDups_concat, if_neg new, ih distinct']

/-- Repeats within the parts of a list do not matter. -/
theorem eraseDups_append_eraseDups (l m : List α) :
    (l.eraseDups ++ m.eraseDups).eraseDups = (l ++ m).eraseDups := by
  induction m using List.reverseRecOn with
  | nil => simpa using eraseDups_of_nodup (nodup_eraseDups l)
  | append_singleton m x ih =>
      rw [eraseDups_concat, ← List.append_assoc, eraseDups_concat (l ++ m)]
      by_cases seen : x ∈ m
      · rw [if_pos seen, if_pos (List.mem_append_right l seen), ih]
      · rw [if_neg seen, ← List.append_assoc, eraseDups_concat, ih]
        simp only [List.mem_append, List.mem_eraseDups]

/-- A map that tells the elements of a list apart keeps its first occurrences. -/
theorem map_eraseDups {f : α → β} {l : List α} (apart : ∀ a ∈ l, ∀ b ∈ l, f a = f b → a = b) :
    l.eraseDups.map f = (l.map f).eraseDups := by
  induction l using List.reverseRecOn with
  | nil => rfl
  | append_singleton l x ih =>
      have kept := ih fun a listed b listed' =>
        apart a (List.mem_append_left _ listed) b (List.mem_append_left _ listed')
      have seen : f x ∈ l.map f ↔ x ∈ l := by
        refine ⟨fun image => ?_, List.mem_map_of_mem⟩
        obtain ⟨a, listed, same⟩ := List.mem_map.mp image
        exact apart a (List.mem_append_left _ listed) x (by simp) same ▸ listed
      rw [List.map_append, List.map_singleton, eraseDups_concat, eraseDups_concat]
      simp only [seen, ← kept]
      split <;> simp

end Foundation
