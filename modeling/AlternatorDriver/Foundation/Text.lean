import Mathlib.Data.List.DropRight
import Mathlib.Data.List.Induction

/-!
# Texts and how they are taken apart

A text is its list of characters. Splitting at a separator, splitting once, and
trimming white space are the operations of a standard library's strings; the lemmas
say which pieces a split has, and that trimming a text does not lose those of its
pieces that contain no white space.
-/

namespace Foundation

abbrev Text := List Char

/-- The code points with the Unicode property `White_Space`. -/
def whitespaceCodes : List Nat :=
  [0x9, 0xA, 0xB, 0xC, 0xD, 0x20, 0x85, 0xA0, 0x1680, 0x2000, 0x2001, 0x2002, 0x2003, 0x2004,
    0x2005, 0x2006, 0x2007, 0x2008, 0x2009, 0x200A, 0x2028, 0x2029, 0x202F, 0x205F, 0x3000]

def isWhitespace (c : Char) : Bool := whitespaceCodes.contains c.toNat

/-- The ASCII white space of a byte, which has no vertical tab. -/
def isAsciiWhitespace (c : Char) : Bool :=
  [0x9, 0xA, 0xC, 0xD, 0x20].contains c.toNat

namespace Text

/-- The text without white space at its ends. -/
def trim (text : Text) : Text := (text.dropWhile isWhitespace).rdropWhile isWhitespace

/-- What stands before and after the first separator, if there is one. -/
def splitOnce (sep : Char) (text : Text) : Option (Text × Text) :=
  match text.dropWhile (· != sep) with
  | [] => none
  | _ :: rest => some (text.takeWhile (· != sep), rest)

theorem splitOnce_eq_some {sep : Char} {text before after : Text}
    (h : splitOnce sep text = some (before, after)) :
    text = before ++ sep :: after ∧ sep ∉ before := by
  have whole := List.takeWhile_append_dropWhile (p := (· != sep)) (l := text)
  unfold splitOnce at h
  cases rest : text.dropWhile (· != sep) with
  | nil => simp [rest] at h
  | cons c tail =>
      simp only [rest, Option.some.injEq, Prod.mk.injEq] at h
      obtain ⟨rfl, rfl⟩ := h
      have isSep : c = sep := by
        have stops := List.head_dropWhile_not (· != sep) (l := text) (by rw [rest]; simp)
        simpa [rest] using stops
      constructor
      · rw [← isSep, ← rest]
        simpa only [isSep] using whole.symm
      · intro inside
        simpa using List.mem_takeWhile_imp inside

theorem splitOnce_append {sep : Char} {before : Text} (after : Text) (h : sep ∉ before) :
    splitOnce sep (before ++ sep :: after) = some (before, after) := by
  have passed : ∀ c ∈ before, (c != sep) = true := by
    intro c hc
    simp only [bne_iff_ne]
    rintro rfl
    exact h hc
  simp [splitOnce, List.dropWhile_append_of_pos passed, List.takeWhile_append_of_pos passed]

/-- The text before a suffix, if it ends with it. -/
def stripSuffix (suffix text : Text) : Option Text :=
  if suffix.isSuffixOf text then some (text.take (text.length - suffix.length)) else none

theorem stripSuffix_eq_some {suffix text rest : Text} :
    stripSuffix suffix text = some rest ↔ text = rest ++ suffix := by
  rw [stripSuffix]
  constructor
  · intro stripped
    split at stripped
    · next ends =>
      obtain ⟨front, rfl⟩ := List.isSuffixOf_iff_suffix.mp ends
      rw [List.length_append, Nat.add_sub_cancel, List.take_left] at stripped
      rw [Option.some.inj stripped]
    · cases stripped
  · rintro rfl
    rw [if_pos (List.isSuffixOf_iff_suffix.mpr (List.suffix_append _ _)), List.length_append,
      Nat.add_sub_cancel, List.take_left]

theorem not_mem_of_mem_splitOn {sep : Char} {piece text : Text} (h : piece ∈ text.splitOn sep) :
    sep ∉ piece := by
  induction text generalizing piece with
  | nil =>
      rw [List.splitOn_nil, List.mem_singleton] at h
      simp [h]
  | cons x text ih =>
      rw [List.splitOn_cons_eq_if_modifyHead] at h
      split at h
      · rcases List.mem_cons.mp h with rfl | h
        · exact List.not_mem_nil
        · exact ih h
      · rename_i other
        obtain ⟨head, tail, split⟩ := List.exists_cons_of_ne_nil (List.splitOn_ne_nil sep text)
        rw [split, List.modifyHead_cons, List.mem_cons] at h
        rcases h with rfl | h
        · have headFree := ih (split ▸ List.mem_cons_self)
          have notHere : sep ≠ x := by
            rintro rfl
            simp at other
          simp [notHere, headFree]
        · exact ih (split ▸ List.mem_cons_of_mem _ h)

/-- A piece stands between the start or a separator, and the end or a separator. -/
def Delimited (sep : Char) (before after : Text) : Prop :=
  (before = [] ∨ ∃ pre, before = pre ++ [sep]) ∧ (after = [] ∨ ∃ post, after = sep :: post)

theorem delimited_of_intercalate (sep : Char) (pieces : List Text) (piece : Text)
    (others : List Text) :
    ∃ before after, [sep].intercalate (pieces ++ piece :: others) = before ++ piece ++ after ∧
      Delimited sep before after := by
  induction pieces with
  | nil =>
      cases others with
      | nil => exact ⟨[], [], by simp, .inl rfl, .inl rfl⟩
      | cons next others =>
          refine ⟨[], sep :: [sep].intercalate (next :: others), ?_, .inl rfl, .inr ⟨_, rfl⟩⟩
          simp [List.intercalate_cons_of_ne_nil]
  | cons first pieces ih =>
      obtain ⟨before, after, whole, start, stop⟩ := ih
      refine ⟨first ++ sep :: before, after, ?_, .inr ?_, stop⟩
      · rw [List.cons_append, List.intercalate_cons_of_ne_nil (by simp), whole]
        simp
      · rcases start with rfl | ⟨pre, rfl⟩
        · exact ⟨first, rfl⟩
        · exact ⟨first ++ sep :: pre, by simp⟩

/-- The pieces of a split are the delimited parts of the text without a separator. -/
theorem mem_splitOn_iff {sep : Char} {piece text : Text} :
    piece ∈ text.splitOn sep ↔ sep ∉ piece ∧
      ∃ before after, text = before ++ piece ++ after ∧ Delimited sep before after := by
  constructor
  · intro h
    refine ⟨not_mem_of_mem_splitOn h, ?_⟩
    obtain ⟨pieces, others, split⟩ := List.append_of_mem h
    obtain ⟨before, after, whole, delimited⟩ :=
      delimited_of_intercalate sep pieces piece others
    refine ⟨before, after, ?_, delimited⟩
    rw [← whole, ← split, List.intercalate_splitOn]
  · rintro ⟨free, before, after, rfl, start, stop⟩
    have tail : piece ∈ (piece ++ after).splitOn sep := by
      rcases stop with rfl | ⟨post, rfl⟩
      · simp [List.splitOn_eq_singleton free]
      · rw [List.splitOn_append_cons_self_of_not_mem free]
        exact List.mem_cons_self
    rcases start with rfl | ⟨pre, rfl⟩
    · exact tail
    · rw [show pre ++ [sep] ++ piece ++ after = pre ++ sep :: (piece ++ after) by simp,
        List.splitOn_append_cons_self]
      exact List.mem_append_right _ tail

/-- What stands before the first separator belongs to the first piece. -/
theorem splitOn_append_of_not_mem {sep : Char} {before after : Text} (free : sep ∉ before) :
    (before ++ after).splitOn sep = (after.splitOn sep).modifyHead (before ++ ·) := by
  induction before with
  | nil =>
      obtain ⟨head, tail, split⟩ := List.exists_cons_of_ne_nil (List.splitOn_ne_nil sep after)
      simp [split]
  | cons c before ih =>
      rw [List.mem_cons, not_or] at free
      have other : (c == sep) = false := beq_eq_false_iff_ne.mpr (Ne.symm free.1)
      obtain ⟨head, tail, split⟩ := List.exists_cons_of_ne_nil (List.splitOn_ne_nil sep after)
      rw [List.cons_append, List.splitOn_cons_eq_if_modifyHead, other, ih free.2]
      simp [split]

section Trim

variable {text : Text}

theorem trim_eq_self (first : ∀ c ∈ text.head?, isWhitespace c = false)
    (last : ∀ c ∈ text.getLast?, isWhitespace c = false) : trim text = text := by
  have front : text.dropWhile isWhitespace = text := by
    cases text with
    | nil => rfl
    | cons c text => simp [first c rfl]
  unfold trim
  rw [front, List.rdropWhile_eq_self_iff]
  intro nonempty
  simp [last _ (List.getLast?_eq_some_getLast nonempty)]

theorem trim_cons {c : Char} (blank : isWhitespace c = true) : trim (c :: text) = trim text := by
  simp [trim, blank]

theorem trim_concat {c : Char} (blank : isWhitespace c = true) :
    trim (text ++ [c]) = trim text := by
  unfold trim
  rw [List.dropWhile_append]
  split
  · next gone =>
    rw [List.isEmpty_iff.mp gone]
    simp [blank]
  · exact List.rdropWhile_concat_pos _ _ _ blank

/-- Trimming removes the white space around a text that starts and ends visibly. -/
theorem trim_append {before after : Text} (blank : ∀ c ∈ before, isWhitespace c = true)
    (blank' : ∀ c ∈ after, isWhitespace c = true)
    (first : ∀ c ∈ text.head?, isWhitespace c = false)
    (last : ∀ c ∈ text.getLast?, isWhitespace c = false) :
    trim (before ++ text ++ after) = text := by
  have front : trim (before ++ (text ++ after)) = trim (text ++ after) := by
    induction before with
    | nil => rfl
    | cons c before ih =>
        rw [List.cons_append, trim_cons (blank c List.mem_cons_self)]
        exact ih fun d member => blank d (List.mem_cons_of_mem c member)
  have back : trim (text ++ after) = trim text := by
    clear front
    induction after using List.reverseRecOn with
    | nil => rw [List.append_nil]
    | append_singleton after c ih =>
        rw [← List.append_assoc, trim_concat (blank' c (by simp))]
        exact ih fun d member => blank' d (List.mem_append_left _ member)
  rw [List.append_assoc, front, back, trim_eq_self first last]

/-- A text is what trimming leaves, with white space around it. -/
theorem exists_eq_trim (text : Text) : ∃ before after, text = before ++ trim text ++ after ∧
    (∀ c ∈ before, isWhitespace c = true) ∧ ∀ c ∈ after, isWhitespace c = true := by
  refine ⟨text.takeWhile isWhitespace, (text.dropWhile isWhitespace).rtakeWhile isWhitespace,
    ?_, fun c member => List.mem_takeWhile_imp member, fun c member => ?_⟩
  · rw [trim, List.append_assoc, List.rdropWhile_append_rtakeWhile,
      List.takeWhile_append_dropWhile]
  · rw [List.rtakeWhile, List.mem_reverse] at member
    exact List.mem_takeWhile_imp member

/-- Trimming keeps a first character that is no white space. -/
theorem head?_trim {c : Char} (first : text.head? = some c) (visible : isWhitespace c = false) :
    (trim text).head? = some c := by
  cases text with
  | nil => cases first
  | cons c' text =>
      cases first
      have front : (c :: text).dropWhile isWhitespace = c :: text := by
        simp [visible]
      unfold trim
      rw [front]
      obtain ⟨dropped, whole⟩ := List.rdropWhile_prefix isWhitespace (l := c :: text)
      cases kept : (c :: text).rdropWhile isWhitespace with
      | nil =>
          have := (List.rdropWhile_eq_nil_iff ..).mp kept c List.mem_cons_self
          rw [visible] at this
          cases this
      | cons c'' rest =>
          rw [kept] at whole
          cases whole
          rfl

theorem dropWhile_append_cons {sep : Char} (visible : isWhitespace sep = false)
    (before after : Text) :
    (before ++ sep :: after).dropWhile isWhitespace =
      before.dropWhile isWhitespace ++ sep :: after := by
  induction before with
  | nil => simp [visible]
  | cons c before ih =>
      by_cases blank : isWhitespace c = true
      · simp [blank, ih]
      · simp [blank]

theorem rdropWhile_append_cons {sep : Char} (visible : isWhitespace sep = false)
    (before after : Text) :
    (before ++ sep :: after).rdropWhile isWhitespace =
      before ++ sep :: after.rdropWhile isWhitespace := by
  have flipped := dropWhile_append_cons visible after.reverse before.reverse
  simp only [List.rdropWhile, List.reverse_append, List.reverse_cons, List.append_assoc,
    List.singleton_append]
  rw [flipped]
  simp

/-- A visible piece of a split survives the trimming of the whole text. -/
theorem mem_splitOn_trim {sep : Char} {piece : Text} (visibleSep : isWhitespace sep = false)
    (nonempty : piece ≠ []) (visible : ∀ c ∈ piece, isWhitespace c = false)
    (h : piece ∈ text.splitOn sep) : piece ∈ (trim text).splitOn sep := by
  obtain ⟨free, before, after, rfl, start, stop⟩ := mem_splitOn_iff.mp h
  obtain ⟨first, others, rfl⟩ := List.exists_cons_of_ne_nil nonempty
  have visibleFirst := visible first List.mem_cons_self
  -- The front of the text: white space goes up to the first separator at most.
  have front : ∃ before', (before ++ (first :: others) ++ after).dropWhile isWhitespace =
      before' ++ (first :: others) ++ after ∧ (before' = [] ∨ ∃ pre, before' = pre ++ [sep]) := by
    refine ⟨before.dropWhile isWhitespace, ?_, ?_⟩
    · rw [List.append_assoc, List.cons_append, dropWhile_append_cons visibleFirst]
      simp
    · rcases start with rfl | ⟨pre, rfl⟩
      · exact .inl rfl
      · exact .inr ⟨pre.dropWhile isWhitespace, dropWhile_append_cons visibleSep pre []⟩
  obtain ⟨before', cut, start'⟩ := front
  refine mem_splitOn_iff.mpr ⟨free, before', after.rdropWhile isWhitespace, ?_, start', ?_⟩
  · unfold trim
    rw [cut]
    rcases stop with rfl | ⟨post, rfl⟩
    · have visibleLast : isWhitespace ((first :: others).getLast (by simp)) = false :=
        visible _ (List.getLast_mem _)
      rw [List.append_nil, List.rdropWhile_nil, List.append_nil, List.rdropWhile_eq_self_iff]
      intro _
      rw [List.getLast_append_of_ne_nil _ (by simp), visibleLast]
      simp
    · rw [rdropWhile_append_cons visibleSep]
      congr 1
      simpa using (rdropWhile_append_cons visibleSep [] post).symm
  · rcases stop with rfl | ⟨post, rfl⟩
    · exact .inl (by simp)
    · exact .inr ⟨post.rdropWhile isWhitespace, rdropWhile_append_cons visibleSep [] post⟩

end Trim

end Text

end Foundation
