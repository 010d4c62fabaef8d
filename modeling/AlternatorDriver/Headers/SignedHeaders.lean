import AlternatorDriver.Headers.OptimizeHeaders
import Mathlib.Data.Char
import Mathlib.Data.List.Chain
import Mathlib.Data.List.Lex

/-!
# The grammar of signed headers

The parser takes an `Authorization` value apart by splits, trims and early returns. The
grammar puts one together: the algorithm, a space, and parameters between commas, each a
name and a value with blanks around them. The parser accepts just the texts of the grammar,
and finds the signed headers wherever their parameter stands.
-/

namespace AlternatorDriver

open Foundation

/-- The characters that a value is made of: printable ASCII, spaces and tabs. -/
def IsPrintable (c : Char) : Prop := c = '\t' ∨ 0x20 ≤ c.toNat ∧ c.toNat ≤ 0x7E

instance (c : Char) : Decidable (IsPrintable c) := inferInstanceAs (Decidable (_ ∨ _))

/-- A visible character that separates neither parameters nor a name from its value. -/
def IsParameterChar (c : Char) : Prop := 0x20 < c.toNat ∧ c.toNat ≤ 0x7E ∧ c ≠ '=' ∧ c ≠ ','

instance (c : Char) : Decidable (IsParameterChar c) := inferInstanceAs (Decidable (_ ∧ _))

/-- A parameter, with the blanks around it. -/
structure Parameter where
  before : Text
  name : Text
  value : Text
  after : Text
  blank_before : ∀ c ∈ before, c = ' ' ∨ c = '\t'
  blank_after : ∀ c ∈ after, c = ' ' ∨ c = '\t'
  name_nonempty : name ≠ []
  value_nonempty : value ≠ []
  name_chars : ∀ c ∈ name, IsParameterChar c
  value_chars : ∀ c ∈ value, IsParameterChar c

theorem IsParameterChar.visible {c : Char} (h : IsParameterChar c) : isWhitespace c = false := by
  obtain ⟨low, high, -⟩ := h
  simp only [isWhitespace, whitespaceCodes, List.contains_eq_mem, decide_eq_false_iff_not,
    List.mem_cons, List.not_mem_nil, or_false]
  omega

theorem IsParameterChar.asciiVisible {c : Char} (h : IsParameterChar c) :
    isAsciiWhitespace c = false := by
  obtain ⟨low, high, -⟩ := h
  simp only [isAsciiWhitespace, List.contains_eq_mem, decide_eq_false_iff_not, List.mem_cons,
    List.not_mem_nil, or_false]
  omega

theorem isWhitespace_of_blank {c : Char} (blank : c = ' ' ∨ c = '\t') : isWhitespace c = true := by
  obtain rfl | rfl := blank <;> decide

/-- The white space among the printable characters. -/
theorem blank_of_isWhitespace {c : Char} (printable : IsPrintable c)
    (blank : isWhitespace c = true) : c = ' ' ∨ c = '\t' := by
  obtain rfl | ⟨low, high⟩ := printable
  · exact .inr rfl
  · simp only [isWhitespace, whitespaceCodes, List.contains_eq_mem, decide_eq_true_eq,
      List.mem_cons, List.not_mem_nil, or_false] at blank
    have space : c.toNat = ' '.toNat := by
      change c.toNat = 0x20
      omega
    exact .inl (Char.toNat_inj.mp space)

/-- A printable character that is no white space is visible. -/
theorem lt_of_isAsciiWhitespace {c : Char} (printable : IsPrintable c)
    (visible : isAsciiWhitespace c = false) : 0x20 < c.toNat ∧ c.toNat ≤ 0x7E := by
  simp only [isAsciiWhitespace, List.contains_eq_mem, decide_eq_false_iff_not, List.mem_cons,
    List.not_mem_nil, or_false] at visible
  obtain rfl | ⟨low, high⟩ := printable
  · exact absurd (by decide) visible
  · omega

namespace Parameter

variable (p : Parameter)

/-- Whether the parameter lists the signed headers. -/
def IsSignedHeaders : Prop := p.name = "SignedHeaders".toList

/-- The parameter as it stands between the commas. -/
def text : Text := p.before ++ (p.name ++ '=' :: p.value) ++ p.after

theorem trim_text : Text.trim p.text = p.name ++ '=' :: p.value := by
  refine Text.trim_append (fun c member => isWhitespace_of_blank (p.blank_before c member))
    (fun c member => isWhitespace_of_blank (p.blank_after c member)) ?_ ?_
  · intro c first
    obtain ⟨first', rest, split⟩ := List.exists_cons_of_ne_nil p.name_nonempty
    rw [split] at first
    have same : first' = c := Option.some.inj first
    exact same ▸ (p.name_chars first' (by simp [split])).visible
  · intro c last
    rw [List.getLast?_append_of_ne_nil _ (by simp), List.getLast?_cons_of_ne_nil p.value_nonempty]
      at last
    exact (p.value_chars c (List.mem_of_getLast? last)).visible

theorem not_mem_text : ',' ∉ p.text := by
  intro comma
  simp only [text, List.mem_append, List.mem_cons] at comma
  obtain (comma | comma | comma | comma) | comma := comma
  · simpa using p.blank_before _ comma
  · exact (p.name_chars _ comma).2.2.2 rfl
  · cases comma
  · exact (p.value_chars _ comma).2.2.2 rfl
  · simpa using p.blank_after _ comma

theorem splitOnce_trim_text : Text.splitOnce '=' (Text.trim p.text) = some (p.name, p.value) := by
  rw [trim_text]
  exact Text.splitOnce_append p.value fun equals => (p.name_chars _ equals).2.2.1 rfl

theorem visible_trim_text : (Text.trim p.text).any isAsciiWhitespace = false := by
  simp only [trim_text, List.any_append, List.any_cons, List.any_eq_false, Bool.or_eq_false_iff,
    Bool.not_eq_true]
  exact ⟨fun c member => (p.name_chars c member).asciiVisible, by decide,
    fun c member => (p.value_chars c member).asciiVisible⟩

theorem contains_value : p.value.contains '=' = false := by
  simpa using fun equals => (p.value_chars _ equals).2.2.1 rfl

theorem trim_value : Text.trim p.value = p.value :=
  Text.trim_eq_self (fun c first => (p.value_chars c (List.mem_of_head? first)).visible)
    fun c last => (p.value_chars c (List.mem_of_getLast? last)).visible

end Parameter

section Scan

variable {found : Option Text} {value : Text}

/-- The loop over one parameter of the grammar. -/
theorem scanParameter_text (found : Option Text) (p : Parameter) (rest : List Text) :
    scanParameters found (p.text :: rest) =
      if p.name ≠ "SignedHeaders".toList then scanParameters found rest
      else if found.isSome then none else scanParameters (some p.value) rest := by
  have populated : (Text.trim p.text).isEmpty = false := by simp [p.trim_text]
  rw [scanParameters, populated, p.visible_trim_text, p.splitOnce_trim_text]
  simp only [Bool.or_self, Bool.false_eq_true, if_false]
  rw [p.contains_value, List.isEmpty_eq_false_iff.mpr p.name_nonempty,
    List.isEmpty_eq_false_iff.mpr p.value_nonempty, p.trim_value]
  simp only [Bool.or_self, Bool.false_eq_true, if_false]

theorem scanParameter_other {p : Parameter} (other : ¬ p.IsSignedHeaders) (rest : List Text) :
    scanParameters found (p.text :: rest) = scanParameters found rest := by
  rw [scanParameter_text]
  exact if_pos other

theorem scanParameter_signed {p : Parameter} (signed : p.IsSignedHeaders) (rest : List Text) :
    scanParameters found (p.text :: rest) =
      if found.isSome then none else scanParameters (some p.value) rest := by
  rw [scanParameter_text]
  exact if_neg (not_not.mpr signed)

/-- The loop goes past nothing but parameters. -/
theorem exists_parameter {piece : Text} {rest : List Text}
    (printable : ∀ c ∈ piece, IsPrintable c) (noComma : ',' ∉ piece)
    (passed : scanParameters found (piece :: rest) ≠ none) : ∃ p : Parameter, p.text = piece := by
  rw [scanParameters] at passed
  split at passed
  · exact absurd rfl passed
  · next visible =>
    split at passed
    · exact absurd rfl passed
    · next name value cut =>
      split at passed
      · exact absurd rfl passed
      · next nonempty =>
        obtain ⟨before, after, whole, blank, blank'⟩ := Text.exists_eq_trim piece
        obtain ⟨core, noEquals⟩ := Text.splitOnce_eq_some cut
        simp only [Bool.or_eq_true, not_or, List.isEmpty_iff, List.any_eq_true, not_exists,
          not_and, Bool.not_eq_true, List.contains_iff_mem] at visible nonempty
        rw [core] at whole visible
        have printableAt : ∀ c ∈ before ++ (name ++ '=' :: value) ++ after, IsPrintable c :=
          whole ▸ printable
        have noCommaAt : ',' ∉ before ++ (name ++ '=' :: value) ++ after := whole ▸ noComma
        simp only [List.mem_append, List.mem_cons, not_or] at printableAt noCommaAt visible
        refine ⟨⟨before, name, value, after, ?_, ?_, nonempty.1.1, nonempty.1.2, ?_, ?_⟩,
          whole.symm⟩
        · intro c member
          exact blank_of_isWhitespace (printableAt c (.inl (.inl member))) (blank c member)
        · intro c member
          exact blank_of_isWhitespace (printableAt c (.inr member)) (blank' c member)
        · intro c member
          obtain ⟨low, high⟩ := lt_of_isAsciiWhitespace
            (printableAt c (.inl (.inr (.inl member)))) (visible.2 c (.inl member))
          refine ⟨low, high, ?_, ?_⟩
          · rintro rfl
            exact noEquals member
          · rintro rfl
            exact noCommaAt.1.2.1 member
        · intro c member
          obtain ⟨low, high⟩ := lt_of_isAsciiWhitespace
            (printableAt c (.inl (.inr (.inr (.inr member))))) (visible.2 c (.inr (.inr member)))
          refine ⟨low, high, ?_, ?_⟩
          · rintro rfl
            exact nonempty.2 member
          · rintro rfl
            exact noCommaAt.1.2.2.2 member

theorem exists_parameters {pieces : List Text}
    (printable : ∀ piece ∈ pieces, ∀ c ∈ piece, IsPrintable c)
    (noComma : ∀ piece ∈ pieces, ',' ∉ piece) (passed : scanParameters found pieces ≠ none) :
    ∃ parameters : List Parameter, parameters.map Parameter.text = pieces := by
  induction pieces generalizing found with
  | nil => exact ⟨[], rfl⟩
  | cons piece rest ih =>
      obtain ⟨p, rfl⟩ := exists_parameter (printable _ List.mem_cons_self)
        (noComma _ List.mem_cons_self) passed
      have tail : ∃ found', scanParameters found' rest ≠ none := by
        by_cases signed : p.IsSignedHeaders
        · rw [scanParameter_signed signed] at passed
          split at passed
          · exact absurd rfl passed
          · exact ⟨_, passed⟩
        · rw [scanParameter_other signed] at passed
          exact ⟨_, passed⟩
      obtain ⟨found', passed'⟩ := tail
      obtain ⟨parameters, rfl⟩ := ih
        (fun piece listed => printable piece (List.mem_cons_of_mem _ listed))
        (fun piece listed => noComma piece (List.mem_cons_of_mem _ listed)) passed'
      exact ⟨p :: parameters, rfl⟩

/-- Once the signed headers are found, they must not come again. -/
theorem scanTexts_some (parameters : List Parameter) {signedHeaders : Text} :
    scanParameters (some signedHeaders) (parameters.map Parameter.text) = some (some value) ↔
      signedHeaders = value ∧ ∀ p ∈ parameters, ¬ p.IsSignedHeaders := by
  induction parameters with
  | nil => simp [scanParameters]
  | cons p parameters ih =>
      rw [List.map_cons]
      by_cases signed : p.IsSignedHeaders
      · rw [scanParameter_signed signed]
        simp [signed]
      · rw [scanParameter_other signed, ih]
        simp [signed]

/-- The loop finds the value of the one parameter with the name. -/
theorem scanTexts_none (parameters : List Parameter) :
    scanParameters none (parameters.map Parameter.text) = some (some value) ↔
      ∃ pre p post, parameters = pre ++ p :: post ∧ p.IsSignedHeaders ∧ p.value = value ∧
        ∀ q ∈ pre ++ post, ¬ q.IsSignedHeaders := by
  induction parameters with
  | nil => simp [scanParameters]
  | cons p parameters ih =>
      rw [List.map_cons]
      by_cases signed : p.IsSignedHeaders
      · rw [scanParameter_signed signed, if_neg (by simp), scanTexts_some]
        constructor
        · rintro ⟨found, others⟩
          exact ⟨[], p, parameters, rfl, signed, found, others⟩
        · rintro ⟨pre, q, post, split, -, found, others⟩
          cases pre with
          | nil =>
              obtain ⟨rfl, rfl⟩ := List.cons.inj split
              exact ⟨found, others⟩
          | cons p' pre =>
              obtain ⟨rfl, rfl⟩ := List.cons.inj split
              exact absurd signed (others p (by simp))
      · rw [scanParameter_other signed, ih]
        constructor
        · rintro ⟨pre, q, post, rfl, signed', found, others⟩
          exact ⟨p :: pre, q, post, rfl, signed', found, by simpa [signed] using others⟩
        · rintro ⟨pre, q, post, split, signed', found, others⟩
          cases pre with
          | nil =>
              obtain ⟨rfl, rfl⟩ := List.cons.inj split
              exact absurd signed' signed
          | cons p' pre =>
              obtain ⟨rfl, rfl⟩ := List.cons.inj split
              exact ⟨pre, q, post, rfl, signed', found, fun q' listed =>
                others q' (List.mem_cons_of_mem _ listed)⟩

end Scan

/-- A header value with these parameters. -/
def authorizationText (parameters : List Parameter) : Text :=
  "AWS4-HMAC-SHA256".toList ++ ' ' :: [','].intercalate (parameters.map Parameter.text)

/-- The grammar: among other parameters, in any place, one lists these signed headers. -/
def ListsSignedHeaders (authorization : Text) (headers : List Text) : Prop :=
  ∃ (pre : List Parameter) (p : Parameter) (post : List Parameter),
    authorization = authorizationText (pre ++ p :: post) ∧ p.IsSignedHeaders ∧
      (∀ q ∈ pre ++ post, ¬ q.IsSignedHeaders) ∧ p.value = [';'].intercalate headers ∧
      headers ≠ [] ∧ (∀ header ∈ headers, isCanonicalHeaderName header) ∧
      headers.Pairwise (· < ·)

/-- Neighbours ascend just when the whole list does. -/
theorem ascending_iff (headers : List Text) :
    ascending headers = true ↔ headers.Pairwise (· < ·) := by
  rw [← List.isChain_iff_pairwise]
  induction headers with
  | nil => simp [ascending]
  | cons first headers ih =>
      cases headers with
      | nil => simp [ascending]
      | cons second headers =>
          rw [List.isChain_cons_cons, ← ih]
          simp [ascending]

theorem not_mem_of_isCanonicalHeaderName {header : Text}
    (canonical : isCanonicalHeaderName header) :
    ';' ∉ header := by
  intro separator
  simp only [isCanonicalHeaderName, Bool.and_eq_true, List.all_eq_true] at canonical
  exact absurd (canonical.2 ';' separator) (by decide)

/-- The end of the parser: the pieces of the value it has found. -/
theorem parseSignedHeaders_parameters (parameters : List Parameter) (populated : parameters ≠ [])
    (headers : List Text) :
    parseSignedHeaders (authorizationText parameters) = some headers ↔
      ∃ value, scanParameters none (parameters.map Parameter.text) = some (some value) ∧
        value = [';'].intercalate headers ∧ headers ≠ [] ∧
        (∀ header ∈ headers, isCanonicalHeaderName header) ∧ headers.Pairwise (· < ·) := by
  have cut : Text.splitOnce ' ' (authorizationText parameters) =
      some ("AWS4-HMAC-SHA256".toList, [','].intercalate (parameters.map Parameter.text)) :=
    Text.splitOnce_append _ (by decide)
  have pieces : ([','].intercalate (parameters.map Parameter.text)).splitOn ',' =
      parameters.map Parameter.text := by
    refine List.splitOn_intercalate ',' ?_ (by simpa using populated)
    intro piece listed
    obtain ⟨p, -, rfl⟩ := List.mem_map.mp listed
    exact p.not_mem_text
  rw [parseSignedHeaders, cut]
  simp only [ne_eq, not_true_eq_false, if_false, pieces]
  cases scanParameters none (parameters.map Parameter.text) with
  | none => simp
  | some found =>
      cases found with
      | none => simp
      | some value =>
          simp only [Option.some.injEq, exists_eq_left', Bool.and_eq_true, ascending_iff,
            List.all_eq_true]
          constructor
          · intro parsed
            split at parsed
            · next checked =>
              cases parsed
              exact ⟨(List.intercalate_splitOn ';').symm, List.splitOn_ne_nil ';' value,
                checked.2, checked.1⟩
            · cases parsed
          · rintro ⟨rfl, nonempty, canonical, ascends⟩
            have names : ([';'].intercalate headers).splitOn ';' = headers :=
              List.splitOn_intercalate ';' (fun header listed =>
                not_mem_of_isCanonicalHeaderName (canonical header listed)) nonempty
            rw [names, if_pos ⟨ascends, canonical⟩]

/-- The parser accepts the texts of the grammar. -/
theorem parseSignedHeaders_of_lists {authorization : Text} {headers : List Text}
    (lists : ListsSignedHeaders authorization headers) :
    parseSignedHeaders authorization = some headers := by
  obtain ⟨pre, p, post, rfl, signed, others, value, nonempty, canonical, ascends⟩ := lists
  rw [parseSignedHeaders_parameters _ (by simp)]
  refine ⟨p.value, ?_, value, nonempty, canonical, ascends⟩
  exact (scanTexts_none _).mpr ⟨pre, p, post, rfl, signed, rfl, others⟩

/-- The parser accepts nothing else. -/
theorem lists_of_parseSignedHeaders {authorization : Text} {headers : List Text}
    (printable : ∀ c ∈ authorization, IsPrintable c)
    (parsed : parseSignedHeaders authorization = some headers) :
    ListsSignedHeaders authorization headers := by
  have shape : ∃ parameters : List Parameter, parameters ≠ [] ∧
      authorization = authorizationText parameters := by
    rw [parseSignedHeaders] at parsed
    split at parsed
    · cases parsed
    · next algorithm text cut =>
      split at parsed
      · cases parsed
      · next named =>
        obtain ⟨whole, -⟩ := Text.splitOnce_eq_some cut
        have passed : scanParameters none (text.splitOn ',') ≠ none := by
          intro stopped
          simp [stopped] at parsed
        have printable' : ∀ piece ∈ text.splitOn ',', ∀ c ∈ piece, IsPrintable c := by
          intro piece listed c member
          obtain ⟨-, before, after, split, -⟩ := Text.mem_splitOn_iff.mp listed
          apply printable
          rw [whole, split]
          simp [member]
        obtain ⟨parameters, pieces⟩ := exists_parameters printable'
          (fun piece listed => Text.not_mem_of_mem_splitOn listed) passed
        have joined : [','].intercalate (parameters.map Parameter.text) = text := by
          rw [pieces, List.intercalate_splitOn]
        refine ⟨parameters, ?_, ?_⟩
        · rintro rfl
          exact List.splitOn_ne_nil ',' text pieces.symm
        · have same : algorithm = "AWS4-HMAC-SHA256".toList := not_not.mp named
          have rendered : authorizationText parameters = "AWS4-HMAC-SHA256".toList ++ ' ' :: text :=
            congrArg (fun rest => "AWS4-HMAC-SHA256".toList ++ ' ' :: rest) joined
          exact whole.trans ((congrArg (· ++ ' ' :: text) same).trans rendered.symm)
  obtain ⟨parameters, populated, rfl⟩ := shape
  rw [parseSignedHeaders_parameters _ populated] at parsed
  obtain ⟨value, scanned, rest⟩ := parsed
  obtain ⟨pre, p, post, rfl, signed, rfl, others⟩ := (scanTexts_none _).mp scanned
  exact ⟨pre, p, post, rfl, signed, others, rest⟩

section Render

theorem isParameterChar_of_all {text : Text} {c : Char}
    (all : (text.all fun d => decide (IsParameterChar d)) = true)
    (member : c ∈ text) : IsParameterChar c :=
  of_decide_eq_true (List.all_eq_true.mp all c member)

theorem isParameterChar_of_isHeaderNameChar {c : Char} (listed : isHeaderNameChar c = true) :
    IsParameterChar c := by
  have apart {d : Char} (other : c.toNat ≠ d.toNat) : c ≠ d := fun same => other (same ▸ rfl)
  simp only [isHeaderNameChar, Bool.or_eq_true] at listed
  obtain (lower | digit) | mark := listed
  · have bounds : 97 ≤ c.toNat ∧ c.toNat ≤ 122 := by
      obtain ⟨low, high⟩ := Bool.and_eq_true_iff.mp lower
      exact ⟨UInt32.le_iff_toNat_le.mp (of_decide_eq_true low),
        UInt32.le_iff_toNat_le.mp (of_decide_eq_true high)⟩
    refine ⟨by omega, by omega, apart ?_, apart ?_⟩
    · change c.toNat ≠ 61
      omega
    · change c.toNat ≠ 44
      omega
  · have bounds : 48 ≤ c.toNat ∧ c.toNat ≤ 57 := by
      obtain ⟨low, high⟩ := Bool.and_eq_true_iff.mp digit
      exact ⟨UInt32.le_iff_toNat_le.mp (of_decide_eq_true low),
        UInt32.le_iff_toNat_le.mp (of_decide_eq_true high)⟩
    refine ⟨by omega, by omega, apart ?_, apart ?_⟩
    · change c.toNat ≠ 61
      omega
    · change c.toNat ≠ 44
      omega
  · have member : c ∈ "!#$%&'*+-.^_`|~".toList := by simpa using mark
    exact isParameterChar_of_all (by decide) member

variable {headers : List Text}

theorem intercalate_nonempty (nonempty : headers ≠ [])
    (canonical : ∀ header ∈ headers, isCanonicalHeaderName header) :
    [';'].intercalate headers ≠ [] := by
  obtain ⟨first, rest, rfl⟩ := List.exists_cons_of_ne_nil nonempty
  have named : first ≠ [] := by
    rintro rfl
    exact absurd (canonical [] List.mem_cons_self) (by decide)
  cases rest with
  | nil => simpa using named
  | cons second rest => simp [List.intercalate_cons_cons]

theorem intercalate_chars (canonical : ∀ header ∈ headers, isCanonicalHeaderName header) :
    ∀ c ∈ [';'].intercalate headers, IsParameterChar c := by
  have chars {header : Text} (listed : isCanonicalHeaderName header) :
      ∀ c ∈ header, IsParameterChar c := by
    intro c member
    simp only [isCanonicalHeaderName, Bool.and_eq_true, List.all_eq_true] at listed
    exact isParameterChar_of_isHeaderNameChar (listed.2 c member)
  induction headers with
  | nil => simp
  | cons first rest ih =>
      have here := chars (canonical first List.mem_cons_self)
      have there := ih fun header listed => canonical header (List.mem_cons_of_mem _ listed)
      cases rest with
      | nil => simpa using here
      | cons second rest =>
          intro c member
          rw [List.intercalate_cons_cons, List.append_assoc, List.mem_append, List.mem_append,
            List.mem_singleton] at member
          obtain member | rfl | member := member
          · exact here c member
          · unfold IsParameterChar
            decide
          · exact there c member

/-- The parameter that lists these headers. -/
def Parameter.signed (before after : Text) (headers : List Text)
    (blank : ∀ c ∈ before, c = ' ' ∨ c = '\t') (blank' : ∀ c ∈ after, c = ' ' ∨ c = '\t')
    (nonempty : headers ≠ []) (canonical : ∀ header ∈ headers, isCanonicalHeaderName header) :
    Parameter where
  before := before
  name := "SignedHeaders".toList
  value := [';'].intercalate headers
  after := after
  blank_before := blank
  blank_after := blank'
  name_nonempty := by decide
  value_nonempty := intercalate_nonempty nonempty canonical
  name_chars := fun _ member => isParameterChar_of_all (by decide) member
  value_chars := intercalate_chars canonical

end Render

/-- The parser accepts exactly its grammar; in particular the signed headers come back from
any rendering. -/
theorem parseSignedHeaders_grammar (headers : List Text) :
    (∀ authorization : Text, (∀ c ∈ authorization, IsPrintable c) →
      (parseSignedHeaders authorization = some headers ↔
        ListsSignedHeaders authorization headers)) ∧
    ∀ (before after : Text) (blank : ∀ c ∈ before, c = ' ' ∨ c = '\t')
      (blank' : ∀ c ∈ after, c = ' ' ∨ c = '\t') (nonempty : headers ≠ [])
      (canonical : ∀ header ∈ headers, isCanonicalHeaderName header)
      (pre post : List Parameter), headers.Pairwise (· < ·) →
      (∀ q ∈ pre ++ post, ¬ q.IsSignedHeaders) →
      parseSignedHeaders (authorizationText
        (pre ++ .signed before after headers blank blank' nonempty canonical :: post)) =
          some headers := by
  refine ⟨fun authorization printable =>
    ⟨lists_of_parseSignedHeaders printable, parseSignedHeaders_of_lists⟩, ?_⟩
  intro before after blank blank' nonempty canonical pre post ascends others
  apply parseSignedHeaders_of_lists
  exact ⟨pre, _, post, rfl, rfl, others, rfl, nonempty, canonical, ascends⟩

/-- A value whose signed headers come second. -/
theorem parseSignedHeaders_grammar_second :
    ListsSignedHeaders "AWS4-HMAC-SHA256 Signature=s, SignedHeaders=host;x-a".toList
        ["host".toList, "x-a".toList] := by
  have printable : ("AWS4-HMAC-SHA256 Signature=s, SignedHeaders=host;x-a".toList.all fun c =>
      decide (IsPrintable c)) = true := by decide +kernel
  refine ((parseSignedHeaders_grammar _).1 _ fun c member => ?_).mp (by decide +kernel)
  exact of_decide_eq_true (List.all_eq_true.mp printable c member)

end AlternatorDriver
