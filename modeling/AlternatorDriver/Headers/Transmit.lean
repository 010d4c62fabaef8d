import AlternatorDriver.Headers.OptimizeHeaders

/-!
# Header stripping never breaks a signature

`modify_before_transmit` runs after the request has been signed. Whatever the access
key looks like, the headers that the `Authorization` value names as signed go out as
they were, except for the user agent, which the driver sets itself.
-/

namespace AlternatorDriver

open Foundation

def defaultUserAgent : Text := "scylladb-alternator-client-rust/1.0.0".toList

inductive UserAgent where
  | default
  | disabled
  | value (userAgent : Text)
  | transform (callback : Text → Option Text)

def UserAgent.resolve : UserAgent → Option Text
  | .default => some defaultUserAgent
  | .disabled => none
  | .value userAgent => some userAgent
  | .transform callback => callback defaultUserAgent

/-- The texts that a header map takes as a value: no control characters but the tab. -/
def isHeaderValue (value : Text) : Bool :=
  value.all fun c => (decide (32 ≤ c.toNat) && c.toNat != 127) || c == '\t'

inductive TransmitError where
  | invalidHeaderValue
  deriving DecidableEq

/-- The headers after the call, and its result. -/
def applyUserAgent (headers : Headers) (userAgent : UserAgent) :
    Headers × Except TransmitError Unit :=
  let headers := headers.remove .userAgent
  match userAgent.resolve with
  | none => (headers, .ok ())
  | some value =>
      if isHeaderValue value then (headers ++ [(.userAgent, value)], .ok ())
      else (headers, .error .invalidHeaderValue)

/-- The parts of the interceptor that this hook reads. -/
structure AlternatorInterceptor where
  optimizeHeaders : Bool
  userAgent : UserAgent
  preserveAuthHeaders : Bool

/-- `preserveAuthHeadersStore` is the override found in the request's configuration. -/
def AlternatorInterceptor.modifyBeforeTransmit (interceptor : AlternatorInterceptor)
    (preserveAuthHeadersStore : Option Bool) (headers : Headers) :
    Headers × Except TransmitError Unit :=
  let preserveAuthHeaders := preserveAuthHeadersStore.getD interceptor.preserveAuthHeaders
  let headers :=
    if interceptor.optimizeHeaders then stripHeaders headers preserveAuthHeaders else headers
  applyUserAgent headers interceptor.userAgent

theorem getAll_applyUserAgent (headers : Headers) (userAgent : UserAgent) {k : HeaderName}
    (other : k ≠ .userAgent) :
    (applyUserAgent headers userAgent).1.getAll k = headers.getAll k := by
  have removed := headers.getAll_remove_of_ne other
  unfold applyUserAgent
  cases userAgent.resolve with
  | none => exact removed
  | some value =>
      dsimp only
      split
      · have appended : ∀ h : Headers,
            Headers.getAll (h ++ [(.userAgent, value)]) k = h.getAll k := by
          intro h
          simp [Headers.getAll, Ne.symm other]
        rw [appended, removed]
      · exact removed

/-- What stands before the list of signed headers in an `Authorization` value. -/
def signedHeadersKey : Text := "SignedHeaders=".toList

/-- An element of a comma-separated `Authorization` value, with or without the algorithm
in front of the first one, that reads `SignedHeaders=list` after trimming. -/
def ReadsSignedHeaders (authorization list : Text) : Prop :=
  ∃ element, Text.trim element = signedHeadersKey ++ list ∧
    (element ∈ authorization.splitOn ',' ∨ ∃ algorithm parameters,
      Text.splitOnce ' ' authorization = some (algorithm, parameters) ∧
        element ∈ parameters.splitOn ',')

/-- A header is named in a `;`-separated list; header names have no case. -/
def IsNamedIn (k : HeaderName) (list : Text) : Prop :=
  ∃ name ∈ list.splitOn ';', name.map Char.toLower = k.text

theorem isWhitespace_of_isHeaderNameChar {c : Char} (h : isHeaderNameChar c.toLower = true) :
    isWhitespace c = false := by
  have blanks : ∀ n ∈ whitespaceCodes, isHeaderNameChar (Char.ofNat n).toLower = false := by
    decide
  by_contra blank
  have member : c.toNat ∈ whitespaceCodes := by
    simpa [isWhitespace] using blank
  have excluded := blanks _ member
  rw [Char.ofNat_toNat, h] at excluded
  cases excluded

theorem toLower_of_isHeaderNameChar {c : Char} (h : isHeaderNameChar c = true) : c.toLower = c := by
  have small : c.toNat < 128 := by
    simp only [isHeaderNameChar, Bool.or_eq_true, or_assoc] at h
    rcases h with lower | digit | special
    · have lower : (decide (c.val ≥ 'a'.val) && decide (c.val ≤ 'z'.val)) = true := lower
      simp only [Bool.and_eq_true, decide_eq_true_eq] at lower
      have le : c.val.toNat ≤ 'z'.val.toNat := UInt32.le_iff_toNat_le.mp lower.2
      exact Nat.lt_of_le_of_lt le (by decide)
    · simp only [Char.isDigit, Bool.and_eq_true, decide_eq_true_eq] at digit
      have le : c.val.toNat ≤ '9'.val.toNat := UInt32.le_iff_toNat_le.mp digit.2
      exact Nat.lt_of_le_of_lt le (by decide)
    · have ascii : ("!#$%&'*+-.^_`|~".toList.all fun c => c.toNat < 128) = true := by decide
      have small := List.all_eq_true.mp ascii c (by simpa using special)
      exact of_decide_eq_true small
  have table : ∀ n < 128, isHeaderNameChar (Char.ofNat n) = true →
      (Char.ofNat n).toLower = Char.ofNat n := by
    decide
  have lower := table c.toNat small
  rw [Char.ofNat_toNat] at lower
  exact lower h

/-- The value of a parameter is what follows the key in it. -/
theorem splitOnce_signedHeadersKey (list : Text) :
    Text.splitOnce '=' (signedHeadersKey ++ list) = some ("SignedHeaders".toList, list) :=
  @Text.splitOnce_append '=' "SignedHeaders".toList list (by decide)

/-- One turn of the parameter loop that does not give up: the parameter is some other
one, or the first that reads `SignedHeaders=list`. -/
theorem scanParameters_cons {signedHeaders result : Option Text} {parameter : Text}
    {rest : List Text} (h : scanParameters signedHeaders (parameter :: rest) = some result) :
    ((∀ list, Text.trim parameter ≠ signedHeadersKey ++ list) ∧
      scanParameters signedHeaders rest = some result) ∨
    (signedHeaders = none ∧ ∃ list, Text.trim parameter = signedHeadersKey ++ list ∧
      scanParameters (some (Text.trim list)) rest = some result) := by
  unfold scanParameters at h
  split at h
  · cases h
  · cases once : Text.splitOnce '=' (Text.trim parameter) with
    | none => simp [once] at h
    | some halves =>
        obtain ⟨name, value⟩ := halves
        simp only [once] at h
        split at h
        · cases h
        · split at h
          · rename_i other
            refine .inl ⟨?_, h⟩
            intro list reads
            rw [reads, splitOnce_signedHeadersKey] at once
            cases once
            exact other rfl
          · rename_i same
            split at h
            · cases h
            · rename_i first
              refine .inr ⟨by simpa using first, value, ?_, h⟩
              rw [(Text.splitOnce_eq_some once).1, not_ne_iff.mp same]
              rfl

/-- A value once found is the only one, and stays. -/
theorem scanParameters_some {found : Text} {result : Option Text} {parameters : List Text}
    (h : scanParameters (some found) parameters = some result) :
    result = some found ∧
      ∀ parameter ∈ parameters, ∀ list, Text.trim parameter ≠ signedHeadersKey ++ list := by
  induction parameters with
  | nil =>
      cases h
      simp
  | cons parameter rest ih =>
      rcases scanParameters_cons h with ⟨other, h⟩ | ⟨none, -⟩
      · obtain ⟨same, others⟩ := ih h
        exact ⟨same, List.forall_mem_cons.mpr ⟨other, others⟩⟩
      · cases none

/-- The loop returns the list of any parameter that reads `SignedHeaders=list`. -/
theorem scanParameters_reads {found list parameter : Text} {parameters : List Text}
    (h : scanParameters none parameters = some (some found)) (member : parameter ∈ parameters)
    (reads : Text.trim parameter = signedHeadersKey ++ list) : found = Text.trim list := by
  induction parameters with
  | nil => cases member
  | cons first rest ih =>
      rcases scanParameters_cons h with ⟨other, h⟩ | ⟨-, list', reads', h⟩
      · rcases List.mem_cons.mp member with rfl | member
        · exact absurd reads (other list)
        · exact ih h member
      · obtain ⟨same, others⟩ := scanParameters_some h
        rcases List.mem_cons.mp member with rfl | member
        · rw [reads] at reads'
          cases List.append_cancel_left reads'
          exact Option.some.inj same
        · exact absurd reads (others parameter member list)

/-- The whole value split at commas differs from its parameters in the first piece only,
which begins with the algorithm. -/
theorem mem_splitOn_parameters {algorithm parameters element list : Text}
    (free : ',' ∉ algorithm) (first : algorithm.head? = some 'A')
    (member : element ∈ (algorithm ++ ' ' :: parameters).splitOn ',')
    (reads : Text.trim element = signedHeadersKey ++ list) : element ∈ parameters.splitOn ',' := by
  rw [show algorithm ++ ' ' :: parameters = (algorithm ++ [' ']) ++ parameters by simp,
    Text.splitOn_append_of_not_mem (by simp [free])] at member
  obtain ⟨head, tail, split⟩ := List.exists_cons_of_ne_nil (List.splitOn_ne_nil ',' parameters)
  rw [split, List.modifyHead_cons, List.mem_cons] at member
  rcases member with rfl | member
  · -- This piece begins with the algorithm, not with the key.
    have starts : (algorithm ++ [' '] ++ head).head? = some 'A' := by
      cases algorithm with
      | nil => cases first
      | cons c algorithm => exact first
    have trimmed := Text.head?_trim starts (by decide)
    rw [reads] at trimmed
    cases trimmed
  · exact split ▸ List.mem_cons_of_mem head member

/-- When the value is understood, an element that reads `SignedHeaders=list` is the one
the parser took its names from. -/
theorem parseSignedHeaders_reads {authorization list : Text} {signedHeaders : List Text}
    (parsed : parseSignedHeaders authorization = some signedHeaders)
    (reads : ReadsSignedHeaders authorization list) :
    signedHeaders = (Text.trim list).splitOn ';' ∧
      ∀ name ∈ signedHeaders, isCanonicalHeaderName name = true := by
  unfold parseSignedHeaders at parsed
  cases once : Text.splitOnce ' ' authorization with
  | none => simp [once] at parsed
  | some halves =>
      obtain ⟨algorithm, parameters⟩ := halves
      simp only [once] at parsed
      split at parsed
      · cases parsed
      · rename_i supported
        split at parsed
        · rename_i found scanned
          split at parsed
          · rename_i valid
            cases parsed
            obtain ⟨element, isKey, member⟩ := reads
            have parameter : element ∈ parameters.splitOn ',' := by
              rcases member with member | ⟨algorithm', parameters', once', member⟩
              · rw [(Text.splitOnce_eq_some once).1] at member
                rw [not_ne_iff.mp supported] at member
                exact mem_splitOn_parameters (by decide) rfl member isKey
              · rw [once] at once'
                cases once'
                exact member
            rw [scanParameters_reads scanned parameter isKey] at valid ⊢
            rw [Bool.and_eq_true, List.all_eq_true] at valid
            exact ⟨rfl, valid.2⟩
          · cases parsed
        · cases parsed

/-- A header named in the list of such an element is among the parsed names. -/
theorem mem_of_isNamedIn {list : Text} {k : HeaderName} (named : IsNamedIn k list)
    (canonical : ∀ name ∈ (Text.trim list).splitOn ';', isCanonicalHeaderName name = true) :
    k.text ∈ (Text.trim list).splitOn ';' := by
  obtain ⟨name, member, lower⟩ := named
  have valid := k.canonical
  simp only [isCanonicalHeaderName, Bool.and_eq_true, List.all_eq_true] at valid
  have nonempty : name ≠ [] := by
    rintro rfl
    rw [← lower] at valid
    simp at valid
  have visible : ∀ c ∈ name, isWhitespace c = false := by
    intro c hc
    exact isWhitespace_of_isHeaderNameChar (valid.2 _ (lower ▸ List.mem_map_of_mem hc))
  have kept := Text.mem_splitOn_trim (by decide) nonempty visible member
  have tokens := canonical name kept
  simp only [isCanonicalHeaderName, Bool.and_eq_true, List.all_eq_true] at tokens
  have same : name.map Char.toLower = name := by
    conv_rhs => rw [← List.map_id name]
    exact List.map_congr_left fun c hc => toLower_of_isHeaderNameChar (tokens.2 c hc)
  rw [← lower, same]
  exact kept

/-- Stripping leaves the headers named in any element that reads `SignedHeaders=list`. -/
theorem getAll_stripHeaders_of_reads {headers : Headers} {authorization list : Text}
    {k : HeaderName} (present : authorization ∈ headers.getAll .authorization)
    (reads : ReadsSignedHeaders authorization list) (named : IsNamedIn k list) :
    (stripHeaders headers true).getAll k = headers.getAll k := by
  rw [stripHeaders_eq]
  cases parsed : signedHeadersOf headers true with
  | none => rfl
  | some signedHeaders =>
      dsimp only
      -- Only a single `Authorization` value is parsed, so it is this one.
      have single : parseSignedHeaders authorization = some signedHeaders := by
        simp only [signedHeadersOf, if_true] at parsed
        split at parsed
        · rename_i only values
          rw [values, List.mem_singleton] at present
          rw [present, parsed]
        · cases parsed
      obtain ⟨rfl, canonical⟩ := parseSignedHeaders_reads single reads
      have signed := mem_of_isNamedIn named canonical
      have allowed : isAllowed true ((Text.trim list).splitOn ';') k = true := by
        simp [isAllowed, signed]
      rw [Headers.getAll_filter, allowed, if_pos rfl]

def credentialKey : Text := "AWS4-HMAC-SHA256 Credential=".toList

def signatureKey : Text := " Signature=".toList

/-- The value that the SDK's signer writes, for any access key, scope and signature. -/
def sdkAuthorization (accessKey scope : Text) (signed : List HeaderName) (signature : Text) :
    Text :=
  credentialKey ++ accessKey ++ '/' :: scope ++
    ',' :: ' ' :: (signedHeadersKey ++ [';'].intercalate (signed.map (·.text))) ++
    ',' :: (signatureKey ++ signature)

theorem HeaderName.not_mem_text (k : HeaderName) {c : Char} (h : isHeaderNameChar c = false) :
    c ∉ k.text := by
  intro member
  have valid := k.canonical
  simp only [isCanonicalHeaderName, Bool.and_eq_true, List.all_eq_true] at valid
  rw [valid.2 c member] at h
  cases h

theorem mem_intercalate {sep c : Char} {pieces : List Text} (h : c ∈ [sep].intercalate pieces) :
    c = sep ∨ ∃ piece ∈ pieces, c ∈ piece := by
  induction pieces with
  | nil => simp at h
  | cons piece pieces ih =>
      cases pieces with
      | nil => exact .inr ⟨piece, List.mem_cons_self, by simpa using h⟩
      | cons next pieces =>
          rw [List.intercalate_cons_of_ne_nil (by simp)] at h
          simp only [List.mem_append, List.mem_singleton] at h
          rcases h with (h | h) | h
          · exact .inr ⟨piece, List.mem_cons_self, h⟩
          · exact .inl h
          · rcases ih h with rfl | ⟨found, member, h⟩
            · exact .inl rfl
            · exact .inr ⟨found, List.mem_cons_of_mem _ member, h⟩

/-- The list of signed headers is an element of its own, whatever the access key is. -/
theorem sdkAuthorization_reads (accessKey scope : Text) (signed : List HeaderName)
    (signature : Text) :
    ReadsSignedHeaders (sdkAuthorization accessKey scope signed signature)
      ([';'].intercalate (signed.map (·.text))) := by
  have names : ∀ c ∈ [';'].intercalate (signed.map (·.text)),
      c = ';' ∨ isHeaderNameChar c = true := by
    intro c member
    rcases mem_intercalate member with rfl | ⟨text, listed, member⟩
    · exact .inl rfl
    · obtain ⟨k, -, rfl⟩ := List.mem_map.mp listed
      right
      by_contra other
      exact k.not_mem_text (by simpa using other) member
  refine ⟨' ' :: (signedHeadersKey ++ [';'].intercalate (signed.map (·.text))), ?_, .inl ?_⟩
  · rw [Text.trim_cons (by decide)]
    refine Text.trim_eq_self ?_ ?_
    · intro c first
      rw [List.head?_append, show signedHeadersKey.head? = some 'S' by decide] at first
      cases first
      decide
    · intro c last
      rcases List.mem_append.mp (List.mem_of_getLast? last) with member | member
      · have visible : (signedHeadersKey.all fun c => !isWhitespace c) = true := by decide
        have black := List.all_eq_true.mp visible c member
        rwa [Bool.not_eq_true'] at black
      · rcases names c member with rfl | token
        · decide
        · refine isWhitespace_of_isHeaderNameChar ?_
          rwa [toLower_of_isHeaderNameChar token]
  · refine Text.mem_splitOn_iff.mpr ⟨?_, credentialKey ++ accessKey ++ '/' :: scope ++ [','],
      ',' :: (signatureKey ++ signature), ?_, .inr ⟨_, rfl⟩, .inr ⟨_, rfl⟩⟩
    · simp only [List.mem_cons, List.mem_append, not_or]
      refine ⟨by decide, by decide, ?_⟩
      intro member
      rcases names _ member with separator | token
      · exact absurd separator (by decide)
      · exact absurd token (by decide)
    · simp [sdkAuthorization]

theorem isNamedIn_intercalate {signed : List HeaderName} {k : HeaderName} (member : k ∈ signed) :
    IsNamedIn k ([';'].intercalate (signed.map (·.text))) := by
  have listed : k.text ∈ signed.map (·.text) := List.mem_map_of_mem member
  have free : ∀ name ∈ signed.map (·.text), ';' ∉ name := by
    intro name hname
    obtain ⟨k', -, rfl⟩ := List.mem_map.mp hname
    exact k'.not_mem_text (by decide)
  refine ⟨k.text, ?_, ?_⟩
  · rw [List.splitOn_intercalate ';' free (List.ne_nil_of_mem listed)]
    exact listed
  · have valid := k.canonical
    simp only [isCanonicalHeaderName, Bool.and_eq_true, List.all_eq_true] at valid
    conv_rhs => rw [← List.map_id k.text]
    exact List.map_congr_left fun c hc => toLower_of_isHeaderNameChar (valid.2 c hc)

/-- With optimization on and auth headers preserved, the hook leaves every header but the
user agent that an element reading `SignedHeaders=list` names. -/
theorem getAll_modifyBeforeTransmit {interceptor : AlternatorInterceptor} {store : Option Bool}
    {headers : Headers} {authorization list : Text} {k : HeaderName}
    (optimize : interceptor.optimizeHeaders = true)
    (preserve : store.getD interceptor.preserveAuthHeaders = true)
    (present : authorization ∈ headers.getAll .authorization)
    (reads : ReadsSignedHeaders authorization list) (named : IsNamedIn k list)
    (other : k ≠ .userAgent) :
    (interceptor.modifyBeforeTransmit store headers).1.getAll k = headers.getAll k := by
  unfold AlternatorInterceptor.modifyBeforeTransmit
  rw [getAll_applyUserAgent _ _ other, if_pos optimize, preserve]
  exact getAll_stripHeaders_of_reads present reads named

/-- Header stripping never breaks a signature: signed headers go out with their values,
stripping keeps exactly the listed headers or the whole request, once is enough, and the
access key cannot change any of that. -/
theorem header_stripping_never_breaks_signature :
    (∀ (interceptor : AlternatorInterceptor) (store : Option Bool) (headers : Headers),
      interceptor.optimizeHeaders = true → store.getD interceptor.preserveAuthHeaders = true →
      ∀ authorization ∈ headers.getAll .authorization,
        (∀ list k, ReadsSignedHeaders authorization list → IsNamedIn k list → k ≠ .userAgent →
          (interceptor.modifyBeforeTransmit store headers).1.getAll k = headers.getAll k) ∧
        ∀ accessKey scope signed signature,
          authorization = sdkAuthorization accessKey scope signed signature →
          ∀ k ∈ signed, k ≠ .userAgent →
            (interceptor.modifyBeforeTransmit store headers).1.getAll k = headers.getAll k) ∧
    (∀ headers authorization signedHeaders, Headers.getAll headers .authorization = [authorization] →
      parseSignedHeaders authorization = some signedHeaders →
      ∀ k, (stripHeaders headers true).getAll k =
        if k ∈ baseWhitelist ∨ k ∈ authWhitelist ∨ k.text ∈ signedHeaders then headers.getAll k
        else []) ∧
    (∀ headers, (∀ authorization, Headers.getAll headers .authorization = [authorization] →
      parseSignedHeaders authorization = none) → stripHeaders headers true = headers) ∧
    (∀ headers k, (stripHeaders headers false).getAll k =
      if k ∈ baseWhitelist then headers.getAll k else []) ∧
    ∀ headers preserveAuthHeaders,
      stripHeaders (stripHeaders headers preserveAuthHeaders) preserveAuthHeaders =
        stripHeaders headers preserveAuthHeaders := by
  refine ⟨?_, ?_, ?_, ?_, stripHeaders_idem⟩
  · intro interceptor store headers optimize preserve authorization present
    refine ⟨?_, ?_⟩
    · intro list k reads named other
      exact getAll_modifyBeforeTransmit optimize preserve present reads named other
    · rintro accessKey scope signed signature rfl k member other
      exact getAll_modifyBeforeTransmit optimize preserve present
        (sdkAuthorization_reads accessKey scope signed signature) (isNamedIn_intercalate member) other
  · intro headers authorization signedHeaders single parsed k
    have understood : signedHeadersOf headers true = some signedHeaders := by
      simp only [signedHeadersOf, if_true, single, parsed]
    rw [stripHeaders_eq, understood]
    dsimp only
    rw [Headers.getAll_filter]
    simp [isAllowed]
  · intro headers unparseable
    have notUnderstood : signedHeadersOf headers true = none := by
      simp only [signedHeadersOf, if_true]
      split
      · rename_i authorization single
        exact unparseable authorization single
      · rfl
    rw [stripHeaders_eq, notUnderstood]
  · intro headers k
    rw [stripHeaders_eq]
    simp only [signedHeadersOf, Bool.false_eq_true, if_false]
    rw [Headers.getAll_filter]
    simp [isAllowed]

/-- An access key that imitates the list of signed headers, on a request that is signed
with its date. -/
def imitatingAuthorization : Text :=
  sdkAuthorization "a, SignedHeaders=host".toList "s".toList [.host, .xAmzDate] "0".toList

theorem header_stripping_never_breaks_signature_imitated :
    (AlternatorInterceptor.modifyBeforeTransmit ⟨true, .disabled, true⟩ none
      [(.authorization, imitatingAuthorization), (.xAmzDate, "d".toList)]).1.getAll .xAmzDate =
      ["d".toList] := by
  obtain ⟨-, survives⟩ := header_stripping_never_breaks_signature.1 ⟨true, .disabled, true⟩ none
    [(.authorization, imitatingAuthorization), (.xAmzDate, "d".toList)] rfl rfl
    imitatingAuthorization (by rw [show Headers.getAll _ HeaderName.authorization =
      [imitatingAuthorization] from rfl]; exact List.mem_singleton_self _)
  rw [survives "a, SignedHeaders=host".toList "s".toList [.host, .xAmzDate] "0".toList
    (by rw [imitatingAuthorization]) .xAmzDate (by decide) (by decide)]
  rfl

end AlternatorDriver
