import AlternatorDriver.Compression.Response

/-!
# The encodings of a response

A response lists its encodings in any number of headers, each with any number of tokens. The
interceptor goes through them before it touches the response, and checks their number again
while the body is taken out. What it does depends on the tokens alone, however they are
spread over headers, and a response that it does not understand stays as it is.
-/

namespace AlternatorDriver

open Foundation Reader

inductive ResponseError where
  | layerLimitExceeded (e : EncodingLayerLimitExceeded)
  | message (text : Text)
  deriving DecidableEq

/-- The limits of a `ResponseCompression`. -/
structure ResponseCompression where
  maxEncodingLayers : Nat
  maxDecompressedBytes : Nat

structure Response (Body : Type u) where
  headers : Headers
  body : Body

/-- A body as it was received, or one that is decoded while it is read. -/
inductive ResponseBody : Type 1 where
  | received (events : List BodyEvent)
  | decompressed (reader : AsyncRead)

/-- The response without a change. -/
def Response.received (response : Response (List BodyEvent)) : Response ResponseBody :=
  ⟨response.headers, .received response.body⟩

def unsupportedContentEncoding (token : Text) : Text :=
  "unsupported Content-Encoding: '".toList ++ token ++
    "'. Supported encodings are: gzip, deflate".toList

/-- One token of a header value, after the algorithms found so far. -/
def collectToken (maxEncodingLayers : Nat) (algorithms : List ResponseCompressionAlgorithm)
    (token : Text) : Except ResponseError (List ResponseCompressionAlgorithm) :=
  if token.isEmpty then .ok algorithms
  else
    match validateResponseEncodingLayerCount (algorithms.length + 1) maxEncodingLayers with
    | .error e => .error (.layerLimitExceeded e)
    | .ok () =>
        match ResponseCompressionAlgorithm.fromContentEncoding token with
        | some algo => .ok (algorithms ++ [algo])
        | none => .error (.message (unsupportedContentEncoding token))

/-- The two loops, over the values of the header and over the tokens of each. -/
def collectAlgorithms (maxEncodingLayers : Nat) (headers : Headers) :
    Except ResponseError (List ResponseCompressionAlgorithm) :=
  (headers.getAll .contentEncoding).foldlM (fun algorithms headerValue =>
    ((headerValue.splitOn ',').map Text.trim).foldlM (collectToken maxEncodingLayers) algorithms) []

/-- What is returned, and the response after it. The limits are those of the operation, if it
has its own. -/
def modifyBeforeDeserialization (library : AsyncLibrary) (interceptor : ResponseCompression)
    (store : Option ResponseCompression) (response : Response (List BodyEvent)) :
    Except ResponseError Unit × Response ResponseBody :=
  let responseCompression := store.getD interceptor
  match collectAlgorithms responseCompression.maxEncodingLayers response.headers with
  | .error e => (.error e, response.received)
  | .ok algorithms =>
      if algorithms.isEmpty then (.ok (), response.received)
      else
        match wrapDecompressedBody library response.body algorithms
          responseCompression.maxEncodingLayers responseCompression.maxDecompressedBytes with
        -- The body has been taken out by now, and is not put back.
        | .error e => (.error (.layerLimitExceeded e), ⟨response.headers, .received []⟩)
        | .ok reader =>
            (.ok (), ⟨(response.headers.remove .contentEncoding).remove .contentLength,
              .decompressed reader⟩)

/-! ## The tokens decide -/

/-- The tokens of a response, in the order of its headers. -/
def contentEncodingTokens (headers : Headers) : List Text :=
  ((headers.getAll .contentEncoding).flatMap fun headerValue =>
    (headerValue.splitOn ',').map Text.trim).filter fun token => !token.isEmpty

/-- A token without its parameters, in lower case. -/
def encodingName (token : Text) : Text :=
  (Text.trim (token.takeWhile (· != ';'))).map Char.toLower

def supportedEncodings : List Text := ["gzip".toList, "x-gzip".toList, "deflate".toList]

theorem headD_splitOn (sep : Char) (text default : Text) :
    (text.splitOn sep).headD default = text.takeWhile (· != sep) := by
  induction text generalizing default with
  | nil => simp
  | cons c text ih =>
      obtain ⟨head, tail, split⟩ := List.exists_cons_of_ne_nil (List.splitOn_ne_nil sep text)
      have first := ih []
      rw [split, List.headD_cons] at first
      rw [List.splitOn_cons_eq_if_modifyHead, split, List.takeWhile_cons, bne]
      cases c == sep with
      | true => rfl
      | false => simp [first]

/-- A token is understood if its name is one of three. -/
theorem fromContentEncoding_eq_none (token : Text) :
    ResponseCompressionAlgorithm.fromContentEncoding token = none ↔
      encodingName token ∉ supportedEncodings := by
  rw [ResponseCompressionAlgorithm.fromContentEncoding, headD_splitOn, ← encodingName]
  simp only [supportedEncodings, List.mem_cons, List.not_mem_nil, or_false, not_or]
  split
  · next gzip => exact iff_of_false (by simp) fun other => gzip.elim other.1 other.2.1
  · next other =>
    rw [not_or] at other
    split
    · next deflate => exact iff_of_false (by simp) fun other => other.2.2 deflate
    · next other' => exact iff_of_true rfl ⟨other.1, other.2, other'⟩

/-- The loops go through the tokens. -/
theorem collectAlgorithms_eq (maxEncodingLayers : Nat) (headers : Headers) :
    collectAlgorithms maxEncodingLayers headers =
      (contentEncodingTokens headers).foldlM (collectToken maxEncodingLayers) [] := by
  have blank : (fun algorithms token => if (!token.isEmpty) = true
        then collectToken maxEncodingLayers algorithms token else pure algorithms) =
      collectToken maxEncodingLayers := by
    funext algorithms token
    cases token with
    | nil => rfl
    | cons c token => rfl
  rw [contentEncodingTokens, List.foldlM_filter, blank, collectAlgorithms]
  have lines (values : List Text) (algorithms : List ResponseCompressionAlgorithm) :
      values.foldlM (fun algorithms headerValue => ((headerValue.splitOn ',').map Text.trim).foldlM
          (collectToken maxEncodingLayers) algorithms) algorithms =
        (values.flatMap fun headerValue => (headerValue.splitOn ',').map Text.trim).foldlM
          (collectToken maxEncodingLayers) algorithms := by
    induction values generalizing algorithms with
    | nil => rfl
    | cons value values ih =>
        rw [List.foldlM_cons, List.flatMap_cons, List.foldlM_append]
        exact bind_congr fun algorithms' => ih algorithms'
  exact lines _ []

section Collect

variable {maxEncodingLayers : Nat} {algorithms result : List ResponseCompressionAlgorithm}

theorem except_bind_eq_ok {α β ε : Type} {x : Except ε α} {f : α → Except ε β} {b : β} :
    x >>= f = .ok b ↔ ∃ a, x = .ok a ∧ f a = .ok b := by
  cases x <;> simp [bind, Except.bind]

theorem collectToken_eq_ok {token : Text} (nonempty : token ≠ []) :
    collectToken maxEncodingLayers algorithms token = .ok result ↔
      algorithms.length + 1 ≤ maxEncodingLayers ∧
        ∃ algo, ResponseCompressionAlgorithm.fromContentEncoding token = some algo ∧
          result = algorithms ++ [algo] := by
  rw [collectToken, if_neg (by simpa using nonempty), validateResponseEncodingLayerCount]
  by_cases within : algorithms.length + 1 ≤ maxEncodingLayers
  · rw [if_neg (by omega)]
    cases ResponseCompressionAlgorithm.fromContentEncoding token with
    | none => simp
    | some algo => simp [within, eq_comm]
  · rw [if_pos (by omega)]
    simp [within]

/-- The tokens that are collected: all of them or none. -/
theorem foldlM_collectToken_eq_ok {tokens : List Text} (nonempty : ∀ token ∈ tokens, token ≠ [])
    (within : algorithms.length ≤ maxEncodingLayers) :
    tokens.foldlM (collectToken maxEncodingLayers) algorithms = .ok result ↔
      algorithms.length + tokens.length ≤ maxEncodingLayers ∧
        (∀ token ∈ tokens, ResponseCompressionAlgorithm.fromContentEncoding token ≠ none) ∧
        result = algorithms ++ tokens.filterMap ResponseCompressionAlgorithm.fromContentEncoding := by
  induction tokens generalizing algorithms with
  | nil => simp [within, pure, Except.pure, eq_comm]
  | cons token tokens ih =>
      have here : ∀ token ∈ tokens, token ≠ [] := fun t listed =>
        nonempty t (List.mem_cons_of_mem _ listed)
      rw [List.foldlM_cons, except_bind_eq_ok]
      simp only [collectToken_eq_ok (nonempty token List.mem_cons_self), List.forall_mem_cons,
        List.length_cons]
      constructor
      · rintro ⟨_, ⟨room, algo, supported, rfl⟩, rest⟩
        rw [ih here (by simpa using room), List.length_append, List.length_singleton] at rest
        obtain ⟨few, others, rfl⟩ := rest
        refine ⟨by omega, ⟨by simp [supported], others⟩, ?_⟩
        rw [List.filterMap_cons_some supported, List.append_assoc, List.singleton_append]
      · rintro ⟨few, ⟨supported, others⟩, rfl⟩
        obtain ⟨algo, supported⟩ := Option.ne_none_iff_exists'.mp supported
        refine ⟨_, ⟨by omega, algo, supported, rfl⟩, ?_⟩
        rw [ih here (by rw [List.length_append, List.length_singleton]; omega), List.length_append,
          List.length_singleton]
        refine ⟨by omega, others, ?_⟩
        rw [List.filterMap_cons_some supported, List.append_assoc, List.singleton_append]

/-- The algorithms are collected if the tokens are few enough and all understood. -/
theorem collectAlgorithms_eq_ok {headers : Headers} :
    collectAlgorithms maxEncodingLayers headers = .ok result ↔
      (contentEncodingTokens headers).length ≤ maxEncodingLayers ∧
        (∀ token ∈ contentEncodingTokens headers, encodingName token ∈ supportedEncodings) ∧
        result = (contentEncodingTokens headers).filterMap
          ResponseCompressionAlgorithm.fromContentEncoding := by
  have nonempty : ∀ token ∈ contentEncodingTokens headers, token ≠ [] := by
    intro token listed
    simpa using (List.mem_filter.mp listed).2
  rw [collectAlgorithms_eq, foldlM_collectToken_eq_ok nonempty (Nat.zero_le _)]
  simp only [List.length_nil, Nat.zero_add, List.nil_append, ne_eq, fromContentEncoding_eq_none,
    not_not]

/-- Every token that is understood stands for one algorithm. -/
theorem length_filterMap_fromContentEncoding {tokens : List Text}
    (supported : ∀ token ∈ tokens, encodingName token ∈ supportedEncodings) :
    (tokens.filterMap ResponseCompressionAlgorithm.fromContentEncoding).length = tokens.length := by
  induction tokens with
  | nil => rfl
  | cons token tokens ih =>
      obtain ⟨first, rest⟩ := List.forall_mem_cons.mp supported
      have known : ResponseCompressionAlgorithm.fromContentEncoding token ≠ none :=
        fun unknown => (fromContentEncoding_eq_none token).mp unknown first
      obtain ⟨algo, known⟩ := Option.ne_none_iff_exists'.mp known
      rw [List.filterMap_cons_some known, List.length_cons, List.length_cons, ih rest]

end Collect

section Modify

variable (library : AsyncLibrary) (interceptor : ResponseCompression)
  (store : Option ResponseCompression) (response : Response (List BodyEvent))

/-- The tokens exceed the limit, or one of them is not understood. -/
def RejectsEncodings (compression : ResponseCompression) (headers : Headers) : Prop :=
  compression.maxEncodingLayers < (contentEncodingTokens headers).length ∨
    ∃ token ∈ contentEncodingTokens headers, encodingName token ∉ supportedEncodings

theorem not_rejectsEncodings {compression : ResponseCompression} {headers : Headers} :
    ¬ RejectsEncodings compression headers ↔
      (contentEncodingTokens headers).length ≤ compression.maxEncodingLayers ∧
        ∀ token ∈ contentEncodingTokens headers, encodingName token ∈ supportedEncodings := by
  simp [RejectsEncodings, not_or]

/-- What the decoding of these encodings reads. -/
def decodingReader (limit : Nat) (tokens : List Text) (body : List BodyEvent) : AsyncRead :=
  stagesReader library limit
    (tokens.filterMap ResponseCompressionAlgorithm.fromContentEncoding).reverse
    (library.streamReader (BodyEvent.dataStream body))

/-- The second check never fails: the layers have been counted before. -/
theorem wrapDecompressedBody_eq_ok {compression : ResponseCompression} {headers : Headers}
    {algorithms : List ResponseCompressionAlgorithm} (body : List BodyEvent)
    (collected : collectAlgorithms compression.maxEncodingLayers headers = .ok algorithms) :
    wrapDecompressedBody library body algorithms compression.maxEncodingLayers
        compression.maxDecompressedBytes =
      .ok (decodingReader library compression.maxDecompressedBytes
        (contentEncodingTokens headers) body) := by
  obtain ⟨few, supported, rfl⟩ := collectAlgorithms_eq_ok.mp collected
  have within := length_filterMap_fromContentEncoding supported
  rw [wrapDecompressedBody, validateResponseEncodingLayerCount, if_neg (by omega)]
  rfl

theorem modify_of_rejects (rejects : RejectsEncodings (store.getD interceptor) response.headers) :
    ∃ e, collectAlgorithms (store.getD interceptor).maxEncodingLayers response.headers = .error e ∧
      modifyBeforeDeserialization library interceptor store response =
        (.error e, response.received) := by
  cases collected : collectAlgorithms (store.getD interceptor).maxEncodingLayers
      response.headers with
  | error e =>
      refine ⟨e, rfl, ?_⟩
      simp only [modifyBeforeDeserialization, collected]
  | ok algorithms =>
      obtain ⟨few, supported, -⟩ := collectAlgorithms_eq_ok.mp collected
      exact absurd rejects (not_rejectsEncodings.mpr ⟨few, supported⟩)

theorem modify_of_not_rejects
    (accepts : ¬ RejectsEncodings (store.getD interceptor) response.headers) :
    modifyBeforeDeserialization library interceptor store response =
      (.ok (), if contentEncodingTokens response.headers = [] then response.received
        else ⟨(response.headers.remove .contentEncoding).remove .contentLength,
          .decompressed (decodingReader library (store.getD interceptor).maxDecompressedBytes
            (contentEncodingTokens response.headers) response.body)⟩) := by
  obtain ⟨few, supported⟩ := not_rejectsEncodings.mp accepts
  have collected := collectAlgorithms_eq_ok.mpr ⟨few, supported, rfl⟩
  have wrapped := wrapDecompressedBody_eq_ok library response.body collected
  have length := length_filterMap_fromContentEncoding supported
  simp only [modifyBeforeDeserialization, collected, wrapped]
  by_cases none : contentEncodingTokens response.headers = []
  · simp [none]
  · have some : ((contentEncodingTokens response.headers).filterMap
        ResponseCompressionAlgorithm.fromContentEncoding).isEmpty = false := by
      rw [List.isEmpty_eq_false_iff, ← List.length_pos_iff, length, List.length_pos_iff]
      exact none
    rw [some, if_neg none]
    rfl

theorem getAll_remove_self (headers : Headers) (name : HeaderName) :
    (headers.remove name).getAll name = [] := by
  simp [Headers.remove, Headers.getAll, List.filter_filter]

/-- How the tokens are spread over headers makes no difference. -/
theorem modify_congr {response other : Response (List BodyEvent)}
    (body : other.body = response.body)
    (rest : other.headers.remove .contentEncoding = response.headers.remove .contentEncoding)
    (tokens : contentEncodingTokens other.headers = contentEncodingTokens response.headers) :
    (modifyBeforeDeserialization library interceptor store other).1 =
        (modifyBeforeDeserialization library interceptor store response).1 ∧
      (contentEncodingTokens response.headers ≠ [] →
        (modifyBeforeDeserialization library interceptor store response).1 = .ok () →
        (modifyBeforeDeserialization library interceptor store other).2 =
          (modifyBeforeDeserialization library interceptor store response).2) := by
  by_cases rejects : RejectsEncodings (store.getD interceptor) response.headers
  · have rejects' : RejectsEncodings (store.getD interceptor) other.headers := by
      rw [RejectsEncodings, tokens]
      exact rejects
    obtain ⟨e, collected, modified⟩ := modify_of_rejects library interceptor store _ rejects
    obtain ⟨e', collected', modified'⟩ := modify_of_rejects library interceptor store _ rejects'
    rw [collectAlgorithms_eq, tokens, ← collectAlgorithms_eq, collected] at collected'
    cases collected'
    rw [modified, modified']
    exact ⟨rfl, fun _ ok => by cases ok⟩
  · have accepts' : ¬ RejectsEncodings (store.getD interceptor) other.headers := by
      rw [RejectsEncodings, tokens]
      exact rejects
    rw [modify_of_not_rejects library interceptor store _ rejects,
      modify_of_not_rejects library interceptor store _ accepts', tokens, body, rest]
    refine ⟨rfl, fun some _ => ?_⟩
    rw [if_neg some, if_neg some]

/-- Exact handling of the encodings, all or nothing. -/
structure HandlesEncodings (library : AsyncLibrary) (limits : ResponseCompression)
    (response : Response (List BodyEvent))
    (after : Except ResponseError Unit × Response ResponseBody) : Prop where
  rejects_iff : (∃ e, after.1 = .error e) ↔
    limits.maxEncodingLayers < (contentEncodingTokens response.headers).length ∨
      ∃ token ∈ contentEncodingTokens response.headers, encodingName token ∉ supportedEncodings
  unchanged_of_error : (∃ e, after.1 = .error e) → after.2 = response.received
  unchanged_of_none : contentEncodingTokens response.headers = [] →
    after = (.ok (), response.received)
  headers : contentEncodingTokens response.headers ≠ [] → after.1 = .ok () →
    after.2.headers = (response.headers.remove .contentEncoding).remove .contentLength ∧
      after.2.headers.getAll .contentEncoding = [] ∧ after.2.headers.getAll .contentLength = []
  decoded : contentEncodingTokens response.headers ≠ [] → after.1 = .ok () →
    after.2.body = .decompressed (decodingReader library limits.maxDecompressedBytes
      (contentEncodingTokens response.headers) response.body)

theorem handlesEncodings : HandlesEncodings library (store.getD interceptor) response
    (modifyBeforeDeserialization library interceptor store response) := by
  by_cases rejects : RejectsEncodings (store.getD interceptor) response.headers
  · obtain ⟨e, -, failed⟩ := modify_of_rejects library interceptor store response rejects
    have some : contentEncodingTokens response.headers ≠ [] := by
      intro none
      simp [RejectsEncodings, none] at rejects
    rw [failed]
    constructor
    · exact iff_of_true ⟨e, rfl⟩ rejects
    · exact fun _ => rfl
    · exact fun none => absurd none some
    · exact fun _ ok => by cases ok
    · exact fun _ ok => by cases ok
  · rw [modify_of_not_rejects library interceptor store response rejects]
    constructor
    · exact iff_of_false (by simp) rejects
    · rintro ⟨e, failed⟩
      cases failed
    · intro none
      rw [if_pos none]
    · intro some _
      rw [if_neg some]
      refine ⟨rfl, ?_, getAll_remove_self _ _⟩
      rw [Headers.getAll_remove_of_ne _ (by decide), getAll_remove_self]
    · intro some _
      rw [if_neg some]

/-- What the decoding of a body delivers: the last token is decoded first. -/
theorem delivers_decodingReader
    {member : ResponseCompressionAlgorithm → Bytes → Option (Bytes × Bytes)}
    (laws : library.Laws member) (limit : Nat) (tokens : List Text) (body : List BodyEvent) :
    Delivers ((tokens.filterMap ResponseCompressionAlgorithm.fromContentEncoding).reverse.foldl
      (stageContent member limit) (Content.ofOption (BodyEvent.bytes body)))
      (decodingReader library limit tokens body) := by
  have raw := laws.streamReader (BodyEvent.dataStream body)
  rw [BodyEvent.bytes_dataStream] at raw
  exact delivers_stages laws raw _ _

/-- Encodings are handled exactly, and all or nothing. -/
theorem content_encoding_is_exact :
    HandlesEncodings library (store.getD interceptor) response
      (modifyBeforeDeserialization library interceptor store response) ∧
    (∀ member, library.Laws member → ∀ limit tokens body, Delivers
      ((tokens.filterMap ResponseCompressionAlgorithm.fromContentEncoding).reverse.foldl
        (stageContent member limit) (Content.ofOption (BodyEvent.bytes body)))
      (decodingReader library limit tokens body)) ∧
    (∀ other : Response (List BodyEvent), other.body = response.body →
      other.headers.remove .contentEncoding = response.headers.remove .contentEncoding →
      contentEncodingTokens other.headers = contentEncodingTokens response.headers →
      (modifyBeforeDeserialization library interceptor store other).1 =
          (modifyBeforeDeserialization library interceptor store response).1 ∧
        (contentEncodingTokens response.headers ≠ [] →
          (modifyBeforeDeserialization library interceptor store response).1 = .ok () →
          (modifyBeforeDeserialization library interceptor store other).2 =
            (modifyBeforeDeserialization library interceptor store response).2)) ∧
    ∀ (limits : ResponseCompression) (headers : Headers) algorithms body,
      collectAlgorithms limits.maxEncodingLayers headers = .ok algorithms →
      ∃ reader, wrapDecompressedBody library body algorithms limits.maxEncodingLayers
        limits.maxDecompressedBytes = .ok reader := by
  refine ⟨handlesEncodings library interceptor store response,
    fun member laws => delivers_decodingReader library laws,
    fun other body rest same => modify_congr library interceptor store body rest same, ?_⟩
  intro limits headers algorithms body collected
  exact ⟨_, wrapDecompressedBody_eq_ok library body collected⟩

/-- A body of two frames in a gzip layer, with parameters and capitals in the header. -/
theorem content_encoding_is_exact_gzip :
    Delivers (.clean EmptyObject.body)
      (decodingReader EmptyObject.library 2 ["X-GZip; q=1".toList] EmptyObject.frames) := by
  obtain ⟨-, delivers, -, -⟩ := content_encoding_is_exact EmptyObject.library ⟨5, 2⟩ none
    ⟨[(.contentEncoding, "X-GZip; q=1".toList)], EmptyObject.frames⟩
  have decoded := delivers EmptyObject.decodeMember EmptyObject.library_laws 2
    ["X-GZip; q=1".toList] EmptyObject.frames
  have layer : ["X-GZip; q=1".toList].filterMap
      ResponseCompressionAlgorithm.fromContentEncoding = [.gzip] := by decide +kernel
  have data : BodyEvent.bytes EmptyObject.frames = some EmptyObject.member := by decide
  rw [layer, data] at decoded
  exact decoded

end Modify

end AlternatorDriver
