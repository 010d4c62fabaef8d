import AlternatorDriver.Foundation.FirstOccurrences
import AlternatorDriver.Operation.SignedAttempts

/-!
# The negotiation of response encodings

A request advertises encodings in its `Accept-Encoding` header. A server that understands the
header picks some of them, encodes its payload once for each, and lists them in the order in
which it has applied them. Whatever was configured, and however often an operation is retried,
the payload is what its reader gets.
-/

namespace AlternatorDriver

open Foundation Reader

/-- Repeated algorithms count once, and none stand for all. -/
theorem ResponseNegotiation.acceptedAlgorithms_enabledMany
    (algorithms : List ResponseCompressionAlgorithm) :
    (enabledMany algorithms).acceptedAlgorithms =
      some (if algorithms = [] then ResponseCompressionAlgorithm.all
        else algorithms.eraseDups) := by
  have seen : algorithms.foldl (fun seen algo => if algo ∈ seen then seen else seen ++ [algo]) [] =
      algorithms.eraseDups := by
    induction algorithms using List.reverseRecOn with
    | nil => rfl
    | append_singleton algorithms algo ih =>
        rw [List.foldl_concat, ih, eraseDups_concat]
        simp only [List.mem_eraseDups]
  rw [enabledMany, seen]
  cases algorithms with
  | nil => rfl
  | cons algo algorithms => simp [new, List.eraseDups_cons]

/-- The encodings that a header list asks for, as a server reads it. -/
def acceptedTokens (headers : Headers) : List Text :=
  (headers.getAll .acceptEncoding).flatMap fun headerValue =>
    (headerValue.splitOn ',').map Text.trim

theorem intercalate_comma_space (token : Text) (tokens : List Text) :
    (", ".toList).intercalate (token :: tokens) =
      [','].intercalate (token :: tokens.map (' ' :: ·)) := by
  induction tokens generalizing token with
  | nil => simp
  | cons next tokens ih =>
      rw [List.map_cons, List.intercalate_cons_cons, ih, List.intercalate_cons_cons]
      cases tokens with
      | nil => simp
      | cons other tokens => simp

/-- The header lists the tokens of its algorithms. -/
theorem tokens_acceptEncodingHeaderValue {algorithms : List ResponseCompressionAlgorithm}
    (some : algorithms ≠ []) :
    ((acceptEncodingHeaderValue algorithms).splitOn ',').map Text.trim =
      algorithms.map (·.acceptEncodingToken) := by
  have visible (algorithm : ResponseCompressionAlgorithm) :
      Text.trim algorithm.acceptEncodingToken = algorithm.acceptEncodingToken ∧
        ',' ∉ algorithm.acceptEncodingToken := by
    cases algorithm <;> decide
  obtain ⟨first, others, rfl⟩ := List.exists_cons_of_ne_nil some
  rw [acceptEncodingHeaderValue, List.map_cons, intercalate_comma_space, List.map_map,
    List.splitOn_intercalate ',' ?_ (by simp), List.map_cons, (visible first).1, List.map_map]
  · refine congrArg _ (List.map_congr_left fun algorithm _ => ?_)
    exact (Text.trim_cons (by decide)).trans (visible algorithm).1
  · intro piece member
    obtain rfl | member := List.mem_cons.mp member
    · exact (visible first).2
    · obtain ⟨algorithm, -, rfl⟩ := List.mem_map.mp member
      simpa using (visible algorithm).2

/-- What a server may answer with: each layer is one of its codings, and what is below it is
within the limit. -/
inductive Encodes (coding : Text → Bytes → Bytes → Prop) (limit : Nat) (payload : Bytes) :
    List Text → Bytes → Prop where
  | plain : Encodes coding limit payload [] payload
  | layer {tokens : List Text} {content encoded : Bytes} (token : Text)
      (below : Encodes coding limit payload tokens content) (within : content.length ≤ limit)
      (coded : coding token content encoded) :
      Encodes coding limit payload (tokens ++ [token]) encoded

variable {member : ResponseCompressionAlgorithm → Bytes → Option (Bytes × Bytes)}
  {coding : Text → Bytes → Bytes → Prop}

/-- The codings of a server that the driver knows by name are those of its library. -/
def StandardCodings (member : ResponseCompressionAlgorithm → Bytes → Option (Bytes × Bytes))
    (coding : Text → Bytes → Bytes → Prop) : Prop :=
  ∀ (algorithm : ResponseCompressionAlgorithm) content encoded,
    coding algorithm.acceptEncodingToken content encoded →
    member algorithm encoded = some (content, [])

theorem fromContentEncoding_acceptEncodingToken (algorithm : ResponseCompressionAlgorithm) :
    ResponseCompressionAlgorithm.fromContentEncoding algorithm.acceptEncodingToken =
      some algorithm := by
  cases algorithm <;> decide +kernel

/-- The stages undo the layers, the last one first. -/
theorem Encodes.decodes {limit : Nat} {payload encoded : Bytes} {tokens : List Text}
    (encodes : Encodes coding limit payload tokens encoded)
    (standard : StandardCodings member coding)
    (known : ∀ token ∈ tokens, ∃ algorithm : ResponseCompressionAlgorithm,
      token = algorithm.acceptEncodingToken) :
    (tokens.filterMap ResponseCompressionAlgorithm.fromContentEncoding).reverse.foldl
      (stageContent member limit) (.clean encoded) = .clean payload := by
  induction encodes with
  | plain => rfl
  | @layer tokens content encoded token below within coded ih =>
      obtain ⟨algorithm, rfl⟩ := known token (by simp)
      rw [List.filterMap_append,
        List.filterMap_cons_some (fromContentEncoding_acceptEncodingToken _), List.filterMap_nil,
        List.reverse_concat, List.foldl_cons]
      have stage : stageContent member limit (.clean encoded) algorithm = .clean content := by
        rw [stageContent, standard algorithm _ _ coded, Option.map_some, Content.ofOption,
          Content.limitTo, if_pos within]
      rw [stage]
      exact ih fun token listed => known token (List.mem_append_left _ listed)

/-- The body can be read as these bytes, and no others. -/
def ResponseBody.Yields (payload : Bytes) : ResponseBody → Prop
  | .received events => BodyEvent.bytes events = some payload
  | .decompressed reader => Delivers (.clean payload) reader

/-- A response whose encodings have names that the driver advertises is decoded. -/
theorem deserialized_yields {library : AsyncLibrary} (laws : library.Laws member)
    (standard : StandardCodings member coding) (interceptor : DriverInterceptor)
    (state : InterceptorState) {response : Response (List BodyEvent)} {payload encoded : Bytes}
    (known : ∀ token ∈ contentEncodingTokens response.headers,
      ∃ algorithm : ResponseCompressionAlgorithm, token = algorithm.acceptEncodingToken)
    (few : (contentEncodingTokens response.headers).length ≤
      (state.responseCompressionStore.getD
        interceptor.responseCompression).limits.maxEncodingLayers)
    (encodes : Encodes coding
      (state.responseCompressionStore.getD
        interceptor.responseCompression).limits.maxDecompressedBytes
      payload (contentEncodingTokens response.headers) encoded)
    (bytes : BodyEvent.bytes response.body = some encoded) :
    ∃ delivered, interceptor.deserialized library state response = .ok delivered ∧
      delivered.body.Yields payload ∧
      ∀ k, k ≠ .contentEncoding → k ≠ .contentLength →
        delivered.headers.getAll k = response.headers.getAll k := by
  have accepts : ¬ RejectsEncodings ((state.responseCompressionStore.map
      ResponseNegotiation.limits).getD interceptor.responseCompression.limits)
      response.headers := by
    rw [getD_map_getD]
    refine not_rejectsEncodings.mpr ⟨few, fun token listed => ?_⟩
    obtain ⟨algorithm, rfl⟩ := known token listed
    by_contra unknown
    have none := (fromContentEncoding_eq_none _).mpr unknown
    rw [fromContentEncoding_acceptEncodingToken] at none
    cases none
  rw [DriverInterceptor.deserialized, modify_of_not_rejects library _ _ response accepts]
  refine ⟨_, rfl, ?_, ?_⟩
  · split
    · next plain =>
      rw [plain] at encodes
      generalize tokens : ([] : List Text) = listed at encodes
      cases encodes with
      | plain => exact bytes
      | layer token below within coded => simp at tokens
    · have delivers := delivers_decodingReader library laws
        ((state.responseCompressionStore.map ResponseNegotiation.limits).getD
          interceptor.responseCompression.limits).maxDecompressedBytes
        (contentEncodingTokens response.headers) response.body
      rw [bytes, Content.ofOption, getD_map_getD, encodes.decodes standard known] at delivers
      rw [getD_map_getD]
      exact delivers
  · intro k encoding length
    split
    · rfl
    · rw [Headers.getAll_remove_of_ne _ length, Headers.getAll_remove_of_ne _ encoding]

variable {Url : Type} {urls : UrlLibrary Url} {acceptsUri : Text → Bool} {flate2 : Flate2}
  {library : AsyncLibrary}

/-- Compression changes the encoding and the length only. -/
theorem getAll_compressRequest (request : Request) (algorithm : CompressionAlgorithm)
    (level : CompressionLevel) (threshold : Nat) {k : HeaderName} (encoding : k ≠ .contentEncoding)
    (length : k ≠ .contentLength) :
    (compressRequest flate2 request algorithm level threshold).headers.getAll k =
      request.headers.getAll k := by
  unfold compressRequest
  split
  · rfl
  · split
    · rfl
    · split
      · rfl
      · split
        · rfl
        · rw [Headers.getAll_insert_of_ne _ _ length, Headers.getAll_append_of_ne _ _ encoding]

/-- What the prepared request advertises. -/
theorem acceptedTokens_modifyBeforeRetryLoop (interceptor : DriverInterceptor)
    (state : InterceptorState) {request : Request}
    (unasked : request.headers.getAll .acceptEncoding = []) :
    ∀ token ∈ acceptedTokens (interceptor.modifyBeforeRetryLoop flate2 state request).headers,
      token ≠ [] → ∃ algorithm : ResponseCompressionAlgorithm,
        token = algorithm.acceptEncodingToken := by
  intro token listed nonempty
  simp only [acceptedTokens, DriverInterceptor.modifyBeforeRetryLoop,
    CompressionInterceptor.modifyBeforeRetryLoop, getD_map_getD] at listed
  split at listed
  · next algorithms advertised =>
    rw [Headers.getAll_insert_self, List.flatMap_singleton] at listed
    cases algorithms with
    | nil =>
        have blank : token = [] := by simpa [acceptEncodingHeaderValue, Text.trim] using listed
        exact absurd blank nonempty
    | cons first others =>
        rw [tokens_acceptEncodingHeaderValue (by simp)] at listed
        obtain ⟨algorithm, -, rfl⟩ := List.mem_map.mp listed
        exact ⟨algorithm, rfl⟩
  · -- Nothing is advertised, and compression does not add anything.
    cases enabled : (state.requestCompressionStore.getD interceptor.requestCompression).get with
    | none =>
        rw [enabled] at listed
        dsimp only at listed
        rw [unasked] at listed
        cases listed
    | some found =>
        obtain ⟨algorithm, level, threshold⟩ := found
        rw [enabled] at listed
        dsimp only at listed
        rw [getAll_compressRequest _ _ _ _ (by decide) (by decide), unasked] at listed
        cases listed

/-- Every response that uses what its request advertises is decoded. In any attempt of an
operation, whatever has been configured or overridden, if the server picks encodings from the
header that it was sent, and stays within the limits in force, then the attempt ends with a
response whose body yields the payload. -/
theorem advertised_encodings_are_decoded (laws : library.Laws member)
    (standard : StandardCodings member coding) (settings : RequestSettings) (hasQueryPlan : Bool)
    (overrides : List AlternatorOperationBuilder) (request : Request)
    (envs : List (AttemptEnvironment Url)) {i : Nat} {env : AttemptEnvironment Url}
    {record : AttemptRecord} {uri : Text} {sent : Request}
    {response : Response (List BodyEvent)} {payload encoded : Bytes}
    (unasked : request.headers.getAll .acceptEncoding = [])
    (signs : ∀ uri headers, (env.sign uri headers).getAll .acceptEncoding =
      Headers.getAll headers .acceptEncoding)
    (attempted : envs[i]? = some env)
    (recorded : (operation urls acceptsUri flate2 library settings hasQueryPlan overrides request
      envs)[i]? = some record)
    (sends : record.sent = some (uri, sent)) (answers : env.respond uri sent = some response)
    (picks : ∀ token ∈ contentEncodingTokens response.headers, token ∈ acceptedTokens sent.headers)
    (few : (contentEncodingTokens response.headers).length ≤
      (overrides.foldl RequestSettings.override
        settings).interceptor.responseCompression.limits.maxEncodingLayers)
    (encodes : Encodes coding (overrides.foldl RequestSettings.override
        settings).interceptor.responseCompression.limits.maxDecompressedBytes
      payload (contentEncodingTokens response.headers) encoded)
    (bytes : BodyEvent.bytes response.body = some encoded) :
    ∃ delivered, record.result = .ok delivered ∧ delivered.body.Yields payload ∧
      ∀ k, k ≠ .contentEncoding → k ≠ .contentLength →
        delivered.headers.getAll k = response.headers.getAll k := by
  have alike := actAlike_override settings overrides hasQueryPlan
  rw [operation, getElem_attempts, attempted] at recorded
  cases recorded
  obtain ⟨routed, transmits, body⟩ := sent_attempt sends
  have advertised : acceptedTokens sent.headers = acceptedTokens
      (preparedRequest flate2 settings hasQueryPlan overrides request).headers := by
    have kept := getAll_modifyBeforeTransmit_base settings.interceptor.toAlternatorInterceptor
      (storedAfter urls acceptsUri (storedAfter urls acceptsUri
        (storedBeforeSerialization hasQueryPlan overrides)
        (preparedRequest flate2 settings hasQueryPlan overrides request) (envs.take i))
        (preparedRequest flate2 settings hasQueryPlan overrides request)
        [env]).preserveAuthHeadersStore
      (env.sign uri (preparedRequest flate2 settings hasQueryPlan overrides request).headers)
      (k := .acceptEncoding) (by decide)
    rw [transmits] at kept
    rw [acceptedTokens, kept, signs, acceptedTokens]
  have known : ∀ token ∈ contentEncodingTokens response.headers,
      ∃ algorithm : ResponseCompressionAlgorithm, token = algorithm.acceptEncodingToken := by
    intro token listed
    have nonempty : token ≠ [] := by simpa using (List.mem_filter.mp listed).2
    have offered := picks token listed
    rw [advertised] at offered
    exact acceptedTokens_modifyBeforeRetryLoop _ _ unasked token offered nonempty
  -- The limits in force are those that the stored overrides leave.
  have inForce := alike.response
  rw [← storedBeforeSerialization_eq] at inForce
  obtain ⟨delivered, ended, yields, rest⟩ := deserialized_yields laws standard settings.interceptor
    (storedBeforeSerialization hasQueryPlan overrides) known (by rwa [inForce])
    (by rwa [inForce]) bytes
  refine ⟨delivered, ?_, yields, rest⟩
  rw [← ended]
  exact result_attempt sends answers

/-- A client that prefers deflate, and a server that takes the second choice. -/
def negotiatingSettings : RequestSettings where
  requestCompression := none
  responseCompression := some (.enabledMany [.deflate, .gzip, .deflate])
  optimizeHeaders := none
  userAgent := none
  hasCredentialsProvider := false

def gzipResponse : Response (List BodyEvent) :=
  ⟨[(.contentEncoding, "gzip".toList)], EmptyObject.frames⟩

def negotiatingEnvironment : AttemptEnvironment PlainUrl where
  uri := "http://a".toList
  nextNode := none
  sign _ headers := headers
  respond _ _ := some gzipResponse

/-- The codings of the server, on the one body that it serves. -/
def emptyObjectCoding (token : Text) (content encoded : Bytes) : Prop :=
  ∃ algorithm : ResponseCompressionAlgorithm, token = algorithm.acceptEncodingToken ∧
    content = EmptyObject.body ∧ encoded = EmptyObject.encoded algorithm

theorem advertised_encodings_are_decoded_gzip :
    ∃ record delivered, (operation PlainUrl.library (fun _ => true) EmptyObject.flate2
        EmptyObject.library negotiatingSettings false [] EmptyObject.request
        [negotiatingEnvironment])[0]? = some record ∧
      record.result = .ok delivered ∧ delivered.body.Yields EmptyObject.body := by
  have standard : StandardCodings EmptyObject.decodeMember emptyObjectCoding := by
    rintro algorithm content encoded ⟨algorithm', named, rfl, rfl⟩
    cases algorithm <;> cases algorithm' <;> first | decide | exact absurd named (by decide)
  have tokens : contentEncodingTokens gzipResponse.headers = ["gzip".toList] := by decide
  have encodes : Encodes emptyObjectCoding defaultMaxDecompressedResponseBytes EmptyObject.body
      ["gzip".toList] EmptyObject.member :=
    .layer "gzip".toList .plain (by decide +kernel) ⟨.gzip, rfl, rfl, rfl⟩
  obtain ⟨delivered, ended, yields, -⟩ := @advertised_encodings_are_decoded
    EmptyObject.decodeMember emptyObjectCoding _ PlainUrl.library (fun _ => true)
    EmptyObject.flate2 EmptyObject.library EmptyObject.library_laws standard negotiatingSettings
    false [] EmptyObject.request [negotiatingEnvironment] 0 negotiatingEnvironment _ _ _
    gzipResponse EmptyObject.body EmptyObject.member rfl (fun _ _ => rfl) rfl rfl rfl rfl
    (by rw [tokens]; decide +kernel) (by rw [tokens]; decide) (by rw [tokens]; exact encodes)
    (by decide)
  exact ⟨_, delivered, rfl, ended, yields⟩

end AlternatorDriver
