import AlternatorDriver.Headers.Transmit

/-!
# The compression of requests

A request body is compressed once, before the retry loop, and its headers are stripped
before every transmission. The server must find the encoding and the length of the body
that it is sent, so both headers have to survive everything that comes between.
-/

namespace AlternatorDriver

open Foundation

abbrev Bytes := List UInt8

/-- Compression algorithm used for an outgoing request body. -/
inductive CompressionAlgorithm where
  | gzip
  | deflate
  deriving DecidableEq

/-- Algorithm for response compression negotiation. -/
inductive ResponseCompressionAlgorithm where
  | gzip
  | deflate
  deriving DecidableEq

abbrev CompressionLevel := Nat

/-- The encoders and the decoders, each read to its end. They may fail. -/
structure Flate2 where
  gzEncoder : Bytes → CompressionLevel → Option Bytes
  gzDecoder : Bytes → Option Bytes
  zlibEncoder : Bytes → CompressionLevel → Option Bytes
  zlibDecoder : Bytes → Option Bytes

/-- Each decoder undoes its encoder. -/
structure Flate2.Laws (flate2 : Flate2) : Prop where
  gz : ∀ content level compressed, flate2.gzEncoder content level = some compressed →
    flate2.gzDecoder compressed = some content
  zlib : ∀ content level compressed, flate2.zlibEncoder content level = some compressed →
    flate2.zlibDecoder compressed = some content

structure RequestCompression where
  compressionWithThreshold : Option (CompressionAlgorithm × CompressionLevel × Nat)

namespace RequestCompression

def enabled (algorithm : CompressionAlgorithm) (level : CompressionLevel) (threshold : Nat) :
    RequestCompression :=
  ⟨some (algorithm, level, threshold)⟩

def disabled : RequestCompression := ⟨none⟩

def get (compression : RequestCompression) : Option (CompressionAlgorithm × CompressionLevel × Nat) :=
  compression.compressionWithThreshold

end RequestCompression

namespace ResponseCompressionAlgorithm

def acceptEncodingToken : ResponseCompressionAlgorithm → Text
  | .gzip => "gzip".toList
  | .deflate => "deflate".toList

/-- Ignores case, white space around the token, and parameters after it. -/
def fromContentEncoding (token : Text) : Option ResponseCompressionAlgorithm :=
  let token := (Text.trim ((token.splitOn ';').headD token)).map Char.toLower
  if token = "gzip".toList ∨ token = "x-gzip".toList then some .gzip
  else if token = "deflate".toList then some .deflate
  else none

end ResponseCompressionAlgorithm

def acceptEncodingHeaderValue (algorithms : List ResponseCompressionAlgorithm) : Text :=
  (", ".toList).intercalate (algorithms.map (·.acceptEncodingToken))

/-- A body that has been collected, or one that streams. -/
inductive SdkBody where
  | once (bytes : Bytes)
  | dyn (stream : Nat)
  deriving DecidableEq

def SdkBody.bytes : SdkBody → Option Bytes
  | .once bytes => some bytes
  | .dyn _ => none

structure Request where
  headers : Headers
  body : SdkBody
  deriving DecidableEq

namespace Headers

def containsKey (headers : Headers) (name : HeaderName) : Bool :=
  headers.any fun header => header.1 = name

/-- Adds a value after the other values of a name. -/
def append (headers : Headers) (name : HeaderName) (value : Text) : Headers :=
  headers ++ [(name, value)]

/-- Replaces the values of a name. -/
def insert (headers : Headers) (name : HeaderName) (value : Text) : Headers :=
  (headers.remove name).append name value

variable (headers : Headers) {name k : HeaderName} (value : Text)

theorem containsKey_eq_false : headers.containsKey name = false ↔ headers.getAll name = [] := by
  simp [containsKey, getAll]

theorem getAll_append_self :
    (headers.append name value).getAll name = headers.getAll name ++ [value] := by
  simp [append, getAll]

theorem getAll_append_of_ne (other : k ≠ name) :
    (headers.append name value).getAll k = headers.getAll k := by
  simp [append, getAll, Ne.symm other]

theorem getAll_insert_self : (headers.insert name value).getAll name = [value] := by
  rw [insert, getAll_append_self]
  simp [remove, getAll, List.filter_filter]

theorem getAll_insert_of_ne (other : k ≠ name) :
    (headers.insert name value).getAll k = headers.getAll k := by
  rw [insert, getAll_append_of_ne _ _ other, getAll_remove_of_ne _ other]

end Headers

section Compress

variable (flate2 : Flate2)

def compressGzip (content : Bytes) (level : CompressionLevel) : Option Bytes :=
  flate2.gzEncoder content level

def decompressGzip (content : Bytes) : Option Bytes := flate2.gzDecoder content

def compressZlib (content : Bytes) (level : CompressionLevel) : Option Bytes :=
  flate2.zlibEncoder content level

def decompressZlib (content : Bytes) : Option Bytes := flate2.zlibDecoder content

/-- The compressed body, if the compression succeeds, and the name of its encoding. -/
def CompressionAlgorithm.compress (algorithm : CompressionAlgorithm) (body : Bytes)
    (level : CompressionLevel) : Option Bytes × Text :=
  match algorithm with
  | .gzip => (compressGzip flate2 body level, "gzip".toList)
  | .deflate => (compressZlib flate2 body level, "deflate".toList)

def compressRequest (request : Request) (algorithm : CompressionAlgorithm)
    (level : CompressionLevel) (threshold : Nat) : Request :=
  if request.headers.containsKey .contentEncoding then request
  else match request.body.bytes with
    | none => request
    | some body =>
        if body.length < threshold then request
        else match algorithm.compress flate2 body level with
          | (none, _) => request
          | (some compressed, httpCode) =>
              { headers := (request.headers.append .contentEncoding httpCode).insert .contentLength
                  (toString compressed.length).toList
                body := .once compressed }

/-- The parts of the interceptor that its first hook reads. -/
structure CompressionInterceptor where
  requestCompression : RequestCompression
  /-- The algorithms of the response compression, if it is enabled. -/
  acceptedAlgorithms : Option (List ResponseCompressionAlgorithm)

/-- The two stores are the overrides found in the request's configuration. -/
def CompressionInterceptor.modifyBeforeRetryLoop (interceptor : CompressionInterceptor)
    (requestStore : Option RequestCompression)
    (responseStore : Option (Option (List ResponseCompressionAlgorithm))) (request : Request) :
    Request :=
  let request := match (requestStore.getD interceptor.requestCompression).get with
    | some (algorithm, level, threshold) =>
        compressRequest flate2 request algorithm level threshold
    | none => request
  match responseStore.getD interceptor.acceptedAlgorithms with
  | some algorithms =>
      { request with
        headers := request.headers.insert .acceptEncoding (acceptEncodingHeaderValue algorithms) }
  | none => request

end Compress

section Decode

variable {flate2 : Flate2} {algorithm : CompressionAlgorithm} {level : CompressionLevel}
variable {threshold : Nat} {request : Request} {body compressed : Bytes} {httpCode : Text}

/-- How the receiver of a body decodes it. -/
def ResponseCompressionAlgorithm.decompress (flate2 : Flate2) :
    ResponseCompressionAlgorithm → Bytes → Option Bytes
  | .gzip => decompressGzip flate2
  | .deflate => decompressZlib flate2

/-- The response algorithm that undoes a request algorithm. -/
def CompressionAlgorithm.matching : CompressionAlgorithm → ResponseCompressionAlgorithm
  | .gzip => .gzip
  | .deflate => .deflate

/-- The name of the encoding stands for the decoder that gives the body back. -/
theorem decompress_compress (laws : flate2.Laws)
    (done : algorithm.compress flate2 body level = (some compressed, httpCode)) :
    ResponseCompressionAlgorithm.fromContentEncoding httpCode = some algorithm.matching ∧
      algorithm.matching.decompress flate2 compressed = some body := by
  cases algorithm with
  | gzip =>
      obtain ⟨encoded, rfl⟩ := Prod.mk.inj done
      exact ⟨by decide, laws.gz body level compressed encoded⟩
  | deflate =>
      obtain ⟨encoded, rfl⟩ := Prod.mk.inj done
      exact ⟨by decide, laws.zlib body level compressed encoded⟩

/-- The cases in which a request goes out as it was serialized. -/
def LeftUntouched (flate2 : Flate2) (request : Request) (body : Bytes)
    (algorithm : CompressionAlgorithm) (level : CompressionLevel) (threshold : Nat) : Prop :=
  request.headers.getAll .contentEncoding ≠ [] ∨ body.length < threshold ∨
    (algorithm.compress flate2 body level).1 = none

theorem compressRequest_of_untouched (inMemory : request.body = .once body)
    (untouched : LeftUntouched flate2 request body algorithm level threshold) :
    compressRequest flate2 request algorithm level threshold = request := by
  rw [compressRequest, inMemory]
  dsimp only [SdkBody.bytes]
  cases encoded : request.headers.containsKey .contentEncoding with
  | true => rfl
  | false =>
      rw [if_neg Bool.false_ne_true]
      obtain present | short | failed := untouched
      · exact absurd (request.headers.containsKey_eq_false.mp encoded) present
      · rw [if_pos short]
      · split
        · rfl
        · split
          · rfl
          · next done => simp [done] at failed

theorem compressRequest_of_touched (inMemory : request.body = .once body)
    (touched : ¬ LeftUntouched flate2 request body algorithm level threshold) :
    ∃ compressed httpCode, algorithm.compress flate2 body level = (some compressed, httpCode) ∧
      request.headers.getAll .contentEncoding = [] ∧
      compressRequest flate2 request algorithm level threshold =
        ⟨(request.headers.append .contentEncoding httpCode).insert .contentLength
          (toString compressed.length).toList, .once compressed⟩ := by
  simp only [LeftUntouched, not_or, not_not, Nat.not_lt] at touched
  obtain ⟨absent, long, succeeds⟩ := touched
  cases done : algorithm.compress flate2 body level with
  | mk result httpCode =>
      cases result with
      | none => simp [done] at succeeds
      | some compressed =>
          refine ⟨compressed, httpCode, rfl, absent, ?_⟩
          rw [compressRequest, inMemory, request.headers.containsKey_eq_false.mpr absent,
            if_neg Bool.false_ne_true]
          simp only [SdkBody.bytes, if_neg (Nat.not_lt.mpr long), done]

/-- A request that has been compressed, or left as it is, is left as it is. Only the
values of one header decide, so whatever else is added to the headers does not matter. -/
theorem compressRequest_again (inMemory : request.body = .once body) {headers : Headers}
    (same : headers.getAll .contentEncoding = (compressRequest flate2 request algorithm level
      threshold).headers.getAll .contentEncoding) :
    compressRequest flate2
      ⟨headers, (compressRequest flate2 request algorithm level threshold).body⟩ algorithm level
      threshold = ⟨headers, (compressRequest flate2 request algorithm level threshold).body⟩ := by
  by_cases untouched : LeftUntouched flate2 request body algorithm level threshold
  · have kept := compressRequest_of_untouched inMemory untouched
    rw [kept] at same ⊢
    refine compressRequest_of_untouched inMemory (untouched.imp_left fun present => ?_)
    rwa [same]
  · obtain ⟨compressed, httpCode, -, -, result⟩ := compressRequest_of_touched inMemory untouched
    rw [result] at same ⊢
    refine compressRequest_of_untouched rfl (.inl ?_)
    rw [same, Headers.getAll_insert_of_ne _ _ (by decide), Headers.getAll_append_self]
    simp

/-- The transmit hook keeps the headers that every request needs. -/
theorem getAll_modifyBeforeTransmit_base (interceptor : AlternatorInterceptor)
    (store : Option Bool) (headers : Headers) {k : HeaderName} (base : k ∈ baseWhitelist) :
    (interceptor.modifyBeforeTransmit store headers).1.getAll k = headers.getAll k := by
  have other : k ≠ .userAgent := by
    rintro rfl
    exact absurd base (by decide)
  rw [AlternatorInterceptor.modifyBeforeTransmit, getAll_applyUserAgent _ _ other]
  split
  · rw [stripHeaders_eq]
    cases signedHeadersOf headers (store.getD interceptor.preserveAuthHeaders) with
    | none => rfl
    | some signedHeaders =>
        dsimp only
        rw [Headers.getAll_filter, if_pos (by simp [isAllowed, base])]
  · rfl

/-- The retry-loop hook adds nothing to a compressed request but what is accepted. -/
theorem modifyBeforeRetryLoop_eq {interceptor : CompressionInterceptor}
    {requestStore : Option RequestCompression}
    (responseStore : Option (Option (List ResponseCompressionAlgorithm)))
    (enabled : (requestStore.getD interceptor.requestCompression).get =
      some (algorithm, level, threshold)) :
    ∃ headers, interceptor.modifyBeforeRetryLoop flate2 requestStore responseStore request =
        ⟨headers, (compressRequest flate2 request algorithm level threshold).body⟩ ∧
      ∀ k, k ≠ .acceptEncoding → headers.getAll k =
        (compressRequest flate2 request algorithm level threshold).headers.getAll k := by
  rw [CompressionInterceptor.modifyBeforeRetryLoop, enabled]
  dsimp only
  cases responseStore.getD interceptor.acceptedAlgorithms with
  | none => exact ⟨_, rfl, fun _ _ => rfl⟩
  | some algorithms => exact ⟨_, rfl, fun k other => Headers.getAll_insert_of_ne _ _ other⟩

/-- What the server decodes is what was serialized. A request is sent with its own body,
encoding and length, or with one encoding that names the algorithm, the length of the
compressed body, and a body that this encoding decodes to the original. Signing, stripping
and the user agent do not change that, and compressing again changes nothing. -/
theorem server_decodes_what_was_serialized (laws : flate2.Laws)
    (interceptor : CompressionInterceptor) (requestStore : Option RequestCompression)
    (responseStore : Option (Option (List ResponseCompressionAlgorithm)))
    (enabled : (requestStore.getD interceptor.requestCompression).get =
      some (algorithm, level, threshold))
    (inMemory : request.body = .once body) {sign : Headers → Headers}
    (signs : ∀ headers, (sign headers).getAll .contentEncoding = headers.getAll .contentEncoding ∧
      (sign headers).getAll .contentLength = headers.getAll .contentLength)
    (transmitter : AlternatorInterceptor) (preserveStore : Option Bool) :
    let prepared := interceptor.modifyBeforeRetryLoop flate2 requestStore responseStore request
    let sent := (transmitter.modifyBeforeTransmit preserveStore (sign prepared.headers)).1
    (LeftUntouched flate2 request body algorithm level threshold →
      prepared.body = request.body ∧
      sent.getAll .contentEncoding = request.headers.getAll .contentEncoding ∧
      sent.getAll .contentLength = request.headers.getAll .contentLength) ∧
    (¬ LeftUntouched flate2 request body algorithm level threshold →
      ∃ transmitted httpCode, prepared.body = .once transmitted ∧
        sent.getAll .contentEncoding = [httpCode] ∧
        ResponseCompressionAlgorithm.fromContentEncoding httpCode = some algorithm.matching ∧
        sent.getAll .contentLength = [(toString transmitted.length).toList] ∧
        algorithm.matching.decompress flate2 transmitted = some body) ∧
    compressRequest flate2 prepared algorithm level threshold = prepared := by
  intro prepared sent
  obtain ⟨headers, result, kept⟩ :=
    @modifyBeforeRetryLoop_eq flate2 algorithm level threshold request interceptor requestStore
      responseStore enabled
  have encoding : sent.getAll .contentEncoding = (compressRequest flate2 request algorithm level
      threshold).headers.getAll .contentEncoding := by
    rw [getAll_modifyBeforeTransmit_base _ _ _ (by decide), (signs _).1, ← kept _ (by decide)]
    exact congrArg (fun r : Request => r.headers.getAll .contentEncoding) result
  have length : sent.getAll .contentLength = (compressRequest flate2 request algorithm level
      threshold).headers.getAll .contentLength := by
    rw [getAll_modifyBeforeTransmit_base _ _ _ (by decide), (signs _).2, ← kept _ (by decide)]
    exact congrArg (fun r : Request => r.headers.getAll .contentLength) result
  have body' : prepared.body = (compressRequest flate2 request algorithm level threshold).body :=
    by rw [show prepared = _ from result]
  refine ⟨fun untouched => ?_, fun touched => ?_, ?_⟩
  · have original := compressRequest_of_untouched inMemory untouched
    rw [original] at encoding length body'
    exact ⟨body', encoding, length⟩
  · obtain ⟨transmitted, httpCode, done, absent, compressed⟩ :=
      compressRequest_of_touched inMemory touched
    obtain ⟨named, decoded⟩ := decompress_compress laws done
    rw [compressed] at encoding length body'
    refine ⟨transmitted, httpCode, body', ?_, named, ?_, decoded⟩
    · rw [encoding, Headers.getAll_insert_of_ne _ _ (by decide), Headers.getAll_append_self, absent,
        List.nil_append]
    · rw [length, Headers.getAll_insert_self]
  · have again := compressRequest_again inMemory (kept .contentEncoding (by decide))
    rw [show prepared = _ from result]
    exact again

end Decode

namespace EmptyObject

/-- The body of a request without parameters, and the member that gzip makes of it. -/
def body : Bytes := "{}".toList.map fun c => UInt8.ofNat c.toNat

def member : Bytes :=
  [0x1f, 0x8b, 0x08, 0x00, 0x00, 0x00, 0x00, 0x00, 0x00, 0xff, 0xab, 0xae, 0x05, 0x00,
    0x43, 0xbf, 0xa6, 0xa3, 0x02, 0x00, 0x00, 0x00]

/-- What the library does with that body. -/
def flate2 : Flate2 where
  gzEncoder content _ := if content = body then some member else none
  gzDecoder content := if content = member then some body else none
  zlibEncoder _ _ := none
  zlibDecoder _ := none

theorem flate2_laws : flate2.Laws where
  gz content level compressed encoded := by
    simp only [flate2] at encoded ⊢
    split at encoded
    · next same =>
      cases encoded
      rw [if_pos rfl, same]
    · cases encoded
  zlib _ _ _ encoded := nomatch encoded

def request : Request := ⟨[(.contentLength, "2".toList)], .once body⟩

def sign (headers : Headers) : Headers := headers.append .authorization "signature".toList

def interceptor : CompressionInterceptor := ⟨.enabled .gzip 6 2, some [.deflate]⟩

def prepared : Request := interceptor.modifyBeforeRetryLoop flate2 none none request

def sent : Headers :=
  (AlternatorInterceptor.modifyBeforeTransmit ⟨true, .default, false⟩ none (sign prepared.headers)).1

/-- The threshold is the length of the body, and the authorization is stripped. -/
theorem server_decodes_what_was_serialized_emptyObject :
    ∃ transmitted httpCode, prepared.body = .once transmitted ∧
      sent.getAll .contentEncoding = [httpCode] ∧
      ResponseCompressionAlgorithm.fromContentEncoding httpCode = some .gzip ∧
      sent.getAll .contentLength = [(toString transmitted.length).toList] ∧
      ResponseCompressionAlgorithm.gzip.decompress flate2 transmitted = some body := by
  have signs (headers : Headers) :
      (sign headers).getAll .contentEncoding = headers.getAll .contentEncoding ∧
        (sign headers).getAll .contentLength = headers.getAll .contentLength :=
    ⟨Headers.getAll_append_of_ne _ _ (by decide), Headers.getAll_append_of_ne _ _ (by decide)⟩
  have touched : ¬ LeftUntouched flate2 request body .gzip 6 2 := by
    simp only [LeftUntouched]
    decide
  obtain ⟨-, encoded, -⟩ := @server_decodes_what_was_serialized flate2 .gzip 6 2 request body
    flate2_laws interceptor none none rfl rfl sign signs ⟨true, .default, false⟩ none
  exact encoded touched

end EmptyObject

end AlternatorDriver
