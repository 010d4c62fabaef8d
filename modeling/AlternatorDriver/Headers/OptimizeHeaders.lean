import AlternatorDriver.Foundation.Text

/-!
# Header optimization

`strip_headers` removes the headers a request does not need. Which headers a signed
request needs is read from its `Authorization` value; one the parser does not
understand leaves the request as it is, because stripping is only an optimization.

A header map is a list of names and values. Only the order of the values of one name
means something.
-/

namespace AlternatorDriver

open Foundation

def isHeaderNameChar (c : Char) : Bool :=
  c.isLower || c.isDigit || "!#$%&'*+-.^_`|~".toList.contains c

def isCanonicalHeaderName (header : Text) : Bool :=
  !header.isEmpty && header.all isHeaderNameChar

/-- A name in a header map: a lower-case token, which is what the source's
`is_canonical_header_name` recognizes. -/
structure HeaderName where
  text : Text
  canonical : isCanonicalHeaderName text = true
  deriving DecidableEq

abbrev Headers := List (HeaderName × Text)

namespace Headers

def getAll (headers : Headers) (name : HeaderName) : List Text :=
  (headers.filter fun header => header.1 = name).map (·.2)

/-- Removes all values of a name. -/
def remove (headers : Headers) (name : HeaderName) : Headers :=
  headers.filter fun header => header.1 ≠ name

/-- What a filter by name leaves of the values of one name: all of them, or none. -/
theorem getAll_filter (headers : Headers) (keep : HeaderName → Bool) (k : HeaderName) :
    Headers.getAll (headers.filter fun header => keep header.1) k =
      if keep k then headers.getAll k else [] := by
  unfold getAll
  rw [List.filter_filter]
  cases kept : keep k with
  | true =>
      rw [if_pos rfl]
      congr 1
      apply List.filter_congr
      intro header _
      by_cases same : header.1 = k <;> simp [same, kept]
  | false =>
      simp only [Bool.false_eq_true, if_false, List.map_eq_nil_iff, List.filter_eq_nil_iff]
      intro header _
      by_cases same : header.1 = k <;> simp [same, kept]

theorem getAll_remove_of_ne (headers : Headers) {name k : HeaderName} (other : k ≠ name) :
    (headers.remove name).getAll k = headers.getAll k := by
  have kept := getAll_filter headers (fun key => key ≠ name) k
  simpa [remove, other] using kept

end Headers

namespace HeaderName

def host : HeaderName := ⟨"host".toList, by decide⟩
def xAmzTarget : HeaderName := ⟨"x-amz-target".toList, by decide⟩
def contentLength : HeaderName := ⟨"content-length".toList, by decide⟩
def contentType : HeaderName := ⟨"content-type".toList, by decide⟩
def acceptEncoding : HeaderName := ⟨"accept-encoding".toList, by decide⟩
def contentEncoding : HeaderName := ⟨"content-encoding".toList, by decide⟩
def authorization : HeaderName := ⟨"authorization".toList, by decide⟩
def xAmzDate : HeaderName := ⟨"x-amz-date".toList, by decide⟩
def xAmzUserAgent : HeaderName := ⟨"x-amz-user-agent".toList, by decide⟩
def xAmzSecurityToken : HeaderName := ⟨"x-amz-security-token".toList, by decide⟩
def userAgent : HeaderName := ⟨"user-agent".toList, by decide⟩

end HeaderName

def baseWhitelist : List HeaderName :=
  [.host, .xAmzTarget, .contentLength, .contentType, .acceptEncoding, .contentEncoding]

def authWhitelist : List HeaderName :=
  [.authorization, .xAmzDate, .xAmzUserAgent, .xAmzSecurityToken]

/-- The loop over the parameters. The accumulator is the `SignedHeaders` value found so
far; a parameter the parser does not understand ends the loop. -/
def scanParameters (signedHeaders : Option Text) : List Text → Option (Option Text)
  | [] => some signedHeaders
  | parameter :: rest =>
      if (Text.trim parameter).isEmpty || (Text.trim parameter).any isAsciiWhitespace then none
      else match Text.splitOnce '=' (Text.trim parameter) with
        | none => none
        | some (name, value) =>
            if name.isEmpty || value.isEmpty || value.contains '=' then none
            else if name ≠ "SignedHeaders".toList then scanParameters signedHeaders rest
            else if signedHeaders.isSome then none
            else scanParameters (some (Text.trim value)) rest

/-- Every two neighbours ascend, `windows(2)` of the source. -/
def ascending (headers : List Text) : Bool :=
  (headers.zip headers.tail).all fun pair => decide (pair.1 < pair.2)

def parseSignedHeaders (authorization : Text) : Option (List Text) :=
  match Text.splitOnce ' ' authorization with
  | none => none
  | some (algorithm, parameters) =>
      if algorithm ≠ "AWS4-HMAC-SHA256".toList then none
      else match scanParameters none (parameters.splitOn ',') with
        | some (some signedHeaders) =>
            let headers := signedHeaders.splitOn ';'
            if ascending headers && headers.all isCanonicalHeaderName then some headers else none
        | _ => none

/-- The parsed signed list, if the request is to be stripped at all. -/
def signedHeadersOf (headers : Headers) (preserveAuthHeaders : Bool) : Option (List Text) :=
  if preserveAuthHeaders then
    match headers.getAll .authorization with
    | [authorization] => parseSignedHeaders authorization
    | _ => none
  else some []

def isAllowed (preserveAuthHeaders : Bool) (signedHeaders : List Text) (key : HeaderName) : Bool :=
  baseWhitelist.contains key ||
    preserveAuthHeaders && (authWhitelist.contains key || signedHeaders.contains key.text)

def stripHeaders (headers : Headers) (preserveAuthHeaders : Bool) : Headers :=
  match signedHeadersOf headers preserveAuthHeaders with
  | none => headers
  | some signedHeaders =>
      let unallowedKeys :=
        (headers.map (·.1)).filter fun key => !isAllowed preserveAuthHeaders signedHeaders key
      unallowedKeys.foldl Headers.remove headers

/-- Removing keys one after the other leaves the headers with the other keys. -/
theorem foldl_remove (keys : List HeaderName) (headers : Headers) :
    keys.foldl Headers.remove headers = headers.filter fun header => !keys.contains header.1 := by
  induction keys generalizing headers with
  | nil => simp
  | cons key keys ih =>
      rw [List.foldl_cons, ih, Headers.remove, List.filter_filter]
      apply List.filter_congr
      intro header _
      by_cases same : header.1 = key <;> simp [same]

/-- Either the request is not understood and stays, or the allowed headers stay. -/
theorem stripHeaders_eq (headers : Headers) (preserveAuthHeaders : Bool) :
    stripHeaders headers preserveAuthHeaders =
      match signedHeadersOf headers preserveAuthHeaders with
      | none => headers
      | some signedHeaders =>
          headers.filter fun header => isAllowed preserveAuthHeaders signedHeaders header.1 := by
  unfold stripHeaders
  cases signedHeadersOf headers preserveAuthHeaders with
  | none => rfl
  | some signedHeaders =>
      dsimp only
      rw [foldl_remove]
      apply List.filter_congr
      intro header member
      have listed : header.1 ∈ headers.map (·.1) := List.mem_map_of_mem member
      cases allowed : isAllowed preserveAuthHeaders signedHeaders header.1 with
      | true => simp [allowed]
      | false =>
          have unallowed : header.1 ∈ (headers.map (·.1)).filter fun key =>
              !isAllowed preserveAuthHeaders signedHeaders key :=
            List.mem_filter.mpr ⟨listed, by simp [allowed]⟩
          simpa using unallowed

/-- Stripping keeps the `Authorization` values whenever it reads them. -/
theorem signedHeadersOf_stripHeaders (headers : Headers) (preserveAuthHeaders : Bool) :
    signedHeadersOf (stripHeaders headers preserveAuthHeaders) preserveAuthHeaders =
      signedHeadersOf headers preserveAuthHeaders := by
  cases preserveAuthHeaders with
  | false => rfl
  | true =>
      rw [stripHeaders_eq]
      cases parsed : signedHeadersOf headers true with
      | none => exact parsed
      | some signedHeaders =>
          have kept : isAllowed true signedHeaders .authorization = true := by
            simp [isAllowed, authWhitelist]
          simp only [signedHeadersOf, if_true] at parsed ⊢
          rw [Headers.getAll_filter, kept]
          exact parsed

/-- Stripping twice equals stripping once. -/
theorem stripHeaders_idem (headers : Headers) (preserveAuthHeaders : Bool) :
    stripHeaders (stripHeaders headers preserveAuthHeaders) preserveAuthHeaders =
      stripHeaders headers preserveAuthHeaders := by
  rw [stripHeaders_eq (stripHeaders headers preserveAuthHeaders), signedHeadersOf_stripHeaders,
    stripHeaders_eq]
  cases signedHeadersOf headers preserveAuthHeaders with
  | none => rfl
  | some signedHeaders => simp [List.filter_filter]

end AlternatorDriver
