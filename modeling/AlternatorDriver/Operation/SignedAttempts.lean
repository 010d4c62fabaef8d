import AlternatorDriver.Operation.Overrides

/-!
# What the attempts of an operation send

The interceptor does not know whether an operation will be signed: the credentials may come
with the operation. It looks at each request after the signing, and remembers a signature for
the attempts that follow. So a signed request keeps what its signature covers in every attempt,
and an operation that is never signed, on a client without credentials, sends nothing but the
headers that a request needs.
-/

namespace AlternatorDriver

open Foundation

variable {Url : Type} {urls : UrlLibrary Url} {acceptsUri : Text → Bool} {flate2 : Flate2}
  {library : AsyncLibrary}

section State

variable (urls acceptsUri)

/-- The attempt gets as far as a signed request. -/
def signsRequest (hasQueryPlan : Bool) (request : Request) (env : AttemptEnvironment Url) : Bool :=
  match DriverInterceptor.modifyBeforeSigning urls acceptsUri
    ⟨none, none, none, hasQueryPlan⟩ env.nextNode env.uri with
  | .error _ => false
  | .ok uri => isSigned (env.sign uri request.headers)

/-- What an operation has stored after some of its attempts. -/
def storedAfter (state : InterceptorState) (request : Request)
    (envs : List (AttemptEnvironment Url)) : InterceptorState :=
  { state with
    preserveAuthHeadersStore :=
      if envs.any (signsRequest urls acceptsUri state.hasQueryPlan request) then some true
      else state.preserveAuthHeadersStore }

end State

variable {interceptor : DriverInterceptor} {state : InterceptorState} {request : Request}
  {env : AttemptEnvironment Url} {envs : List (AttemptEnvironment Url)}

/-- An attempt changes nothing in the configuration but the record of a signature. -/
theorem state_attempt :
    (interceptor.attempt urls acceptsUri library state request env).2 =
      storedAfter urls acceptsUri state request [env] := by
  have same : DriverInterceptor.modifyBeforeSigning urls acceptsUri
      ⟨none, none, none, state.hasQueryPlan⟩ env.nextNode env.uri =
        DriverInterceptor.modifyBeforeSigning urls acceptsUri state env.nextNode env.uri := rfl
  simp only [DriverInterceptor.attempt, storedAfter, signsRequest, same, List.any_cons,
    List.any_nil, Bool.or_false]
  cases DriverInterceptor.modifyBeforeSigning urls acceptsUri state env.nextNode env.uri with
  | error e => rfl
  | ok uri =>
      simp only [DriverInterceptor.readAfterSigning]
      by_cases signed : isSigned (env.sign uri request.headers) = true <;> simp [signed]

theorem storedAfter_append (earlier later : List (AttemptEnvironment Url)) :
    storedAfter urls acceptsUri state request (earlier ++ later) =
      storedAfter urls acceptsUri (storedAfter urls acceptsUri state request earlier) request
        later := by
  simp only [storedAfter, List.any_append, Bool.or_eq_true]
  congr 1
  by_cases signed : earlier.any (signsRequest urls acceptsUri state.hasQueryPlan request) = true <;>
    simp [signed]

/-- Each attempt is made with what the attempts before it have stored. -/
theorem getElem_attempts (i : Nat) :
    (interceptor.attempts urls acceptsUri library state request envs)[i]? =
      envs[i]?.map fun env => (interceptor.attempt urls acceptsUri library
        (storedAfter urls acceptsUri state request (envs.take i)) request env).1 := by
  induction envs generalizing state i with
  | nil => rfl
  | cons env envs ih =>
      rw [DriverInterceptor.attempts, state_attempt]
      cases i with
      | zero => rfl
      | succ i =>
          rw [List.getElem?_cons_succ, List.getElem?_cons_succ, ih, List.take_succ_cons]
          refine congrArg (fun f => Option.map f envs[i]?) (funext fun env' => ?_)
          rw [show env :: envs.take i = [env] ++ envs.take i from rfl, storedAfter_append]

/-- A request that an attempt sends has been signed, and has then been through the transmit
hook. -/
theorem sent_attempt {uri : Text} {sent : Request}
    (sends : (interceptor.attempt urls acceptsUri library state request env).1.sent =
      some (uri, sent)) :
    DriverInterceptor.modifyBeforeSigning urls acceptsUri state env.nextNode env.uri = .ok uri ∧
      interceptor.modifyBeforeTransmit
        (storedAfter urls acceptsUri state request [env]).preserveAuthHeadersStore
        (env.sign uri request.headers) = (sent.headers, .ok ()) ∧
      sent.body = request.body := by
  have after := @state_attempt _ urls acceptsUri library interceptor state request env
  simp only [DriverInterceptor.attempt] at sends after
  split at sends
  · cases sends
  · next uri' routed =>
    rw [routed] at after ⊢
    simp only [DriverInterceptor.exchange, DriverInterceptor.transmitted] at sends after
    rw [after] at sends
    split at sends
    · cases sends
    · next headers result =>
      split at sends <;> cases sends <;> exact ⟨rfl, result, rfl⟩

/-- An attempt that is answered ends with what the last hook makes of the response. -/
theorem result_attempt {uri : Text} {sent : Request} {response : Response (List BodyEvent)}
    (sends : (interceptor.attempt urls acceptsUri library
      (storedAfter urls acceptsUri state request envs) request env).1.sent = some (uri, sent))
    (answers : env.respond uri sent = some response) :
    (interceptor.attempt urls acceptsUri library
      (storedAfter urls acceptsUri state request envs) request env).1.result =
        interceptor.deserialized library state response := by
  simp only [DriverInterceptor.attempt] at sends ⊢
  split at sends
  · cases sends
  · next uri' routed =>
    simp only [DriverInterceptor.exchange] at sends ⊢
    split at sends
    · cases sends
    · next headers transmitted =>
      have stored : (DriverInterceptor.readAfterSigning (storedAfter urls acceptsUri state request
          envs) (env.sign uri' request.headers)).responseCompressionStore =
          state.responseCompressionStore := by
        simp only [DriverInterceptor.readAfterSigning, storedAfter]
        split <;> rfl
      split at sends
      · next none =>
        cases sends
        rw [none] at answers
        cases answers
      · next some =>
        cases sends
        rw [some] at answers
        cases answers
        simp only [DriverInterceptor.deserialized, stored]

/-- The transmit hook that preserves keeps the auth headers too. -/
theorem getAll_modifyBeforeTransmit_auth (interceptor : AlternatorInterceptor)
    (headers : Headers) {k : HeaderName} (auth : k ∈ authWhitelist) :
    (interceptor.modifyBeforeTransmit (some true) headers).1.getAll k = headers.getAll k := by
  have other : k ≠ .userAgent := by
    rintro rfl
    exact absurd auth (by decide)
  rw [AlternatorInterceptor.modifyBeforeTransmit, getAll_applyUserAgent _ _ other]
  split
  · rw [stripHeaders_eq, Option.getD_some]
    cases signedHeadersOf headers true with
    | none => rfl
    | some signedHeaders =>
        dsimp only
        rw [Headers.getAll_filter, if_pos (by simp [isAllowed, auth])]
  · rfl

/-- Without optimization the hook changes the user agent only. -/
theorem getAll_modifyBeforeTransmit_plain {interceptor : AlternatorInterceptor}
    (plain : interceptor.optimizeHeaders = false) (store : Option Bool) (headers : Headers)
    {k : HeaderName} (other : k ≠ .userAgent) :
    (interceptor.modifyBeforeTransmit store headers).1.getAll k = headers.getAll k := by
  rw [AlternatorInterceptor.modifyBeforeTransmit, getAll_applyUserAgent _ _ other, plain,
    if_neg Bool.false_ne_true]

/-- The hook that does not preserve removes what is not on the base list. -/
theorem getAll_modifyBeforeTransmit_bare {interceptor : AlternatorInterceptor}
    (optimize : interceptor.optimizeHeaders = true) {store : Option Bool}
    (bare : store.getD interceptor.preserveAuthHeaders = false) (headers : Headers)
    {k : HeaderName} (other : k ≠ .userAgent) (extra : k ∉ baseWhitelist) :
    (interceptor.modifyBeforeTransmit store headers).1.getAll k = [] := by
  rw [AlternatorInterceptor.modifyBeforeTransmit, getAll_applyUserAgent _ _ other, if_pos optimize,
    bare, stripHeaders_eq]
  simp only [signedHeadersOf, Bool.false_eq_true, if_false]
  rw [Headers.getAll_filter, if_neg (by simp [isAllowed, extra])]

/-- A transmitted request carries the user agent that is configured. -/
theorem getAll_modifyBeforeTransmit_userAgent {interceptor : AlternatorInterceptor}
    {store : Option Bool} {headers after : Headers}
    (transmits : interceptor.modifyBeforeTransmit store headers = (after, .ok ())) :
    after.getAll .userAgent = interceptor.userAgent.resolve.toList := by
  simp only [AlternatorInterceptor.modifyBeforeTransmit, applyUserAgent] at transmits
  cases resolved : interceptor.userAgent.resolve with
  | none =>
      rw [resolved] at transmits
      cases transmits
      exact getAll_remove_self _ _
  | some value =>
      simp only [resolved] at transmits
      split at transmits
      · cases transmits
        exact Headers.getAll_insert_self _ value
      · cases transmits

/-- What a request keeps of the headers it was signed with. -/
structure SentAsSigned (interceptor : DriverInterceptor) (everSigned : Bool)
    (signed sent : Headers) : Prop where
  userAgent : sent.getAll .userAgent = interceptor.userAgent.resolve.toList
  base : ∀ k ∈ baseWhitelist, sent.getAll k = signed.getAll k
  plain : interceptor.optimizeHeaders = false → ∀ k, k ≠ .userAgent →
    sent.getAll k = signed.getAll k
  auth : isSigned signed = true → ∀ k ∈ authWhitelist, sent.getAll k = signed.getAll k
  named : isSigned signed = true → ∀ authorization ∈ signed.getAll .authorization, ∀ list k,
    ReadsSignedHeaders authorization list → IsNamedIn k list → k ≠ .userAgent →
    sent.getAll k = signed.getAll k
  bare : interceptor.optimizeHeaders = true → interceptor.preserveAuthHeaders = false →
    everSigned = false → ∀ k ∉ baseWhitelist, k ≠ .userAgent → sent.getAll k = []

/-- In every attempt of an operation, a request goes out with the prepared body and the
configured user agent. If it is signed it keeps its auth headers and all headers that its
signature names, whether or not the client has credentials. If nothing has been signed so far,
on a client without credentials, an optimized request keeps the base headers only. -/
theorem attempts_send_what_is_signed (settings : RequestSettings) (hasQueryPlan : Bool)
    (overrides : List AlternatorOperationBuilder) (request : Request)
    (envs : List (AttemptEnvironment Url)) {i : Nat} {env : AttemptEnvironment Url}
    {record : AttemptRecord} {uri : Text} {sent : Request} (attempted : envs[i]? = some env)
    (recorded : (operation urls acceptsUri flate2 library settings hasQueryPlan overrides request
      envs)[i]? = some record)
    (sends : record.sent = some (uri, sent)) :
    sent.body = (preparedRequest flate2 settings hasQueryPlan overrides request).body ∧
      SentAsSigned settings.interceptor
        ((envs.take (i + 1)).any (signsRequest urls acceptsUri hasQueryPlan
          (preparedRequest flate2 settings hasQueryPlan overrides request)))
        (env.sign uri (preparedRequest flate2 settings hasQueryPlan overrides request).headers)
        sent.headers := by
  have plan : (storedBeforeSerialization hasQueryPlan overrides).hasQueryPlan = hasQueryPlan ∧
      (storedBeforeSerialization hasQueryPlan overrides).preserveAuthHeadersStore = none := by
    have alike := actAlike_override settings overrides hasQueryPlan
    rw [storedBeforeSerialization_eq]
    exact ⟨alike.plan, alike.preserve⟩
  rw [operation, getElem_attempts, attempted] at recorded
  cases recorded
  obtain ⟨routed, transmits, body⟩ := sent_attempt sends
  refine ⟨body, ?_⟩
  rw [← storedAfter_append, show envs.take i ++ [env] = envs.take (i + 1) by
    rw [List.take_add_one, attempted, Option.toList_some]] at transmits
  simp only [storedAfter, plan] at transmits
  have headers : sent.headers = (settings.interceptor.modifyBeforeTransmit
      (if (envs.take (i + 1)).any (signsRequest urls acceptsUri hasQueryPlan
          (preparedRequest flate2 settings hasQueryPlan overrides request)) then some true
        else none)
      (env.sign uri
        (preparedRequest flate2 settings hasQueryPlan overrides request).headers)).1 := by
    rw [transmits]
  -- A request that is signed now has set the store.
  have signs (signed : isSigned (env.sign uri
      (preparedRequest flate2 settings hasQueryPlan overrides request).headers) = true) :
      (envs.take (i + 1)).any (signsRequest urls acceptsUri hasQueryPlan
        (preparedRequest flate2 settings hasQueryPlan overrides request)) = true := by
    refine List.any_eq_true.mpr ⟨env, ?_, ?_⟩
    · rw [List.take_add_one, attempted]
      exact List.mem_append_right _ (List.mem_singleton_self env)
    · simp only [storedAfter, plan, DriverInterceptor.modifyBeforeSigning] at routed
      simpa only [signsRequest, DriverInterceptor.modifyBeforeSigning, routed] using signed
  constructor
  · exact getAll_modifyBeforeTransmit_userAgent transmits
  · intro k base
    rw [headers, getAll_modifyBeforeTransmit_base _ _ _ base]
  · intro plain k other
    rw [headers, getAll_modifyBeforeTransmit_plain plain _ _ other]
  · intro signed k auth
    rw [headers, signs signed, if_pos rfl, getAll_modifyBeforeTransmit_auth _ _ auth]
  · intro signed authorization present list k reads named other
    rw [headers, signs signed, if_pos rfl]
    cases optimize : settings.interceptor.optimizeHeaders with
    | true => exact getAll_modifyBeforeTransmit optimize rfl present reads named other
    | false => exact getAll_modifyBeforeTransmit_plain optimize _ _ other
  · intro optimize anonymous unsigned k extra other
    rw [headers, unsigned]
    exact getAll_modifyBeforeTransmit_bare optimize (by simpa using anonymous) _ other extra

/-- A client without credentials, and an operation that brings its own. -/
def anonymousSettings : RequestSettings := ⟨none, none, none, none, false⟩

def signingEnvironment : AttemptEnvironment PlainUrl where
  uri := "http://a".toList
  nextNode := none
  sign _ headers := headers ++
    [(.authorization, imitatingAuthorization), (.xAmzDate, "d".toList), (.xAmzUserAgent, [])]
  respond _ _ := none

theorem attempts_send_what_is_signed_twice :
    ∃ record uri sent, (operation PlainUrl.library (fun _ => true) EmptyObject.flate2
        EmptyObject.library anonymousSettings false [] EmptyObject.request
        [signingEnvironment, signingEnvironment])[1]? = some record ∧
      record.sent = some (uri, sent) ∧
      sent.headers.getAll .authorization = [imitatingAuthorization] := by
  obtain ⟨-, kept⟩ := @attempts_send_what_is_signed _ PlainUrl.library (fun _ => true)
    EmptyObject.flate2 EmptyObject.library anonymousSettings false [] EmptyObject.request
    [signingEnvironment, signingEnvironment] 1 signingEnvironment _ _ _ rfl rfl rfl
  exact ⟨_, _, _, rfl, rfl, kept.auth rfl .authorization (by decide)⟩

end AlternatorDriver
