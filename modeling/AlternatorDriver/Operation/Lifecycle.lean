import AlternatorDriver.Compression.ContentEncoding
import AlternatorDriver.Routing.Rewrite

/-!
# The lifecycle of an operation

An operation is serialized once and attempted any number of times. The interceptors of the
driver see it before the serialization, before the retry loop, and in each attempt before and
after the signing, before the transmission and before the deserialization. What they keep
about the operation lives in its configuration and outlasts an attempt; the request of every
attempt is the one from before the retry loop.

The SDK and the network are the environment of an attempt: the URI, the next node of the plan,
what is added until the request is signed, and the response, if any.
-/

namespace AlternatorDriver

open Foundation

def defaultMaxResponseEncodingLayers : Nat := 5
def defaultMaxDecompressedResponseBytes : Nat := 32 * 1024 * 1024

/-- The whole `ResponseCompression`: what a request advertises, and the limits. -/
structure ResponseNegotiation where
  acceptedAlgorithms : Option (List ResponseCompressionAlgorithm)
  limits : ResponseCompression

def ResponseCompressionAlgorithm.all : List ResponseCompressionAlgorithm := [.gzip, .deflate]

namespace ResponseNegotiation

def new (acceptedAlgorithms : Option (List ResponseCompressionAlgorithm)) :
    ResponseNegotiation where
  acceptedAlgorithms := acceptedAlgorithms
  limits := ⟨defaultMaxResponseEncodingLayers, defaultMaxDecompressedResponseBytes⟩

def enabled (algorithm : ResponseCompressionAlgorithm) : ResponseNegotiation :=
  .new (some [algorithm])

def enabledAll : ResponseNegotiation := .new (some ResponseCompressionAlgorithm.all)

def enabledMany (algorithms : List ResponseCompressionAlgorithm) : ResponseNegotiation :=
  let seen := algorithms.foldl (fun seen algo => if algo ∈ seen then seen else seen ++ [algo]) []
  if seen.isEmpty then .enabledAll else .new (some seen)

def disabled : ResponseNegotiation := .new none

def withMaxEncodingLayers (negotiation : ResponseNegotiation) (maxEncodingLayers : Nat) :
    ResponseNegotiation :=
  { negotiation with limits := { negotiation.limits with maxEncodingLayers := maxEncodingLayers } }

def withMaxDecompressedBytes (negotiation : ResponseNegotiation) (maxDecompressedBytes : Nat) :
    ResponseNegotiation :=
  { negotiation with
    limits := { negotiation.limits with maxDecompressedBytes := maxDecompressedBytes } }

end ResponseNegotiation

/-- The settings of a client that its main interceptor is built from. -/
structure RequestSettings where
  requestCompression : Option RequestCompression
  responseCompression : Option ResponseNegotiation
  optimizeHeaders : Option Bool
  userAgent : Option UserAgent
  hasCredentialsProvider : Bool

/-- The whole `AlternatorInterceptor`. -/
structure DriverInterceptor extends AlternatorInterceptor where
  requestCompression : RequestCompression
  responseCompression : ResponseNegotiation

/-- The interceptor that a client adds, with the defaults of what is not set. -/
def RequestSettings.interceptor (settings : RequestSettings) : DriverInterceptor where
  requestCompression := settings.requestCompression.getD .disabled
  responseCompression := settings.responseCompression.getD .disabled
  optimizeHeaders := settings.optimizeHeaders.getD true
  userAgent := settings.userAgent.getD .default
  preserveAuthHeaders := settings.hasCredentialsProvider

/-- What the interceptors have stored in the configuration of an operation. Of a query plan
only its presence is recorded. -/
structure InterceptorState where
  requestCompressionStore : Option RequestCompression
  responseCompressionStore : Option ResponseNegotiation
  preserveAuthHeadersStore : Option Bool
  hasQueryPlan : Bool

/-- An `AlternatorOverrideInterceptor`, with the value that it carries. -/
inductive OverrideInterceptor where
  | forRequestCompression (requestCompression : RequestCompression)
  | forResponseCompression (responseCompression : ResponseNegotiation)

def OverrideInterceptor.modifyBeforeSerialization (state : InterceptorState) :
    OverrideInterceptor → InterceptorState
  | .forRequestCompression compression =>
      { state with requestCompressionStore := some compression }
  | .forResponseCompression compression =>
      { state with responseCompressionStore := some compression }

/-- The settings that are overridden for one operation. -/
structure AlternatorOperationBuilder where
  requestCompression : Option RequestCompression
  responseCompression : Option ResponseNegotiation

/-- The interceptors of an operation after one more override. -/
def alternatorConfigOverride (interceptors : List OverrideInterceptor)
    (configOverride : AlternatorOperationBuilder) : List OverrideInterceptor :=
  let interceptors := match configOverride.requestCompression with
    | some compression => interceptors ++ [.forRequestCompression compression]
    | none => interceptors
  match configOverride.responseCompression with
  | some compression => interceptors ++ [.forResponseCompression compression]
  | none => interceptors

/-- What surrounds an attempt. Signing stands for all that the SDK does to the headers until
the request is signed. -/
structure AttemptEnvironment (Url : Type) where
  uri : Text
  nextNode : Option Url
  sign : Text → Headers → Headers
  respond : Text → Request → Option (Response (List BodyEvent))

inductive AttemptError where
  | routing (e : RoutingError)
  | transmit (e : TransmitError)
  | noResponse
  | response (e : ResponseError)

/-- What an attempt has sent, and how it has ended. -/
structure AttemptRecord where
  sent : Option (Text × Request)
  result : Except AttemptError (Response ResponseBody)

/-- A request that carries a signature. -/
def isSigned (headers : Headers) : Bool :=
  headers.containsKey .authorization && headers.containsKey .xAmzDate

namespace DriverInterceptor

variable {Url : Type} (urls : UrlLibrary Url) (acceptsUri : Text → Bool) (flate2 : Flate2)
  (library : AsyncLibrary) (interceptor : DriverInterceptor)

def modifyBeforeRetryLoop (state : InterceptorState) (request : Request) : Request :=
  CompressionInterceptor.modifyBeforeRetryLoop flate2
    ⟨interceptor.requestCompression, interceptor.responseCompression.acceptedAlgorithms⟩
    state.requestCompressionStore
    (state.responseCompressionStore.map ResponseNegotiation.acceptedAlgorithms) request

/-- The URI of an attempt. Without a plan it stays as the SDK has resolved it. -/
def modifyBeforeSigning (state : InterceptorState) (nextNode : Option Url) (uri : Text) :
    Except RoutingError Text :=
  if state.hasQueryPlan then urls.modifyBeforeSigning acceptsUri nextNode uri else .ok uri

def readAfterSigning (state : InterceptorState) (headers : Headers) : InterceptorState :=
  if isSigned headers then { state with preserveAuthHeadersStore := some true } else state

def transmitted (state : InterceptorState) (headers : Headers) :
    Headers × Except TransmitError Unit :=
  interceptor.modifyBeforeTransmit state.preserveAuthHeadersStore headers

def deserialized (state : InterceptorState) (response : Response (List BodyEvent)) :
    Except AttemptError (Response ResponseBody) :=
  match modifyBeforeDeserialization library interceptor.responseCompression.limits
    (state.responseCompressionStore.map ResponseNegotiation.limits) response with
  | (.error e, _) => .error (.response e)
  | (.ok (), response) => .ok response

/-- A signed request is transmitted, and its response is read. -/
def exchange (state : InterceptorState) (env : AttemptEnvironment Url) (uri : Text)
    (headers : Headers) (body : SdkBody) : AttemptRecord :=
  match interceptor.transmitted state headers with
  | (_, .error e) => ⟨none, .error (.transmit e)⟩
  | (headers, .ok ()) =>
      let request : Request := ⟨headers, body⟩
      match env.respond uri request with
      | none => ⟨some (uri, request), .error .noResponse⟩
      | some response => ⟨some (uri, request), interceptor.deserialized library state response⟩

/-- One attempt of a request, and what the configuration holds after it. -/
def attempt (state : InterceptorState) (request : Request) (env : AttemptEnvironment Url) :
    AttemptRecord × InterceptorState :=
  match modifyBeforeSigning urls acceptsUri state env.nextNode env.uri with
  | .error e => (⟨none, .error (.routing e)⟩, state)
  | .ok uri =>
      let headers := env.sign uri request.headers
      let state := readAfterSigning state headers
      (interceptor.exchange library state env uri headers request.body, state)

/-- The attempts of a retry loop, as many as there are. -/
def attempts (state : InterceptorState) (request : Request) :
    List (AttemptEnvironment Url) → List AttemptRecord
  | [] => []
  | env :: envs =>
      let attempted := interceptor.attempt urls acceptsUri library state request env
      attempted.1 :: attempts attempted.2 request envs

end DriverInterceptor

section Operation

variable {Url : Type} (urls : UrlLibrary Url) (acceptsUri : Text → Bool) (flate2 : Flate2)
  (library : AsyncLibrary)

/-- What is stored before the request is serialized. -/
def storedBeforeSerialization (hasQueryPlan : Bool) (overrides : List AlternatorOperationBuilder) :
    InterceptorState :=
  (overrides.foldl alternatorConfigOverride []).foldl OverrideInterceptor.modifyBeforeSerialization
    ⟨none, none, none, hasQueryPlan⟩

/-- The request that every attempt begins with. -/
def preparedRequest (settings : RequestSettings) (hasQueryPlan : Bool)
    (overrides : List AlternatorOperationBuilder) (request : Request) : Request :=
  settings.interceptor.modifyBeforeRetryLoop flate2
    (storedBeforeSerialization hasQueryPlan overrides) request

/-- The records of an operation on a client with these settings. -/
def operation (settings : RequestSettings) (hasQueryPlan : Bool)
    (overrides : List AlternatorOperationBuilder) (request : Request)
    (envs : List (AttemptEnvironment Url)) : List AttemptRecord :=
  settings.interceptor.attempts urls acceptsUri library
    (storedBeforeSerialization hasQueryPlan overrides)
    (preparedRequest flate2 settings hasQueryPlan overrides request) envs

end Operation

end AlternatorDriver
