import AlternatorDriver.KeyRouting.Classifier
import AlternatorDriver.LiveNodes.Endpoint
import AlternatorDriver.Operation.Lifecycle

/-!
# The configuration of a client

A builder collects the settings of the SDK and those of the driver. Routing, which live nodes
are built from, is a part of both; the rest is added here.

Whether requests have to be signed is up to two options that exclude each other. The call that
would combine them panics, so no builder ever has both.
-/

namespace AlternatorDriver

open Foundation

variable {Url : Type}

/-- A timeout of the SDK, in nanoseconds. -/
inductive Timeout where
  | unset
  | disabled
  | set (nanos : Nat)
  deriving DecidableEq

structure TimeoutConfig where
  connectTimeout : Timeout
  readTimeout : Timeout
  operationTimeout : Timeout
  operationAttemptTimeout : Timeout
  deriving DecidableEq

def TimeoutConfig.empty : TimeoutConfig := ⟨.unset, .unset, .unset, .unset⟩

structure KeyRouteAffinityConfig where
  affinityType : KeyRouteAffinityType
  pkInfoPerTable : String → Option String

def KeyRouteAffinityConfig.isEnabled (config : KeyRouteAffinityConfig) : Bool :=
  decide (config.affinityType ≠ .none)

/-- The settings of the SDK that a construction reads. `noAuth` tells that the SDK has been
allowed to send unsigned requests. -/
structure SdkSettings extends DynamodbConfig where
  region : Option Text
  timeoutConfig : Option TimeoutConfig
  noAuth : Bool

/-- All settings of the driver. Of the credentials provider only its presence is recorded. -/
structure ClientExtensions extends AlternatorExtensions where
  requestCompression : Option RequestCompression
  responseCompression : Option ResponseNegotiation
  optimizeHeaders : Option Bool
  userAgent : Option UserAgent
  hasCredentialsProvider : Bool
  requireAuth : Bool
  allowNoAuth : Bool
  discoveryTimeout : Option Nat
  keyRouteAffinity : Option KeyRouteAffinityConfig
  stalledStreamProtectionExplicitlyUnset : Bool

/-- The whole configuration. -/
structure ClientConfig where
  dynamodbConfig : SdkSettings
  alternatorExt : ClientExtensions

structure ClientBuilder where
  dynamodbBuilder : SdkSettings
  alternatorExt : ClientExtensions

/-- What `LiveNodes::try_new` reads. -/
def ClientConfig.routing (config : ClientConfig) : AlternatorConfig :=
  BuiltConfig.config ⟨config.dynamodbConfig.toDynamodbConfig,
    config.alternatorExt.toAlternatorExtensions⟩

/-- What the main interceptor is built from. -/
def ClientConfig.requestSettings (config : ClientConfig) : RequestSettings where
  requestCompression := config.alternatorExt.requestCompression
  responseCompression := config.alternatorExt.responseCompression
  optimizeHeaders := config.alternatorExt.optimizeHeaders
  userAgent := config.alternatorExt.userAgent
  hasCredentialsProvider := config.alternatorExt.hasCredentialsProvider

def ClientConfig.toBuilder (config : ClientConfig) : ClientBuilder :=
  ⟨config.dynamodbConfig, config.alternatorExt⟩

namespace ClientBuilder

def new : ClientBuilder where
  dynamodbBuilder := ⟨AlternatorBuilder.new.dynamodbBuilder, none, none, false⟩
  alternatorExt :=
    ⟨AlternatorBuilder.new.alternatorExt, none, none, none, none, false, false, false, none, none,
      false⟩

variable (builder : ClientBuilder)

/-- The part of the builder that routing is configured in. -/
def routing : AlternatorBuilder :=
  ⟨builder.dynamodbBuilder.toDynamodbConfig, builder.alternatorExt.toAlternatorExtensions⟩

def withRouting (routing : AlternatorBuilder) : ClientBuilder where
  dynamodbBuilder := { builder.dynamodbBuilder with toDynamodbConfig := routing.dynamodbBuilder }
  alternatorExt := { builder.alternatorExt with toAlternatorExtensions := routing.alternatorExt }

/-- The configuration. Everything but the endpoint is passed on. -/
def build (library : UrlLibrary Url) : ClientConfig where
  dynamodbConfig :=
    { builder.dynamodbBuilder with
      toDynamodbConfig := (builder.routing.build library).dynamodbConfig }
  alternatorExt := builder.alternatorExt

def setRequestCompression (compression : RequestCompression) : ClientBuilder :=
  { builder with alternatorExt.requestCompression := some compression }

def setResponseCompression (compression : ResponseNegotiation) : ClientBuilder :=
  { builder with alternatorExt.responseCompression := some compression }

def setOptimizeHeaders (optimize : Bool) : ClientBuilder :=
  { builder with alternatorExt.optimizeHeaders := some optimize }

def setUserAgent (userAgent : Option UserAgent) : ClientBuilder :=
  { builder with alternatorExt.userAgent := userAgent }

def setDiscoveryTimeout (timeout : Option Nat) : ClientBuilder :=
  { builder with alternatorExt.discoveryTimeout := timeout }

def setKeyRouteAffinity (affinity : KeyRouteAffinityConfig) : ClientBuilder :=
  { builder with alternatorExt.keyRouteAffinity := some affinity }

/-- Removing the protection of the SDK is recorded, giving another one is not. -/
def setStalledStreamProtection (given : Bool) : ClientBuilder :=
  { builder with alternatorExt.stalledStreamProtectionExplicitlyUnset := !given }

/-- Without a configuration nothing changes. -/
def setTimeoutConfig (timeoutConfig : Option TimeoutConfig) : ClientBuilder :=
  match timeoutConfig with
  | some timeoutConfig => { builder with dynamodbBuilder.timeoutConfig := some timeoutConfig }
  | none => builder

def setRegion (region : Option Text) : ClientBuilder :=
  { builder with dynamodbBuilder.region := region }

def setCredentialsProvider (given : Bool) : ClientBuilder :=
  { builder with alternatorExt.hasCredentialsProvider := given }

/-- `set_require_auth`. There is no builder after a panic. -/
def setRequireAuth (requireAuth : Bool) : Option ClientBuilder :=
  if requireAuth && builder.alternatorExt.allowNoAuth then none
  else some { builder with alternatorExt.requireAuth := requireAuth }

/-- Both forms of `allow_no_auth`. -/
def allowNoAuth : Option ClientBuilder :=
  if builder.alternatorExt.requireAuth then none
  else some { builder with
    dynamodbBuilder.noAuth := true
    alternatorExt.allowNoAuth := true }

/-- The calls on a builder. Those that rebuild a configuration are among the routing calls. -/
inductive Call where
  | routing (call : AlternatorBuilder.Call)
  | setRequestCompression (compression : RequestCompression)
  | setResponseCompression (compression : ResponseNegotiation)
  | setOptimizeHeaders (optimize : Bool)
  | setUserAgent (userAgent : Option UserAgent)
  | setDiscoveryTimeout (timeout : Option Nat)
  | setKeyRouteAffinity (affinity : KeyRouteAffinityConfig)
  | setStalledStreamProtection (given : Bool)
  | setTimeoutConfig (timeoutConfig : Option TimeoutConfig)
  | setRegion (region : Option Text)
  | setCredentialsProvider (given : Bool)
  | setRequireAuth (requireAuth : Bool)
  | allowNoAuth

def apply (library : UrlLibrary Url) : Call → Option ClientBuilder
  | .routing call => some (withRouting builder (AlternatorBuilder.apply builder.routing library call))
  | .setRequestCompression compression => some (setRequestCompression builder compression)
  | .setResponseCompression compression => some (setResponseCompression builder compression)
  | .setOptimizeHeaders optimize => some (setOptimizeHeaders builder optimize)
  | .setUserAgent userAgent => some (setUserAgent builder userAgent)
  | .setDiscoveryTimeout timeout => some (setDiscoveryTimeout builder timeout)
  | .setKeyRouteAffinity affinity => some (setKeyRouteAffinity builder affinity)
  | .setStalledStreamProtection given => some (setStalledStreamProtection builder given)
  | .setTimeoutConfig timeoutConfig => some (setTimeoutConfig builder timeoutConfig)
  | .setRegion region => some (setRegion builder region)
  | .setCredentialsProvider given => some (setCredentialsProvider builder given)
  | .setRequireAuth requireAuth => setRequireAuth builder requireAuth
  | .allowNoAuth => allowNoAuth builder

/-- The builder after some calls, unless one of them panics. -/
def afterCalls (library : UrlLibrary Url) (calls : List Call) : Option ClientBuilder :=
  calls.foldlM (fun builder call => builder.apply library call) new

end ClientBuilder

/-! ## What calls ask for -/

namespace ClientBuilder.Call

/-- The last `require_auth` that was set. -/
def requireAuth? : Call → Option Bool
  | .setRequireAuth requireAuth => some requireAuth
  | _ => none

def credentials? : Call → Option Bool
  | .setCredentialsProvider given => some given
  | _ => none

def waivesAuth : Call → Bool
  | .allowNoAuth => true
  | _ => false

/-- The value that an option has after the calls that set it. -/
def lastSet (option : Call → Option Bool) (calls : List Call) : Bool :=
  (calls.filterMap option).getLastD false

theorem lastSet_concat (option : Call → Option Bool) (calls : List Call) (call : Call) :
    lastSet option (calls ++ [call]) = (option call).getD (lastSet option calls) := by
  rw [lastSet, List.filterMap_append]
  cases sets : option call with
  | none => simp [lastSet, sets]
  | some value => simp [sets, List.getLastD_eq_getLast?]

/-- The call would combine the two options. -/
def Clashes (before : List Call) : Call → Prop
  | .setRequireAuth requireAuth => requireAuth = true ∧ before.any waivesAuth = true
  | .allowNoAuth => lastSet requireAuth? before = true
  | _ => False

end ClientBuilder.Call

namespace ClientBuilder

open ClientBuilder.Call

/-- The builder has the options that the calls have asked for, and not both of those that
exclude each other. -/
structure Follows (builder : ClientBuilder) (calls : List Call) : Prop where
  requireAuth : builder.alternatorExt.requireAuth = lastSet requireAuth? calls
  credentials : builder.alternatorExt.hasCredentialsProvider = lastSet credentials? calls
  allowNoAuth : builder.alternatorExt.allowNoAuth = calls.any waivesAuth
  noAuth : builder.dynamodbBuilder.noAuth = calls.any waivesAuth
  exclusive : builder.alternatorExt.requireAuth = true →
    builder.alternatorExt.allowNoAuth = true → False

variable {library : UrlLibrary Url} {builder : ClientBuilder} {calls : List Call}

/-- A call that leaves the options alone. -/
theorem Follows.other (follows : builder.Follows calls) {after : ClientBuilder} {call : Call}
    (requireAuth : after.alternatorExt.requireAuth = builder.alternatorExt.requireAuth)
    (credentials : after.alternatorExt.hasCredentialsProvider =
      (credentials? call).getD builder.alternatorExt.hasCredentialsProvider)
    (allowNoAuth : after.alternatorExt.allowNoAuth = builder.alternatorExt.allowNoAuth)
    (noAuth : after.dynamodbBuilder.noAuth = builder.dynamodbBuilder.noAuth)
    (setsNone : requireAuth? call = none) (waivesNone : waivesAuth call = false) :
    after.Follows (calls ++ [call]) where
  requireAuth := by rw [requireAuth, lastSet_concat, setsNone, follows.requireAuth, Option.getD_none]
  credentials := by rw [credentials, lastSet_concat, follows.credentials]
  allowNoAuth := by
    simpa [waivesNone] using allowNoAuth.trans follows.allowNoAuth
  noAuth := by
    simpa [waivesNone] using noAuth.trans follows.noAuth
  exclusive := by
    rw [requireAuth, allowNoAuth]
    exact follows.exclusive

/-- A call panics exactly if it clashes with the calls before it. -/
theorem apply_eq_none (follows : builder.Follows calls) (call : Call) :
    builder.apply library call = none ↔ call.Clashes calls := by
  cases call with
  | setRequireAuth requireAuth => simp [apply, setRequireAuth, Clashes, follows.allowNoAuth]
  | allowNoAuth => simp [apply, ClientBuilder.allowNoAuth, Clashes, follows.requireAuth]
  | _ => simp [apply, Clashes]

theorem Follows.step (follows : builder.Follows calls) {after : ClientBuilder} {call : Call}
    (applied : builder.apply library call = some after) : after.Follows (calls ++ [call]) := by
  cases call with
  | setRequireAuth requireAuth =>
      simp only [apply, setRequireAuth] at applied
      split at applied
      · cases applied
      · next allowed =>
        cases applied
        constructor
        · simp [lastSet_concat, requireAuth?]
        · simp [lastSet_concat, credentials?, follows.credentials]
        · simpa [waivesAuth] using follows.allowNoAuth
        · simpa [waivesAuth] using follows.noAuth
        · intro required waived
          exact allowed (by simpa using ⟨required, waived⟩)
  | allowNoAuth =>
      simp only [apply, ClientBuilder.allowNoAuth] at applied
      split at applied
      · cases applied
      · next allowed =>
        cases applied
        constructor
        · simp [lastSet_concat, requireAuth?, follows.requireAuth]
        · simp [lastSet_concat, credentials?, follows.credentials]
        · simp [waivesAuth]
        · simp [waivesAuth]
        · intro required _
          exact allowed required
  | setTimeoutConfig timeoutConfig =>
      cases timeoutConfig <;> cases applied <;> exact follows.other rfl rfl rfl rfl rfl rfl
  | _ =>
      cases applied
      exact follows.other rfl rfl rfl rfl rfl rfl

theorem follows_of_afterCalls (built : afterCalls library calls = some builder) :
    builder.Follows calls := by
  induction calls using List.reverseRecOn generalizing builder with
  | nil =>
      cases built
      exact ⟨rfl, rfl, rfl, rfl, fun required _ => by cases required⟩
  | append_singleton calls call ih =>
      rw [afterCalls, List.foldlM_append] at built
      obtain ⟨before, earlier, applied⟩ := Option.bind_eq_some_iff.mp built
      exact (ih earlier).step (by simpa using applied)

/-- A builder panics exactly when a call clashes with those before it. -/
theorem afterCalls_eq_none (library : UrlLibrary Url) (calls : List Call) :
    afterCalls library calls = none ↔
      ∃ before call after, calls = before ++ call :: after ∧ call.Clashes before := by
  induction calls using List.reverseRecOn with
  | nil => simp [afterCalls]
  | append_singleton calls call ih =>
      have last : afterCalls library (calls ++ [call]) =
          (afterCalls library calls).bind fun builder => builder.apply library call := by
        rw [afterCalls, List.foldlM_append]
        simp [afterCalls]
      rw [last]
      cases earlier : afterCalls library calls with
      | none =>
          obtain ⟨before, clashing, after, rfl, clashes⟩ := ih.mp earlier
          refine iff_of_true rfl ⟨before, clashing, after ++ [call], ?_, clashes⟩
          rw [List.append_assoc, List.cons_append]
      | some builder =>
          have quiet : ¬ ∃ before call after, calls = before ++ call :: after ∧
              call.Clashes before := by
            rw [← ih, earlier]
            exact Option.some_ne_none builder
          rw [Option.bind_some, apply_eq_none (follows_of_afterCalls earlier)]
          constructor
          · exact fun clashes => ⟨calls, call, [], rfl, clashes⟩
          · rintro ⟨before, clashing, after, split, clashes⟩
            obtain rfl | ⟨after, final, rfl⟩ := after.eq_nil_or_concat
            · obtain ⟨rfl, same⟩ := List.append_inj' split rfl
              cases same
              exact clashes
            · refine absurd ⟨before, clashing, after, ?_, clashes⟩ quiet
              rw [List.concat_eq_append, ← List.cons_append, ← List.append_assoc] at split
              exact (List.append_inj' split rfl).1

end ClientBuilder

end AlternatorDriver
