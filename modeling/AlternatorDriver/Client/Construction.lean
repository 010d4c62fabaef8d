import AlternatorDriver.Client.Configuration
import AlternatorDriver.Routing.Rewrite

/-!
# The construction of a client

`try_from_conf` checks a configuration, builds the live nodes, and selects the transport, the
region and the interceptors of the SDK's client. With affinity it builds a second client of the
SDK, by which partition keys are discovered.

What the host contributes is a parameter: its clock, its certificates, and the checks that the
HTTP and TLS libraries and the SDK make themselves.
-/

namespace AlternatorDriver

open Foundation

variable {Url : Type}

inductive AlternatorClientBuildError where
  | sdkConfiguration (message : Text)
  | tlsConfiguration (message : Text)
  | discoveryConfiguration (message : Text)
  | liveNodes (source : LiveNodesBuildError)

/-- The transport of a client: its user's, or that of the driver with or without TLS. -/
inductive HttpConnector where
  | custom
  | driver (useTls : Bool)
  deriving DecidableEq

/-- The interceptors that a construction adds. -/
inductive ClientInterceptor where
  | alternator (interceptor : DriverInterceptor)
  | roundRobin
  | affinity (config : KeyRouteAffinityConfig)

/-- The configuration that a client of the SDK is built from. The interceptors follow those of
the user. -/
structure SdkClientConfig where
  endpointUrl : Option Text
  httpClient : Option HttpConnector
  region : Option Text
  timeoutConfig : Option TimeoutConfig
  hasCredentialsProvider : Bool
  noAuth : Bool
  interceptors : List ClientInterceptor

def SdkClientConfig.withInterceptors (config : SdkClientConfig)
    (interceptors : List ClientInterceptor) : SdkClientConfig :=
  { config with interceptors := config.interceptors ++ interceptors }

/-- The certificates of a host: what could not be loaded, and whether each of the others is
taken by the root store. -/
structure NativeCerts where
  errors : List Text
  certs : List (Except Text Unit)

/-- What a construction finds on its host. The clock represents this many nanoseconds more. -/
structure Host where
  clockRange : Nat
  nativeCerts : NativeCerts
  protocolVersions : Except Text Unit
  buildReqwest : (timeout connectTimeout : Nat) → Except Text Unit
  validate : SdkClientConfig → Except Text Unit

def discoveryHttpOperationTimeout : Nat := 5 * 1000000000
def maxConnectTimeout : Nat := 2 * 1000000000

/-- The number of roots, and the errors. -/
def loadNativeRootStore (nativeCerts : NativeCerts) : Nat × List Text :=
  nativeCerts.certs.foldl (fun store added =>
    match added with
    | .ok () => (store.1 + 1, store.2)
    | .error e => (store.1, store.2 ++ [e])) (0, nativeCerts.errors)

def unusableNativeRootsMessage (errors : List Text) : Text :=
  if errors.isEmpty then "no usable native CA certificates were found".toList
  else List.intercalate "; ".toList errors

/-- How long a request of discovery may take. -/
def ClientConfig.requestTimeout (config : ClientConfig) : Nat :=
  config.alternatorExt.discoveryTimeout.getD discoveryHttpOperationTimeout

namespace Host

variable (host : Host)

def nativeRootsAreUsable : Bool := (loadNativeRootStore host.nativeCerts).1 != 0

def ensureNativeRootsAreUsable : Except Text Unit :=
  if host.nativeRootsAreUsable then .ok ()
  else .error (unusableNativeRootsMessage (loadNativeRootStore host.nativeCerts).2)

def buildDefaultDiscoveryHttpClient (scheme : Text) (requestTimeout : Nat) :
    Except LiveNodesBuildError Bool := do
  if eqIgnoreAsciiCase scheme httpsScheme && !host.nativeRootsAreUsable then
    .error (.tlsConfiguration (unusableNativeRootsMessage (loadNativeRootStore host.nativeCerts).2))
  else do
    host.protocolVersions.mapError .tlsConfiguration
    (host.buildReqwest requestTimeout (min maxConnectTimeout requestTimeout)).mapError .httpClient
    .ok host.nativeRootsAreUsable

/-- A client of the user's own is taken as it is. -/
def buildDiscoveryHttpClient (config : ClientConfig) (scheme : Text) :
    Except LiveNodesBuildError Bool :=
  if config.dynamodbConfig.hasHttpClient then .ok false
  else host.buildDefaultDiscoveryHttpClient scheme config.requestTimeout

/-- The clock of the host must be able to tell when the timeout is over. -/
def acceptsTimeout (timeout : Nat) : Bool := timeout != 0 && decide (timeout ≤ host.clockRange)

/-- The constructor of the SDK, with its panics as errors. -/
def tryDynamodbClientFromConf (config : SdkClientConfig) :
    Except AlternatorClientBuildError SdkClientConfig :=
  match config.httpClient with
  | none => .error (.sdkConfiguration "no HTTP client was selected".toList)
  | some _ => (host.validate config).mapError .sdkConfiguration |>.map fun _ => config

end Host

namespace LiveNodes

variable (live : LiveNodes Url)

def usesHttp : Bool :=
  live.inputs.seedUrls.head?.any fun url => live.inputs.library.scheme url == httpScheme

end LiveNodes

/-- The resolver of a client, before it has discovered anything. -/
structure PartitionKeyDiscovery where
  client : SdkClientConfig
  pkInfo : String → Option String
  discoveryTimeout : Option Nat

structure AlternatorClient (Url : Type) where
  dynamodbClient : SdkClientConfig
  config : ClientConfig
  topology : Option (LiveNodes Url)
  partitionKeys : Option PartitionKeyDiscovery

def defaultRegion : Text := "us-east-1".toList

namespace ClientConfig

variable (config : ClientConfig)

/-- With discovery off, requests use the scheme that is configured. -/
def directScheme (topology : Option (LiveNodes Url)) : Option Text :=
  if topology.isNone then some (config.alternatorExt.scheme.getD httpScheme) else none

def usesPlaintextTransport (topology : Option (LiveNodes Url)) : Bool :=
  topology.any LiveNodes.usesHttp ||
    (config.directScheme topology).any fun scheme => eqIgnoreAsciiCase scheme httpScheme

def usesDirectHttpsTransport (topology : Option (LiveNodes Url)) : Bool :=
  (config.directScheme topology).any fun scheme => eqIgnoreAsciiCase scheme httpsScheme

/-- Live nodes have checked their certificates themselves. -/
def ensureDirectRoots (host : Host) (topology : Option (LiveNodes Url)) :
    Except AlternatorClientBuildError Unit :=
  if config.usesDirectHttpsTransport topology && !config.dynamodbConfig.hasHttpClient then
    host.ensureNativeRootsAreUsable.mapError .tlsConfiguration
  else .ok ()

/-- Certificates are loaded at most once: live nodes know what they have found. -/
def httpConnector (host : Host) (topology : Option (LiveNodes Url)) : HttpConnector :=
  if config.dynamodbConfig.hasHttpClient then .custom
  else
    let needsRootlessPlaintextTransport := config.usesPlaintextTransport topology &&
      !(topology.map LiveNodes.nativeRootsUsable).getD host.nativeRootsAreUsable
    .driver (!needsRootlessPlaintextTransport)

/-- The configuration of either client of the SDK before its routing is added. -/
def sdkClientConfig (connector : HttpConnector) : SdkClientConfig where
  endpointUrl := config.dynamodbConfig.endpointUrl
  httpClient := some connector
  region := some (config.dynamodbConfig.region.getD defaultRegion)
  timeoutConfig := config.dynamodbConfig.timeoutConfig
  hasCredentialsProvider := config.alternatorExt.hasCredentialsProvider
  noAuth := config.dynamodbConfig.noAuth ||
    !config.alternatorExt.hasCredentialsProvider && !config.alternatorExt.requireAuth &&
      !config.alternatorExt.allowNoAuth
  interceptors := [.alternator config.requestSettings.interceptor]

def affinity : Option KeyRouteAffinityConfig :=
  config.alternatorExt.keyRouteAffinity.filter fun affinity => affinity.isEnabled

/-- The client that partition keys are discovered by. It has the round-robin interceptor, so
that its own requests never need a partition key. -/
def discoveryClientConfig (base : SdkClientConfig) : SdkClientConfig :=
  { base.withInterceptors [.roundRobin] with
    timeoutConfig := match config.alternatorExt.discoveryTimeout with
      | some timeout => some
          { base.timeoutConfig.getD .empty with
            operationTimeout := .set timeout
            operationAttemptTimeout := .set timeout }
      | none => base.timeoutConfig }

def validateSdkDefaultConfig : Except AlternatorClientBuildError Unit :=
  if config.alternatorExt.stalledStreamProtectionExplicitlyUnset then
    .error (.sdkConfiguration ("The default stalled stream protection config was removed, and " ++
      "no other config was put in its place.").toList)
  else .ok ()

/-- The resolver and the routing interceptor. -/
def buildRouting (host : Host) (base : SdkClientConfig) (topology : Option (LiveNodes Url)) :
    Except AlternatorClientBuildError
      (Option PartitionKeyDiscovery × Option ClientInterceptor) :=
  match topology, config.affinity with
  | none, _ => .ok (none, none)
  | some _, none => .ok (none, some .roundRobin)
  | some _, some affinity => do
      let client ← host.tryDynamodbClientFromConf (config.discoveryClientConfig base)
      .ok (some ⟨client, affinity.pkInfoPerTable, config.alternatorExt.discoveryTimeout⟩,
        some (.affinity affinity))

end ClientConfig

namespace AlternatorClient

variable [LinearOrder Url]

/-- `try_from_conf`, up to the first call of `ensure_discovery_started`, which cannot fail. -/
def tryFromConf (library : UrlLibrary Url) (host : Host) (config : ClientConfig) :
    Except AlternatorClientBuildError (AlternatorClient Url) := do
  if config.alternatorExt.discoveryTimeout.any fun timeout => !host.acceptsTimeout timeout then
    .error (.discoveryConfiguration
      "discovery_timeout must be positive and fit the runtime clock".toList)
  else do
    let topology ←
      (LiveNodes.tryNew library (host.buildDiscoveryHttpClient config) config.routing).mapError
        .liveNodes
    config.ensureDirectRoots host topology
    config.validateSdkDefaultConfig
    let base := config.sdkClientConfig (config.httpConnector host topology)
    let (partitionKeys, routingInterceptor) ← config.buildRouting host base topology
    let dynamodbClient ← host.tryDynamodbClientFromConf
      (base.withInterceptors routingInterceptor.toList)
    .ok ⟨dynamodbClient, config, topology, partitionKeys⟩

end AlternatorClient

/-! ## What a construction ensures -/

theorem Host.tryDynamodbClientFromConf_eq_ok {host : Host} {config client : SdkClientConfig} :
    host.tryDynamodbClientFromConf config = .ok client ↔
      config.httpClient.isSome = true ∧ host.validate config = .ok () ∧ client = config := by
  rw [tryDynamodbClientFromConf]
  cases config.httpClient with
  | none => simp
  | some connector =>
      cases host.validate config with
      | error e => simp [Except.mapError, Except.map]
      | ok valid => simp [Except.mapError, Except.map, eq_comm]

theorem mapError_eq_ok {ε δ α : Type} {x : Except ε α} {f : ε → δ} {a : α} :
    x.mapError f = .ok a ↔ x = .ok a := by
  cases x <;> simp [Except.mapError]

theorem Host.ensureNativeRootsAreUsable_eq_ok {host : Host} :
    host.ensureNativeRootsAreUsable = .ok () ↔ host.nativeRootsAreUsable = true := by
  rw [ensureNativeRootsAreUsable]
  split <;> simp_all

namespace ClientConfig

/-- The routing that is added to the clients of the SDK. -/
inductive Routes (config : ClientConfig) (host : Host) (base : SdkClientConfig) :
    Option (LiveNodes Url) → Option PartitionKeyDiscovery → List ClientInterceptor → Prop where
  | direct : Routes config host base none none []
  | roundRobin (live : LiveNodes Url) (disabled : config.affinity = none) :
      Routes config host base (some live) none [.roundRobin]
  | affinity (live : LiveNodes Url) {affinity : KeyRouteAffinityConfig}
      (enabled : config.affinity = some affinity)
      (valid : host.validate (config.discoveryClientConfig base) = .ok ()) :
      Routes config host base (some live)
        (some ⟨config.discoveryClientConfig base, affinity.pkInfoPerTable,
          config.alternatorExt.discoveryTimeout⟩) [.affinity affinity]

variable {config : ClientConfig} {host : Host} {base : SdkClientConfig}
  {topology : Option (LiveNodes Url)}

theorem routes_of_buildRouting {partitionKeys : Option PartitionKeyDiscovery}
    {interceptor : Option ClientInterceptor}
    (built : config.buildRouting host base topology = .ok (partitionKeys, interceptor)) :
    config.Routes host base topology partitionKeys interceptor.toList := by
  cases topology with
  | none =>
      cases built
      exact .direct
  | some live =>
      cases found : config.affinity with
      | none =>
          simp only [buildRouting, found] at built
          cases built
          exact .roundRobin live found
      | some affinity =>
          simp only [buildRouting, found] at built
          obtain ⟨client, accepted, built⟩ := LiveNodes.bind_eq_ok built
          obtain ⟨-, valid, rfl⟩ := Host.tryDynamodbClientFromConf_eq_ok.mp accepted
          cases built
          exact .affinity live found valid

end ClientConfig

namespace AlternatorClient

variable [LinearOrder Url]

/-- A client as it comes out of a construction. -/
structure BuiltFrom (library : UrlLibrary Url) (host : Host) (config : ClientConfig)
    (client : AlternatorClient Url) : Prop where
  same : client.config = config
  timeout : ∀ timeout, config.alternatorExt.discoveryTimeout = some timeout →
    host.acceptsTimeout timeout = true
  topology : LiveNodes.tryNew library (host.buildDiscoveryHttpClient config) config.routing =
    .ok client.topology
  roots : config.usesDirectHttpsTransport client.topology = true →
    config.dynamodbConfig.hasHttpClient = false → host.nativeRootsAreUsable = true
  guarded : config.alternatorExt.stalledStreamProtectionExplicitlyUnset = false
  routed : ∃ interceptors,
    config.Routes host (config.sdkClientConfig (config.httpConnector host client.topology))
      client.topology client.partitionKeys interceptors ∧
    client.dynamodbClient =
      (config.sdkClientConfig (config.httpConnector host client.topology)).withInterceptors
        interceptors ∧
    host.validate client.dynamodbClient = .ok ()

theorem builtFrom_of_tryFromConf {library : UrlLibrary Url} {host : Host} {config : ClientConfig}
    {client : AlternatorClient Url} (built : tryFromConf library host config = .ok client) :
    client.BuiltFrom library host config := by
  rw [tryFromConf] at built
  split at built
  · cases built
  · next timely =>
    obtain ⟨topology, accepted, built⟩ := LiveNodes.bind_eq_ok built
    obtain ⟨_, rooted, built⟩ := LiveNodes.bind_eq_ok built
    obtain ⟨_, guarded, built⟩ := LiveNodes.bind_eq_ok built
    obtain ⟨⟨partitionKeys, interceptor⟩, routing, built⟩ := LiveNodes.bind_eq_ok built
    obtain ⟨dynamodbClient, constructed, built⟩ := LiveNodes.bind_eq_ok built
    obtain ⟨-, valid, rfl⟩ := Host.tryDynamodbClientFromConf_eq_ok.mp constructed
    cases built
    refine ⟨rfl, ?_, mapError_eq_ok.mp accepted, ?_, ?_, ⟨_, ?_, rfl, valid⟩⟩
    · intro timeout configured
      simpa [configured] using timely
    · intro direct none
      rw [ClientConfig.ensureDirectRoots, direct, none, Bool.not_false, Bool.and_self,
        if_pos rfl] at rooted
      exact Host.ensureNativeRootsAreUsable_eq_ok.mp (mapError_eq_ok.mp rooted)
    · rw [ClientConfig.validateSdkDefaultConfig] at guarded
      split at guarded
      · cases guarded
      · next unset => exact eq_false_of_ne_true unset
    · exact ClientConfig.routes_of_buildRouting routing

/-- A client of the SDK that the client has: its own, or that of its resolver. -/
def Uses (client : AlternatorClient Url) (sdk : SdkClientConfig) : Prop :=
  sdk = client.dynamodbClient ∨ ∃ keys, client.partitionKeys = some keys ∧ sdk = keys.client

omit [LinearOrder Url] in
/-- The resolver has the client that keys are discovered by. -/
theorem client_of_routes {config : ClientConfig} {host : Host} {base : SdkClientConfig}
    {topology : Option (LiveNodes Url)} {keys : PartitionKeyDiscovery}
    {interceptors : List ClientInterceptor}
    (routes : config.Routes host base topology (some keys) interceptors) :
    keys.client = config.discoveryClientConfig base := by
  cases routes with
  | affinity live enabled valid => rfl

/-- All clients of the SDK have the same options. -/
theorem BuiltFrom.auth {library : UrlLibrary Url} {host : Host} {config : ClientConfig}
    {client : AlternatorClient Url} (built : client.BuiltFrom library host config)
    {sdk : SdkClientConfig} (uses : client.Uses sdk) :
    sdk.noAuth = (config.sdkClientConfig (config.httpConnector host client.topology)).noAuth ∧
      sdk.hasCredentialsProvider = config.alternatorExt.hasCredentialsProvider := by
  obtain ⟨interceptors, routes, main, -⟩ := built.routed
  obtain rfl | ⟨keys, known, rfl⟩ := uses
  · rw [main]
    exact ⟨rfl, rfl⟩
  · rw [known] at routes
    rw [client_of_routes routes]
    exact ⟨rfl, rfl⟩

section Authentication

open ClientBuilder ClientBuilder.Call

/-- Whatever the calls on a builder, it panics exactly when one of them would both require and
waive signatures. A client that is built permits unsigned requests, of its own and of its
discovery of partition keys, exactly if a call has waived signatures, or if they are not required
and there are no credentials. -/
theorem unsigned_requests_are_deliberate (library : UrlLibrary Url) (host : Host)
    (calls : List ClientBuilder.Call) :
    (afterCalls library calls = none ↔
      ∃ before call after, calls = before ++ call :: after ∧ Clashes before call) ∧
    ∀ builder client, afterCalls library calls = some builder →
      tryFromConf library host (ClientBuilder.build builder library) = .ok client →
      ∀ sdk, client.Uses sdk → sdk.hasCredentialsProvider = lastSet credentials? calls ∧
        (sdk.noAuth = true ↔ calls.any waivesAuth = true ∨
          lastSet requireAuth? calls = false ∧ lastSet credentials? calls = false) ∧
        (lastSet requireAuth? calls = true → sdk.noAuth = false) := by
  refine ⟨afterCalls_eq_none library calls, ?_⟩
  intro builder client applied built sdk uses
  have follows := follows_of_afterCalls applied
  obtain ⟨noAuth, credentials⟩ := (builtFrom_of_tryFromConf built).auth uses
  have waived : sdk.noAuth = (calls.any waivesAuth || !lastSet credentials? calls &&
      !lastSet requireAuth? calls && !calls.any waivesAuth) := by
    rw [noAuth]
    simp only [ClientConfig.sdkClientConfig, ClientBuilder.build, follows.noAuth,
      follows.credentials, follows.requireAuth, follows.allowNoAuth]
  refine ⟨credentials.trans follows.credentials, ?_, ?_⟩
  · rw [waived]
    cases calls.any waivesAuth <;> simp [and_comm]
  · intro required
    have kept : calls.any waivesAuth = false := by
      have exclusive := follows.exclusive (follows.requireAuth.trans required)
      rw [follows.allowNoAuth] at exclusive
      exact eq_false_of_ne_true exclusive
    simp [waived, kept, required]

/-- A host with one certificate, whose libraries refuse nothing. -/
def plainHost : Host where
  clockRange := 2 ^ 64
  nativeCerts := ⟨[], [.ok ()]⟩
  protocolVersions := .ok ()
  buildReqwest _ _ := .ok ()
  validate _ := .ok ()

theorem unsigned_requests_are_deliberate_required :
    ∃ builder client, afterCalls PlainUrl.library
        [.routing (.setSeedHosts [['a']]), .setRequireAuth true] = some builder ∧
      tryFromConf PlainUrl.library plainHost (ClientBuilder.build builder PlainUrl.library) =
        .ok client ∧ client.dynamodbClient.noAuth = false := by
  refine ⟨_, _, rfl, rfl, ?_⟩
  exact ((unsigned_requests_are_deliberate PlainUrl.library plainHost
    [.routing (.setSeedHosts [['a']]), .setRequireAuth true]).2 _ _ rfl rfl _ (.inl rfl)).2.2 rfl

end Authentication

end AlternatorClient

end AlternatorDriver
