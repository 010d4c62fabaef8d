import AlternatorDriver.Client.Construction

/-!
# The transport of a client

A TLS transport loads the certificates of its host and is useless without them, so a client that
speaks plain HTTP only gets a transport without TLS where there are none. The choice is made in
several places: by the discovery client, from the scheme of a seed URL, and from the scheme that
is configured. They agree, and the transport fits every node that the client can learn of.
-/

namespace AlternatorDriver

open Foundation

variable {Url : Type}

/-- The scheme of an HTTP URL is written in lower case. -/
def UrlLibrary.LowersHttpSchemes (library : UrlLibrary Url) : Prop :=
  ∀ scheme authority url, isHttpScheme scheme = true →
    library.parse (scheme ++ "://".toList ++ authority) = .ok url →
    library.scheme url = scheme.map Char.toLower

namespace ClientConfig

variable (config : ClientConfig)

/-- The scheme that live nodes are built with. -/
def scheme : Text := config.alternatorExt.scheme.getD httpScheme

/-- The client has to speak TLS. -/
def speaksTls : Bool := eqIgnoreAsciiCase config.scheme httpsScheme

end ClientConfig

/-! ## Schemes -/

theorem eqIgnoreAsciiCase_http_iff (scheme : Text) :
    eqIgnoreAsciiCase scheme httpScheme = true ↔ scheme.map Char.toLower = httpScheme := by
  rw [eqIgnoreAsciiCase, beq_iff_eq, show httpScheme.map Char.toLower = httpScheme by decide]

theorem eqIgnoreAsciiCase_https_iff (scheme : Text) :
    eqIgnoreAsciiCase scheme httpsScheme = true ↔ scheme.map Char.toLower = httpsScheme := by
  rw [eqIgnoreAsciiCase, beq_iff_eq, show httpsScheme.map Char.toLower = httpsScheme by decide]

section Library

variable {library : UrlLibrary Url} {acceptsUri : Text → Bool} {pathAndQuery : Url → Text}

/-- A node has the scheme that is configured, in lower case. -/
theorem UrlLibrary.scheme_buildNodeUrl (laws : library.HttpLaws acceptsUri pathAndQuery)
    (lowers : library.LowersHttpSchemes) {scheme addr : Text} {port : Option Nat} {node : Url}
    (http : isHttpScheme scheme = true) (built : library.buildNodeUrl scheme addr port = .ok node) :
    library.scheme node = scheme.map Char.toLower := by
  rw [buildNodeUrl] at built
  split at built
  · cases built
  · obtain ⟨url, parsed, ported⟩ := LiveNodes.bind_eq_ok built
    obtain ⟨url', portSet, sameScheme, -, -⟩ :=
      laws.setPort_http url port (laws.parse_http _ _ _ http parsed)
    simp only [portSet] at ported
    cases ported
    rw [sameScheme]
    exact lowers _ _ _ http parsed

end Library

theorem PlainUrl.lowersHttpSchemes : PlainUrl.library.LowersHttpSchemes := by
  intro scheme authority url http parsed
  have found : Text.splitOnce ':' (scheme ++ "://".toList ++ authority) =
      some (scheme, '/' :: '/' :: authority) := by
    rw [List.append_assoc]
    exact Text.splitOnce_append _ (colon_not_mem_of_isHttpScheme http)
  simp only [library, parse, found] at parsed
  split at parsed
  · cases parsed
  · cases parsed
    rfl

/-! ## The choice of a transport -/

namespace LiveNodes

variable [LinearOrder Url] {library : UrlLibrary Url} {config : AlternatorConfig}
  {buildDiscoveryHttpClient : Text → Except LiveNodesBuildError Bool} {live : LiveNodes Url}

/-- The discovery client is built for the scheme of the first seed URL, and knows whether there
are certificates. -/
theorem discovery_of_tryNew
    (accepted : tryNew library buildDiscoveryHttpClient config = .ok (some live)) :
    config.withoutDiscovery = false ∧ live.inputs.alternatorScheme = config.scheme.getD httpScheme ∧
      ∃ seed ∈ live.inputs.seedUrls.head?,
        buildDiscoveryHttpClient (library.scheme seed) = .ok live.nativeRootsUsable := by
  rw [tryNew] at accepted
  split at accepted
  · cases accepted
  · cases accepted
  · next firstSeed moreSeeds seeds =>
    by_cases direct : config.withoutDiscovery = true
    · rw [if_pos direct] at accepted
      split at accepted
      · cases accepted
      · obtain ⟨_, _, none⟩ := bind_eq_ok accepted
        cases none
    · rw [if_neg direct] at accepted
      split at accepted
      · cases accepted
      · obtain ⟨first, builtFirst, accepted⟩ := bind_eq_ok accepted
        obtain ⟨more, builtMore, accepted⟩ := bind_eq_ok accepted
        obtain ⟨usable, client, accepted⟩ := bind_eq_ok accepted
        cases accepted
        refine ⟨eq_false_of_ne_true direct, rfl, ?_⟩
        cases sorted : (first :: more).insertionSort (· ≤ ·) with
        | nil =>
            have length := congrArg List.length sorted
            rw [List.length_insertionSort] at length
            cases length
        | cons seed others =>
            rw [sorted] at client
            exact ⟨seed, by simp, client⟩

/-- Without discovery there is a scheme that requests can be sent with. -/
theorem direct_of_tryNew (accepted : tryNew library buildDiscoveryHttpClient config = .ok none) :
    config.withoutDiscovery = true ∧
      (config.hasHttpClient = false → isHttpScheme (config.scheme.getD httpScheme) = true) := by
  rw [tryNew] at accepted
  split at accepted
  · cases accepted
  · cases accepted
  · by_cases direct : config.withoutDiscovery = true
    · rw [if_pos direct] at accepted
      refine ⟨direct, fun none => ?_⟩
      split at accepted
      · cases accepted
      · next valid =>
        rw [none] at valid
        simp only [Bool.not_false, Bool.true_and, Bool.or_eq_true, Bool.not_eq_true',
          not_or, Bool.not_eq_false] at valid
        exact valid.2
    · rw [if_neg direct] at accepted
      split at accepted
      · cases accepted
      · obtain ⟨first, _, accepted⟩ := bind_eq_ok accepted
        obtain ⟨more, _, accepted⟩ := bind_eq_ok accepted
        obtain ⟨usable, _, accepted⟩ := bind_eq_ok accepted
        cases accepted

end LiveNodes

/-- A discovery client of the driver is built for HTTPS only where there are certificates. -/
theorem Host.buildDefaultDiscoveryHttpClient_eq_ok {host : Host} {scheme : Text}
    {requestTimeout : Nat} {usable : Bool} :
    host.buildDefaultDiscoveryHttpClient scheme requestTimeout = .ok usable ↔
      (eqIgnoreAsciiCase scheme httpsScheme = true → host.nativeRootsAreUsable = true) ∧
      host.protocolVersions = .ok () ∧
      host.buildReqwest requestTimeout (min maxConnectTimeout requestTimeout) = .ok () ∧
      usable = host.nativeRootsAreUsable := by
  rw [buildDefaultDiscoveryHttpClient]
  cases secure : eqIgnoreAsciiCase scheme httpsScheme <;>
    cases roots : host.nativeRootsAreUsable <;>
    cases host.protocolVersions <;>
    cases host.buildReqwest requestTimeout (min maxConnectTimeout requestTimeout) <;>
    simp [Except.mapError, bind, Except.bind, eq_comm]

theorem isHttpScheme_iff (scheme : Text) :
    isHttpScheme scheme = true ↔
      scheme.map Char.toLower = httpScheme ∨ scheme.map Char.toLower = httpsScheme := by
  rw [isHttpScheme, Bool.or_eq_true, eqIgnoreAsciiCase_http_iff, eqIgnoreAsciiCase_https_iff]

/-- Writing a scheme in lower case once is enough. -/
theorem map_toLower_of_isHttpScheme {scheme : Text} (http : isHttpScheme scheme = true) :
    (scheme.map Char.toLower).map Char.toLower = scheme.map Char.toLower := by
  obtain plain | secure := (isHttpScheme_iff scheme).mp http
  · rw [plain]
    decide
  · rw [secure]
    decide

namespace AlternatorClient

variable [LinearOrder Url] {library : UrlLibrary Url} {host : Host} {config : ClientConfig}
  {client : AlternatorClient Url} {acceptsUri : Text → Bool} {pathAndQuery : Url → Text}

/-- The driver gives a client a transport with TLS exactly where that works, and refuses a
configuration that needs it elsewhere. -/
theorem httpConnector_of_tryNew (laws : library.HttpLaws acceptsUri pathAndQuery)
    (lowers : library.LowersHttpSchemes) {topology : Option (LiveNodes Url)}
    (accepted : LiveNodes.tryNew library (host.buildDiscoveryHttpClient config) config.routing =
      .ok topology)
    (roots : config.usesDirectHttpsTransport topology = true →
      config.dynamodbConfig.hasHttpClient = false → host.nativeRootsAreUsable = true)
    (none : config.dynamodbConfig.hasHttpClient = false) :
    config.httpConnector host topology = .driver host.nativeRootsAreUsable ∧
      isHttpScheme config.scheme = true ∧
      (config.speaksTls = true → host.nativeRootsAreUsable = true) := by
  cases topology with
  | none =>
      obtain ⟨-, http⟩ := LiveNodes.direct_of_tryNew accepted
      have http : isHttpScheme config.scheme = true := http none
      have secured : config.speaksTls = true → host.nativeRootsAreUsable = true :=
        fun secure => roots secure none
      refine ⟨?_, http, secured⟩
      have plaintext : config.usesPlaintextTransport (Option.none : Option (LiveNodes Url)) =
          eqIgnoreAsciiCase config.scheme httpScheme := rfl
      rw [ClientConfig.httpConnector, none, if_neg Bool.false_ne_true, plaintext]
      rw [isHttpScheme, Bool.or_eq_true] at http
      obtain plain | secure := http
      · simp [plain]
      · simp [secured secure]
  | some live =>
      obtain ⟨inputs, sameLibrary, -⟩ := LiveNodes.tryNew_accepts accepted
      obtain ⟨-, scheme, seed, leads, discovery⟩ := LiveNodes.discovery_of_tryNew accepted
      have scheme : live.inputs.alternatorScheme = config.scheme := scheme
      have http : isHttpScheme config.scheme = true := scheme ▸ inputs.scheme
      rw [Host.buildDiscoveryHttpClient, none, if_neg Bool.false_ne_true,
        Host.buildDefaultDiscoveryHttpClient_eq_ok] at discovery
      obtain ⟨secured, -, -, usable⟩ := discovery
      -- The first seed has the scheme of all nodes.
      have seedScheme : library.scheme seed = config.scheme.map Char.toLower := by
        obtain ⟨addr, known⟩ := inputs.seedUrls.2 seed (List.mem_of_mem_head? leads)
        rw [DiscoveryInputs.hostToUri, sameLibrary, scheme] at known
        exact UrlLibrary.scheme_buildNodeUrl laws lowers http known
      have plaintext : config.usesPlaintextTransport (some live) =
          decide (config.scheme.map Char.toLower = httpScheme) := by
        simp [ClientConfig.usesPlaintextTransport, ClientConfig.directScheme, LiveNodes.usesHttp,
          Option.mem_def.mp leads, sameLibrary, seedScheme, beq_eq_decide]
      have secured : config.speaksTls = true → host.nativeRootsAreUsable = true := by
        intro secure
        refine secured ?_
        rw [eqIgnoreAsciiCase_https_iff, seedScheme, map_toLower_of_isHttpScheme http]
        exact (eqIgnoreAsciiCase_https_iff _).mp secure
      refine ⟨?_, http, secured⟩
      rw [ClientConfig.httpConnector, none, if_neg Bool.false_ne_true, plaintext, Option.map_some,
        Option.getD_some, usable]
      obtain plain | secure := (isHttpScheme_iff _).mp http
      · simp [plain]
      · simp [secured ((eqIgnoreAsciiCase_https_iff _).mpr secure)]

/-- Every client of the SDK has the transport that was chosen. -/
theorem BuiltFrom.httpClient (built : client.BuiltFrom library host config)
    {sdk : SdkClientConfig} (uses : client.Uses sdk) :
    sdk.httpClient = some (config.httpConnector host client.topology) := by
  obtain ⟨interceptors, routes, main, -⟩ := built.routed
  obtain rfl | ⟨keys, known, rfl⟩ := uses
  · rw [main]
    rfl
  · rw [known] at routes
    rw [client_of_routes routes]
    rfl

end AlternatorClient

end AlternatorDriver
