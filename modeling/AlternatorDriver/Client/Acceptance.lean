import AlternatorDriver.Client.Transport

/-!
# Which configurations are accepted

A construction fails in many places: in the URL library, in the discovery client, in the checks
of schemes and certificates, and in the SDK. Together they ask for no more than what is listed
here, in terms of the configuration and the host alone.
-/

namespace AlternatorDriver

open Foundation

variable {Url : Type}

namespace ClientConfig

variable (config : ClientConfig)

/-- The transport of a client that is built. -/
def plannedConnector (host : Host) : HttpConnector :=
  if config.dynamodbConfig.hasHttpClient then .custom else .driver host.nativeRootsAreUsable

/-- The clients that the SDK is asked to validate. -/
def plannedClients (host : Host) : List SdkClientConfig :=
  let base := config.sdkClientConfig (config.plannedConnector host)
  if config.alternatorExt.withoutDiscovery then [base.withInterceptors []]
  else match config.affinity with
    | none => [base.withInterceptors [.roundRobin]]
    | some affinity =>
        [config.discoveryClientConfig base, base.withInterceptors [.affinity affinity]]

/-- The seed hosts that have to be usable: without discovery, only the first is. -/
def neededSeeds : List Text :=
  let seedHosts := config.alternatorExt.seedHosts.getD []
  if config.alternatorExt.withoutDiscovery then seedHosts.take 1 else seedHosts

/-- What a configuration needs to be accepted on a host. -/
structure Acceptable (library : UrlLibrary Url) (host : Host) : Prop where
  timeout : ∀ timeout, config.alternatorExt.discoveryTimeout = some timeout →
    0 < timeout ∧ timeout ≤ host.clockRange
  seeds : config.neededSeeds ≠ [] ∧ ∀ seedHost ∈ config.neededSeeds,
    ∃ url, library.buildSeedUrl config.scheme seedHost config.alternatorExt.port = .ok url
  scheme : isHttpScheme config.scheme = true ∨
    config.alternatorExt.withoutDiscovery = true ∧ config.dynamodbConfig.hasHttpClient = true
  roots : config.dynamodbConfig.hasHttpClient = false → config.speaksTls = true →
    host.nativeRootsAreUsable = true
  discovery : config.dynamodbConfig.hasHttpClient = false →
    config.alternatorExt.withoutDiscovery = false → host.protocolVersions = .ok () ∧
      host.buildReqwest config.requestTimeout (min maxConnectTimeout config.requestTimeout) = .ok ()
  guarded : config.alternatorExt.stalledStreamProtectionExplicitlyUnset = false
  valid : ∀ sdk ∈ config.plannedClients host, host.validate sdk = .ok ()

end ClientConfig

/-! ## Live nodes -/

namespace LiveNodes

theorem mapM_isOk {α β ε : Type} {f : α → Except ε β} {l : List α} :
    (∃ r, l.mapM f = .ok r) ↔ ∀ a ∈ l, ∃ b, f a = .ok b := by
  induction l with
  | nil => exact iff_of_true ⟨[], rfl⟩ fun _ absent => absurd absent List.not_mem_nil
  | cons a l ih =>
      rw [List.forall_mem_cons, ← ih, List.mapM_cons]
      constructor
      · rintro ⟨r, done⟩
        obtain ⟨b, here, done⟩ := bind_eq_ok done
        obtain ⟨rest, there, -⟩ := bind_eq_ok done
        exact ⟨⟨b, here⟩, rest, there⟩
      · rintro ⟨⟨b, here⟩, rest, there⟩
        exact ⟨b :: rest, by rw [here, there]; rfl⟩

variable [LinearOrder Url] {library : UrlLibrary Url} {config : AlternatorConfig}
  {buildDiscoveryHttpClient : Text → Except LiveNodesBuildError Bool}
  {acceptsUri : Text → Bool} {pathAndQuery : Url → Text}

/-- What direct routing asks for. -/
theorem tryNew_direct_isOk {first : Text} {more : List Text}
    (seeds : config.seedHosts = some (first :: more)) (direct : config.withoutDiscovery = true) :
    tryNew library buildDiscoveryHttpClient config = .ok none ↔
      (isHttpScheme (config.scheme.getD httpScheme) = true ∨ config.hasHttpClient = true) ∧
        ∃ url, library.buildSeedUrl (config.scheme.getD httpScheme) first config.port =
          .ok url := by
  simp only [tryNew, seeds, direct, if_true]
  cases valid : isValidUriScheme (config.scheme.getD httpScheme) with
  | false =>
      rw [Bool.not_false, Bool.true_or, if_pos rfl]
      refine iff_of_false (fun refused => by cases refused) ?_
      rintro ⟨-, built⟩
      have scheme := (isValidUriScheme_iff _).mpr ((buildSeedUrl_isOk _ _ _).mp built).1
      rw [valid] at scheme
      cases scheme
  | true =>
      rw [Bool.not_true, Bool.false_or]
      cases custom : config.hasHttpClient <;>
        cases http : isHttpScheme (config.scheme.getD httpScheme) <;>
        cases built : library.buildSeedUrl (config.scheme.getD httpScheme) first config.port <;>
        simp [buildSeed, built, Except.mapError, bind, Except.bind]

/-- What discovery asks for. The discovery client is built for the scheme of all nodes. -/
theorem tryNew_discovery_isOk (laws : library.HttpLaws acceptsUri pathAndQuery)
    (lowers : library.LowersHttpSchemes) {first : Text} {more : List Text}
    (seeds : config.seedHosts = some (first :: more)) (discovery : config.withoutDiscovery = false) :
    (∃ live, tryNew library buildDiscoveryHttpClient config = .ok (some live)) ↔
      isHttpScheme (config.scheme.getD httpScheme) = true ∧
        (∀ seedHost ∈ first :: more, ∃ url,
          library.buildSeedUrl (config.scheme.getD httpScheme) seedHost config.port = .ok url) ∧
        ∃ usable, buildDiscoveryHttpClient ((config.scheme.getD httpScheme).map Char.toLower) =
          .ok usable := by
  constructor
  · rintro ⟨live, accepted⟩
    obtain ⟨inputs, sameLibrary, -⟩ := tryNew_accepts accepted
    obtain ⟨-, scheme, seed, leads, client⟩ := discovery_of_tryNew accepted
    have http := inputs.scheme
    rw [scheme] at http
    have seedScheme : library.scheme seed = (config.scheme.getD httpScheme).map Char.toLower := by
      obtain ⟨addr, known⟩ := inputs.seedUrls.2 seed (List.mem_of_mem_head? leads)
      rw [DiscoveryInputs.hostToUri, sameLibrary, scheme] at known
      exact UrlLibrary.scheme_buildNodeUrl laws lowers http known
    rw [seedScheme] at client
    refine ⟨http, ?_, _, client⟩
    simp only [tryNew, seeds, discovery, http, Bool.false_eq_true, Bool.not_true, if_false]
      at accepted
    obtain ⟨firstUrl, builtFirst, accepted⟩ := bind_eq_ok accepted
    obtain ⟨moreUrls, builtMore, -⟩ := bind_eq_ok accepted
    rintro seedHost (_ | ⟨_, later⟩)
    · exact ⟨firstUrl, buildSeed_eq_ok.mp builtFirst⟩
    · obtain ⟨url, built⟩ := mapM_isOk.mp ⟨moreUrls, builtMore⟩ seedHost later
      exact ⟨url, buildSeed_eq_ok.mp built⟩
  · rintro ⟨http, usableSeeds, usable, client⟩
    obtain ⟨firstUrl, builtFirst⟩ := usableSeeds first List.mem_cons_self
    have builtFirst : buildSeed library (config.scheme.getD httpScheme) config.port first =
        .ok firstUrl := buildSeed_eq_ok.mpr builtFirst
    obtain ⟨moreUrls, builtMore⟩ : ∃ moreUrls, more.mapM
        (buildSeed library (config.scheme.getD httpScheme) config.port) = .ok moreUrls := by
      refine mapM_isOk.mpr fun seedHost later => ?_
      obtain ⟨url, built⟩ := usableSeeds seedHost (List.mem_cons_of_mem _ later)
      exact ⟨url, buildSeed_eq_ok.mpr built⟩
    have seedScheme : library.scheme
        (((firstUrl :: moreUrls).insertionSort (· ≤ ·)).headD firstUrl) =
          (config.scheme.getD httpScheme).map Char.toLower := by
      have seedUrl : ∀ url ∈ firstUrl :: moreUrls,
          library.scheme url = (config.scheme.getD httpScheme).map Char.toLower := by
        intro url listed
        obtain rfl | later := List.mem_cons.mp listed
        · exact UrlLibrary.scheme_buildNodeUrl laws lowers http
            (buildNodeUrl_of_buildSeed builtFirst)
        · obtain ⟨seedHost, -, built⟩ := mem_of_mapM builtMore later
          exact UrlLibrary.scheme_buildNodeUrl laws lowers http (buildNodeUrl_of_buildSeed built)
      refine seedUrl _ ((List.mem_insertionSort (· ≤ ·)).mp ?_)
      cases sorted : (firstUrl :: moreUrls).insertionSort (· ≤ ·) with
      | nil =>
          have length := congrArg List.length sorted
          rw [List.length_insertionSort] at length
          cases length
      | cons seed others => exact List.mem_cons_self
    simp only [tryNew, seeds, discovery, http, Bool.false_eq_true, Bool.not_true, if_false,
      builtFirst, builtMore, bind, Except.bind, seedScheme, client]
    exact ⟨_, rfl⟩

end LiveNodes

theorem Host.acceptsTimeout_iff {host : Host} {timeout : Nat} :
    host.acceptsTimeout timeout = true ↔ 0 < timeout ∧ timeout ≤ host.clockRange := by
  rw [acceptsTimeout, Bool.and_eq_true, bne_iff_ne, decide_eq_true_iff, Nat.ne_zero_iff_zero_lt]

namespace AlternatorClient

variable [LinearOrder Url] {library : UrlLibrary Url} {host : Host} {config : ClientConfig}
  {client : AlternatorClient Url} {acceptsUri : Text → Bool} {pathAndQuery : Url → Text}

/-- The transport that is chosen can be told from the configuration and the host. -/
theorem httpConnector_eq_planned (laws : library.HttpLaws acceptsUri pathAndQuery)
    (lowers : library.LowersHttpSchemes) {topology : Option (LiveNodes Url)}
    (accepted : LiveNodes.tryNew library (host.buildDiscoveryHttpClient config) config.routing =
      .ok topology)
    (roots : config.usesDirectHttpsTransport topology = true →
      config.dynamodbConfig.hasHttpClient = false → host.nativeRootsAreUsable = true) :
    config.httpConnector host topology = config.plannedConnector host := by
  rw [ClientConfig.plannedConnector]
  cases custom : config.dynamodbConfig.hasHttpClient with
  | true => rw [ClientConfig.httpConnector, custom, if_pos rfl, if_pos rfl]
  | false =>
      rw [if_neg Bool.false_ne_true]
      exact (httpConnector_of_tryNew laws lowers accepted roots custom).1

/-- The clients that were validated are those that are planned. -/
theorem BuiltFrom.valid (built : client.BuiltFrom library host config)
    (planned : config.httpConnector host client.topology = config.plannedConnector host)
    (discovery : config.alternatorExt.withoutDiscovery = client.topology.isNone) :
    ∀ sdk ∈ config.plannedClients host, host.validate sdk = .ok () := by
  obtain ⟨interceptors, routes, main, valid⟩ := built.routed
  rw [planned] at routes main
  rw [main] at valid
  rw [ClientConfig.plannedClients, discovery]
  generalize client.topology = topology at routes
  generalize client.partitionKeys = keys at routes
  cases routes with
  | direct => simpa using valid
  | roundRobin live disabled => simpa [disabled] using valid
  | affinity live enabled validKeys => simpa [enabled] using ⟨validKeys, valid⟩

theorem acceptable_of_built (laws : library.HttpLaws acceptsUri pathAndQuery)
    (lowers : library.LowersHttpSchemes) (built : client.BuiltFrom library host config) :
    config.Acceptable library host := by
  have planned := httpConnector_eq_planned laws lowers built.topology built.roots
  obtain ⟨-, first, more, seeds, -⟩ := LiveNodes.hasSeedUrl_of_tryNew built.topology
  have timeout : ∀ timeout, config.alternatorExt.discoveryTimeout = some timeout →
      0 < timeout ∧ timeout ≤ host.clockRange :=
    fun timeout configured => Host.acceptsTimeout_iff.mp (built.timeout timeout configured)
  have roots : config.dynamodbConfig.hasHttpClient = false → config.speaksTls = true →
      host.nativeRootsAreUsable = true :=
    fun none => (httpConnector_of_tryNew laws lowers built.topology built.roots none).2.2
  have seeds' : config.alternatorExt.seedHosts = some (first :: more) := seeds
  cases topology : client.topology with
  | none =>
      have accepted := built.topology
      rw [topology] at accepted
      have direct : config.alternatorExt.withoutDiscovery = true :=
        (LiveNodes.direct_of_tryNew accepted).1
      obtain ⟨scheme, url, usable⟩ := (LiveNodes.tryNew_direct_isOk seeds direct).mp accepted
      refine ⟨timeout, ?_, ?_, roots, ?_, built.guarded, ?_⟩
      · have needed : config.neededSeeds = [first] := by
          simp [ClientConfig.neededSeeds, seeds', direct]
        rw [needed]
        exact ⟨List.cons_ne_nil _ _, fun seedHost listed =>
          ⟨url, List.mem_singleton.mp listed ▸ usable⟩⟩
      · exact scheme.imp id fun custom => ⟨direct, custom⟩
      · intro none discovery
        rw [direct] at discovery
        cases discovery
      · exact built.valid planned (by rw [direct, topology]; rfl)
  | some live =>
      have accepted := built.topology
      rw [topology] at accepted
      have discovery : config.alternatorExt.withoutDiscovery = false :=
        (LiveNodes.discovery_of_tryNew accepted).1
      obtain ⟨http, usable, _, client'⟩ :=
        (LiveNodes.tryNew_discovery_isOk laws lowers seeds discovery).mp ⟨live, accepted⟩
      refine ⟨timeout, ?_, .inl http, roots, ?_, built.guarded, ?_⟩
      · have needed : config.neededSeeds = first :: more := by
          simp [ClientConfig.neededSeeds, seeds', discovery]
        rw [needed]
        exact ⟨List.cons_ne_nil _ _, usable⟩
      · intro none _
        rw [Host.buildDiscoveryHttpClient, none, if_neg Bool.false_ne_true,
          Host.buildDefaultDiscoveryHttpClient_eq_ok] at client'
        exact ⟨client'.2.1, client'.2.2.1⟩
      · exact built.valid planned (by rw [discovery, topology]; rfl)

omit [LinearOrder Url] in
/-- The discovery client of an acceptable configuration can be built. -/
theorem discoveryClient_of_acceptable (acceptable : config.Acceptable library host)
    (discovery : config.alternatorExt.withoutDiscovery = false)
    (http : isHttpScheme config.scheme = true) :
    ∃ usable, host.buildDiscoveryHttpClient config (config.scheme.map Char.toLower) =
      .ok usable := by
  rw [Host.buildDiscoveryHttpClient]
  cases custom : config.dynamodbConfig.hasHttpClient with
  | true => exact ⟨false, by rw [if_pos rfl]⟩
  | false =>
      obtain ⟨versions, reqwest⟩ := acceptable.discovery custom discovery
      refine ⟨host.nativeRootsAreUsable, ?_⟩
      rw [if_neg Bool.false_ne_true]
      refine Host.buildDefaultDiscoveryHttpClient_eq_ok.mpr
        ⟨fun secure => acceptable.roots custom ?_, versions, reqwest, rfl⟩
      have lowered := (eqIgnoreAsciiCase_https_iff _).mp secure
      rw [map_toLower_of_isHttpScheme http] at lowered
      exact (eqIgnoreAsciiCase_https_iff _).mpr lowered

/-- An acceptable configuration has live nodes, unless it does without discovery. -/
theorem tryNew_of_acceptable (laws : library.HttpLaws acceptsUri pathAndQuery)
    (lowers : library.LowersHttpSchemes) (acceptable : config.Acceptable library host) :
    ∃ topology : Option (LiveNodes Url), topology.isNone = config.alternatorExt.withoutDiscovery ∧
      LiveNodes.tryNew library (host.buildDiscoveryHttpClient config) config.routing =
        .ok topology := by
  obtain ⟨some', usable⟩ := acceptable.seeds
  cases seeds : config.alternatorExt.seedHosts with
  | none => simp [ClientConfig.neededSeeds, seeds] at some'
  | some seedHosts =>
      cases seedHosts with
      | nil => simp [ClientConfig.neededSeeds, seeds] at some'
      | cons first more =>
          cases direct : config.alternatorExt.withoutDiscovery with
          | true =>
              refine ⟨none, rfl, (LiveNodes.tryNew_direct_isOk seeds direct).mpr
                ⟨acceptable.scheme.imp id And.right, usable first ?_⟩⟩
              simp [ClientConfig.neededSeeds, seeds, direct]
          | false =>
              have http : isHttpScheme config.scheme = true := by
                refine acceptable.scheme.resolve_right ?_
                rw [direct]
                exact fun both => Bool.false_ne_true both.1
              have seedUrls : ∀ seedHost ∈ first :: more, ∃ url,
                  library.buildSeedUrl config.scheme seedHost config.alternatorExt.port =
                    .ok url := by
                simpa [ClientConfig.neededSeeds, seeds, direct] using usable
              obtain ⟨live, accepted⟩ :=
                (@LiveNodes.tryNew_discovery_isOk _ _ library config.routing _ _ _ laws lowers _ _
                  seeds direct).mpr
                    ⟨http, seedUrls, discoveryClient_of_acceptable acceptable direct http⟩
              exact ⟨some live, rfl, accepted⟩

omit [LinearOrder Url] in
/-- The SDK takes the clients that are planned. -/
theorem buildRouting_of_planned {topology : Option (LiveNodes Url)}
    (discovery : topology.isNone = config.alternatorExt.withoutDiscovery)
    (valid : ∀ sdk ∈ config.plannedClients host, host.validate sdk = .ok ()) :
    ∃ keys interceptor client, config.buildRouting host
        (config.sdkClientConfig (config.plannedConnector host)) topology =
          .ok (keys, interceptor) ∧
      host.tryDynamodbClientFromConf ((config.sdkClientConfig
        (config.plannedConnector host)).withInterceptors interceptor.toList) = .ok client := by
  have takes {sdk : SdkClientConfig} (transport : sdk.httpClient.isSome = true)
      (member : sdk ∈ config.plannedClients host) : host.tryDynamodbClientFromConf sdk = .ok sdk :=
    Host.tryDynamodbClientFromConf_eq_ok.mpr ⟨transport, valid sdk member, rfl⟩
  cases topology with
  | none =>
      refine ⟨none, none, _, rfl, takes rfl ?_⟩
      simp [ClientConfig.plannedClients, ← discovery]
  | some live =>
      cases affinity : config.affinity with
      | none =>
          refine ⟨none, some .roundRobin, _, by simp only [ClientConfig.buildRouting, affinity],
            takes rfl ?_⟩
          simp [ClientConfig.plannedClients, ← discovery, affinity]
      | some enabled =>
          have keys := @takes (config.discoveryClientConfig
            (config.sdkClientConfig (config.plannedConnector host))) rfl (by
              simp [ClientConfig.plannedClients, ← discovery, affinity])
          have routing : config.buildRouting host
              (config.sdkClientConfig (config.plannedConnector host)) (some live) =
                .ok (some ⟨config.discoveryClientConfig
                  (config.sdkClientConfig (config.plannedConnector host)), enabled.pkInfoPerTable,
                  config.alternatorExt.discoveryTimeout⟩, some (.affinity enabled)) := by
            simp only [ClientConfig.buildRouting, affinity, keys]
            rfl
          refine ⟨_, _, _, routing, takes rfl ?_⟩
          simp [ClientConfig.plannedClients, ← discovery, affinity]

theorem built_of_acceptable (laws : library.HttpLaws acceptsUri pathAndQuery)
    (lowers : library.LowersHttpSchemes) (acceptable : config.Acceptable library host) :
    ∃ client, tryFromConf library host config = .ok client := by
  obtain ⟨topology, discovery, accepted⟩ := tryNew_of_acceptable laws lowers acceptable
  have roots : config.usesDirectHttpsTransport topology = true →
      config.dynamodbConfig.hasHttpClient = false → host.nativeRootsAreUsable = true := by
    intro direct none
    refine acceptable.roots none ?_
    simp only [ClientConfig.usesDirectHttpsTransport, ClientConfig.directScheme] at direct
    split at direct
    · exact direct
    · cases direct
  have planned := httpConnector_eq_planned laws lowers accepted roots
  have rooted : config.ensureDirectRoots host topology = .ok () := by
    rw [ClientConfig.ensureDirectRoots]
    split
    · next needed =>
      rw [Bool.and_eq_true, Bool.not_eq_true'] at needed
      exact mapError_eq_ok.mpr (Host.ensureNativeRootsAreUsable_eq_ok.mpr
        (roots needed.1 needed.2))
    · rfl
  have guarded : config.validateSdkDefaultConfig = .ok () := by
    rw [ClientConfig.validateSdkDefaultConfig, acceptable.guarded, if_neg Bool.false_ne_true]
  obtain ⟨keys, interceptor, dynamodbClient, routing, constructed⟩ :=
    buildRouting_of_planned discovery acceptable.valid
  have timely : ¬ (config.alternatorExt.discoveryTimeout.any fun timeout =>
      !host.acceptsTimeout timeout) = true := by
    cases configured : config.alternatorExt.discoveryTimeout with
    | none => exact Bool.false_ne_true
    | some timeout =>
        have accepts := Host.acceptsTimeout_iff.mpr (acceptable.timeout timeout configured)
        simp [accepts]
  rw [tryFromConf, if_neg timely, mapError_eq_ok.mpr accepted]
  refine ⟨⟨dynamodbClient, config, topology, keys⟩, ?_⟩
  simp only [bind, Except.bind, rooted, guarded, planned, routing, constructed]

/-- A client is built exactly if its configuration is acceptable. In particular certificates
matter only to a client that speaks TLS through the driver's transport. -/
theorem configurations_are_accepted_exactly (laws : library.HttpLaws acceptsUri pathAndQuery)
    (lowers : library.LowersHttpSchemes) (host : Host) (config : ClientConfig) :
    (∃ client, tryFromConf library host config = .ok client) ↔
      config.Acceptable library host := by
  constructor
  · rintro ⟨client, built⟩
    exact acceptable_of_built laws lowers (builtFrom_of_tryFromConf built)
  · exact built_of_acceptable laws lowers

/-- A host without certificates. -/
def rootlessHost : Host := { plainHost with nativeCerts := ⟨[], []⟩ }

def seededBuilder (scheme : Text) : Option ClientBuilder :=
  ClientBuilder.afterCalls PlainUrl.library
    [.routing (.setSeedHosts [['a']]), .routing (.setScheme scheme)]

theorem configurations_are_accepted_exactly_rootless :
    ∃ plain secure, seededBuilder httpScheme = some plain ∧
      seededBuilder httpsScheme = some secure ∧
      (ClientBuilder.build plain PlainUrl.library).Acceptable PlainUrl.library rootlessHost ∧
      ∀ client, tryFromConf PlainUrl.library rootlessHost
        (ClientBuilder.build secure PlainUrl.library) ≠ .ok client := by
  refine ⟨_, _, rfl, rfl, ?_, fun client built => ?_⟩
  · exact (configurations_are_accepted_exactly PlainUrl.httpLaws PlainUrl.lowersHttpSchemes
      rootlessHost _).mp ⟨_, rfl⟩
  · have roots := ((configurations_are_accepted_exactly PlainUrl.httpLaws
      PlainUrl.lowersHttpSchemes rootlessHost _).mp ⟨client, built⟩).roots rfl (by decide)
    exact absurd roots (by decide)

end AlternatorClient

end AlternatorDriver
