import AlternatorDriver.LiveNodes.Construction

/-!
# The endpoint of a configuration

The seed hosts are all of the routing configuration. The builder derives the endpoint of the
SDK from the first of them, and the construction of live nodes validates them on its own. A
configuration that is accepted always has an endpoint, so that no client falls back to one
that the SDK would choose.
-/

namespace AlternatorDriver

open Foundation

variable {Url : Type}

/-- The settings of the SDK's own configuration that matter here: its endpoint, and whether
a custom HTTP client has been given. -/
structure DynamodbConfig where
  endpointUrl : Option Text
  hasHttpClient : Bool

/-- The driver's own settings, as far as live nodes are built from them. -/
structure AlternatorExtensions where
  activeInterval : Option Nat
  idleInterval : Option Nat
  routingScope : Option RoutingScope
  scheme : Option Text
  port : Option Nat
  seedHosts : Option (List Text)
  withoutDiscovery : Bool

/-- The SDK endpoint that the settings imply. -/
def AlternatorExtensions.endpointUrl (library : UrlLibrary Url) (ext : AlternatorExtensions) :
    Option Text :=
  match ext.seedHosts with
  | none | some [] => none
  | some (seedHost :: _) =>
      match library.buildSeedUrl (ext.scheme.getD httpScheme) seedHost ext.port with
      | .ok url => some (library.asStr url)
      | .error _ => none

/-- `AlternatorConfig`, with the SDK's configuration inside. -/
structure BuiltConfig where
  dynamodbConfig : DynamodbConfig
  alternatorExt : AlternatorExtensions

structure AlternatorBuilder where
  dynamodbBuilder : DynamodbConfig
  alternatorExt : AlternatorExtensions

/-- What `LiveNodes::try_new` reads of a configuration. -/
def BuiltConfig.config (built : BuiltConfig) : AlternatorConfig where
  activeInterval := built.alternatorExt.activeInterval
  idleInterval := built.alternatorExt.idleInterval
  routingScope := built.alternatorExt.routingScope
  scheme := built.alternatorExt.scheme
  port := built.alternatorExt.port
  seedHosts := built.alternatorExt.seedHosts
  withoutDiscovery := built.alternatorExt.withoutDiscovery
  hasHttpClient := built.dynamodbConfig.hasHttpClient

/-- Both the SDK's settings and the driver's are preserved. -/
def BuiltConfig.toBuilder (built : BuiltConfig) : AlternatorBuilder :=
  ⟨built.dynamodbConfig, built.alternatorExt⟩

/-- A scheme without one of the two documented wrappers. Other delimiters stay visible. -/
def normalizedScheme (scheme : Text) : Text :=
  ((Text.stripSuffix "://".toList scheme).or (Text.stripSuffix ":".toList scheme)).getD scheme

namespace AlternatorBuilder

def new : AlternatorBuilder where
  dynamodbBuilder := ⟨none, false⟩
  alternatorExt := ⟨none, none, none, none, none, none, false⟩

variable (builder : AlternatorBuilder)

def setActiveInterval (interval : Nat) : AlternatorBuilder :=
  { builder with alternatorExt.activeInterval := some interval }

def setIdleInterval (interval : Nat) : AlternatorBuilder :=
  { builder with alternatorExt.idleInterval := some interval }

def setRoutingScope (scope : RoutingScope) : AlternatorBuilder :=
  { builder with alternatorExt.routingScope := some scope }

def setScheme (scheme : Text) : AlternatorBuilder :=
  { builder with alternatorExt.scheme := some (normalizedScheme scheme) }

def setPort (port : Nat) : AlternatorBuilder := { builder with alternatorExt.port := some port }

def setSeedHosts (seedHosts : List Text) : AlternatorBuilder :=
  { builder with alternatorExt.seedHosts := some seedHosts }

def setWithoutDiscovery (withoutDiscovery : Bool) : AlternatorBuilder :=
  { builder with alternatorExt.withoutDiscovery := withoutDiscovery }

def setHttpClient (given : Bool) : AlternatorBuilder :=
  { builder with dynamodbBuilder.hasHttpClient := given }

/-- The configuration. The endpoint replaces whatever the SDK's builder had. -/
def build (library : UrlLibrary Url) : BuiltConfig :=
  ⟨{ builder.dynamodbBuilder with endpointUrl := builder.alternatorExt.endpointUrl library },
    builder.alternatorExt⟩

/-- The calls on a builder, `build` and `to_builder` in between. -/
inductive Call where
  | setActiveInterval (interval : Nat)
  | setIdleInterval (interval : Nat)
  | setRoutingScope (scope : RoutingScope)
  | setScheme (scheme : Text)
  | setPort (port : Nat)
  | setSeedHosts (seedHosts : List Text)
  | setWithoutDiscovery (withoutDiscovery : Bool)
  | setHttpClient (given : Bool)
  | rebuild

def apply (library : UrlLibrary Url) : Call → AlternatorBuilder
  | .setActiveInterval interval => setActiveInterval builder interval
  | .setIdleInterval interval => setIdleInterval builder interval
  | .setRoutingScope scope => setRoutingScope builder scope
  | .setScheme scheme => setScheme builder scheme
  | .setPort port => setPort builder port
  | .setSeedHosts seedHosts => setSeedHosts builder seedHosts
  | .setWithoutDiscovery withoutDiscovery => setWithoutDiscovery builder withoutDiscovery
  | .setHttpClient given => setHttpClient builder given
  | .rebuild => (build builder library).toBuilder

/-- The builder after some calls. -/
def afterCalls (library : UrlLibrary Url) (calls : List Call) : AlternatorBuilder :=
  calls.foldl (fun builder call => builder.apply library call) new

end AlternatorBuilder

/-- The configuration that is built after some calls. -/
def buildAfter (library : UrlLibrary Url) (calls : List AlternatorBuilder.Call) : BuiltConfig :=
  (AlternatorBuilder.afterCalls library calls).build library

/-! ## The schemes that are accepted -/

/-- An ASCII letter, then ASCII letters, digits, and three marks. -/
def IsUriScheme (scheme : Text) : Prop :=
  ∃ first rest, scheme = first :: rest ∧ first.isAlpha = true ∧
    ∀ c ∈ rest, c.isAlphanum = true ∨ c = '+' ∨ c = '-' ∨ c = '.'

theorem isValidUriScheme_iff (scheme : Text) :
    isValidUriScheme scheme = true ↔ IsUriScheme scheme := by
  cases scheme with
  | nil => simp [isValidUriScheme, IsUriScheme]
  | cons first rest =>
      simp [isValidUriScheme, IsUriScheme, or_assoc]

/-- The forms that a user may give a scheme in. -/
def IsSchemeForm (form scheme : Text) : Prop :=
  form = scheme ∨ form = scheme ++ ":".toList ∨ form = scheme ++ "://".toList

theorem isSchemeForm_normalizedScheme (form : Text) :
    IsSchemeForm form (normalizedScheme form) := by
  rw [normalizedScheme]
  cases long : Text.stripSuffix "://".toList form with
  | some scheme => exact .inr (.inr (Text.stripSuffix_eq_some.mp long))
  | none =>
      cases short : Text.stripSuffix ":".toList form with
      | some scheme => exact .inr (.inl (Text.stripSuffix_eq_some.mp short))
      | none => exact .inl rfl

theorem IsUriScheme.not_mem {scheme : Text} (valid : IsUriScheme scheme) : ':' ∉ scheme := by
  obtain ⟨first, rest, rfl, letter, others⟩ := valid
  rw [List.mem_cons]
  rintro (rfl | later)
  · exact absurd letter (by decide)
  · exact absurd (others ':' later) (by decide)

/-- A valid scheme is found in each of its forms. -/
theorem normalizedScheme_eq {form scheme : Text} (valid : IsUriScheme scheme)
    (given : IsSchemeForm form scheme) : normalizedScheme form = scheme := by
  have bare {suffix text : Text} (mark : ':' ∈ suffix) (free : ':' ∉ text) :
      Text.stripSuffix suffix text = none := by
    cases stripped : Text.stripSuffix suffix text with
    | none => rfl
    | some rest =>
        rw [Text.stripSuffix_eq_some] at stripped
        exact absurd (stripped ▸ List.mem_append_right rest mark) free
  rw [normalizedScheme]
  obtain rfl | rfl | rfl := given
  · rw [bare (by decide) valid.not_mem, bare (by decide) valid.not_mem]
    rfl
  · have long : Text.stripSuffix "://".toList (scheme ++ ":".toList) = none := by
      cases stripped : Text.stripSuffix "://".toList (scheme ++ ":".toList) with
      | none => rfl
      | some rest =>
          have last := congrArg List.getLast? (Text.stripSuffix_eq_some.mp stripped)
          simp at last
    rw [long, Text.stripSuffix_eq_some.mpr rfl]
    rfl
  · rw [Text.stripSuffix_eq_some.mpr rfl]
    rfl

namespace LiveNodes

variable {library : UrlLibrary Url}

/-- The URL library takes the host, and the URL with this scheme and port. -/
def UsableSeed (library : UrlLibrary Url) (seedHost : Text) (port : Option Nat) (scheme : Text) :
    Prop :=
  (Ipv6Text.isIpv6Addr (UrlLibrary.unbracketed seedHost) = true ∨
    library.parseHost seedHost = .ok ()) ∧
  ∃ url url', library.parse (scheme ++ "://".toList ++
      if Ipv6Text.isIpv6Addr (UrlLibrary.unbracketed seedHost)
      then '[' :: UrlLibrary.unbracketed seedHost ++ [']']
      else UrlLibrary.unbracketed seedHost) = .ok url ∧
    library.setPort url port = some url'

theorem buildNodeUrl_isOk (scheme addr : Text) (port : Option Nat) :
    (∃ url, library.buildNodeUrl scheme addr port = .ok url) ↔ IsUriScheme scheme ∧
      ∃ url url', library.parse (scheme ++ "://".toList ++
          if Ipv6Text.isIpv6Addr addr then '[' :: addr ++ [']'] else addr) = .ok url ∧
        library.setPort url port = some url' := by
  rw [← isValidUriScheme_iff, UrlLibrary.buildNodeUrl]
  cases isValidUriScheme scheme with
  | false => simp
  | true =>
      simp only [Bool.not_true, Bool.false_eq_true, if_false, true_and]
      constructor
      · rintro ⟨node, built⟩
        obtain ⟨url, parsed, ported⟩ := bind_eq_ok built
        refine ⟨url, ?_⟩
        cases set : library.setPort url port with
        | none => simp [set] at ported
        | some url' => exact ⟨url', parsed, rfl⟩
      · rintro ⟨url, url', parsed, ported⟩
        refine ⟨url', ?_⟩
        simp only [parsed, ported, bind, Except.bind]

theorem buildSeedUrl_isOk (scheme seedHost : Text) (port : Option Nat) :
    (∃ url, library.buildSeedUrl scheme seedHost port = .ok url) ↔
      IsUriScheme scheme ∧ UsableSeed library seedHost port scheme := by
  rw [UsableSeed, and_left_comm, ← buildNodeUrl_isOk, UrlLibrary.buildSeedUrl]
  cases Ipv6Text.isIpv6Addr (UrlLibrary.unbracketed seedHost) with
  | true => simp
  | false =>
      cases library.parseHost seedHost <;> simp [bind, Except.bind]

/-- The first seed host and its URL, which the two paths have in common. -/
def HasSeedUrl (library : UrlLibrary Url) (config : AlternatorConfig) (url : Url) : Prop :=
  ∃ seedHost more, config.seedHosts = some (seedHost :: more) ∧
    library.buildSeedUrl (config.scheme.getD httpScheme) seedHost config.port = .ok url

variable [LinearOrder Url] {buildDiscoveryHttpClient : Text → Except LiveNodesBuildError Bool}
variable {config : AlternatorConfig} {live : Option (LiveNodes Url)}

omit [LinearOrder Url] in
theorem buildSeed_eq_ok {scheme seedHost : Text} {port : Option Nat} {url : Url} :
    buildSeed library scheme port seedHost = .ok url ↔
      library.buildSeedUrl scheme seedHost port = .ok url := by
  rw [buildSeed]
  cases library.buildSeedUrl scheme seedHost port <;> simp [Except.mapError]

/-- Whatever is accepted has a URL for its first seed host. -/
theorem hasSeedUrl_of_tryNew
    (accepted : tryNew library buildDiscoveryHttpClient config = .ok live) :
    ∃ url, HasSeedUrl library config url := by
  rw [tryNew] at accepted
  split at accepted
  · cases accepted
  · cases accepted
  · next firstSeed moreSeeds seeds =>
    have first : ∃ url, buildSeed library (config.scheme.getD httpScheme) config.port firstSeed =
        .ok url := by
      split at accepted
      · split at accepted
        · cases accepted
        · obtain ⟨url, built, -⟩ := bind_eq_ok accepted
          exact ⟨url, built⟩
      · split at accepted
        · cases accepted
        · obtain ⟨url, built, -⟩ := bind_eq_ok accepted
          exact ⟨url, built⟩
    obtain ⟨url, built⟩ := first
    exact ⟨url, firstSeed, moreSeeds, seeds, buildSeed_eq_ok.mp built⟩

/-- Without discovery, and with a client of the user's own, nothing else is asked for. -/
theorem tryNew_direct (direct : config.withoutDiscovery = true)
    (custom : config.hasHttpClient = true) :
    (∃ live, tryNew library buildDiscoveryHttpClient config = .ok live) ↔
      ∃ url, HasSeedUrl library config url := by
  refine ⟨fun ⟨live, accepted⟩ => hasSeedUrl_of_tryNew accepted, ?_⟩
  rintro ⟨url, seedHost, more, seeds, built⟩
  have valid : isValidUriScheme (config.scheme.getD httpScheme) = true :=
    (isValidUriScheme_iff _).mpr ((buildSeedUrl_isOk _ _ _).mp ⟨url, built⟩).1
  refine ⟨none, ?_⟩
  simp only [tryNew, seeds, direct, if_true, valid, custom, Bool.not_true, Bool.false_and,
    Bool.or_self, Bool.false_eq_true, if_false, buildSeed_eq_ok.mpr built]
  rfl

end LiveNodes

namespace AlternatorBuilder

open LiveNodes

variable {library : UrlLibrary Url}

/-- The endpoint is derived from the same seed host, scheme and port. -/
theorem endpointUrl_build (builder : AlternatorBuilder) (endpoint : Text) :
    (builder.build library).dynamodbConfig.endpointUrl = some endpoint ↔
      ∃ url, HasSeedUrl library (builder.build library).config url ∧
        library.asStr url = endpoint := by
  simp only [build, AlternatorExtensions.endpointUrl, HasSeedUrl, BuiltConfig.config]
  cases builder.alternatorExt.seedHosts with
  | none => simp
  | some seedHosts =>
      cases seedHosts with
      | nil => simp
      | cons seedHost more =>
          cases built : library.buildSeedUrl (builder.alternatorExt.scheme.getD httpScheme) seedHost
              builder.alternatorExt.port with
          | error e => simp [built]
          | ok url => simp [built]

/-- The last scheme that was set is stored, through rebuilds as well. -/
theorem scheme_afterCalls (before after : List Call) (form : Text)
    (last : ∀ form, .setScheme form ∉ after) :
    (afterCalls library (before ++ .setScheme form :: after)).alternatorExt.scheme =
      some (normalizedScheme form) := by
  rw [afterCalls, List.foldl_append, List.foldl_cons]
  have set : (apply (before.foldl (fun builder call => builder.apply library call) new) library
      (.setScheme form)).alternatorExt.scheme = some (normalizedScheme form) := rfl
  generalize apply (before.foldl (fun builder call => builder.apply library call) new) library
    (.setScheme form) = builder at set ⊢
  induction after generalizing builder with
  | nil => exact set
  | cons call after ih =>
      refine ih (fun form listed => last form (List.mem_cons_of_mem _ listed)) _ ?_
      cases call with
      | setScheme form => exact absurd List.mem_cons_self (last form)
      | _ => exact set

end AlternatorBuilder

namespace LiveNodes

open AlternatorBuilder

variable [LinearOrder Url] (library : UrlLibrary Url)
  (buildDiscoveryHttpClient : Text → Except LiveNodesBuildError Bool) (calls : List Call)

/-- An accepted configuration has an endpoint, at its first seed host. -/
theorem endpointUrl_of_tryNew {live : Option (LiveNodes Url)}
    (accepted : tryNew library buildDiscoveryHttpClient (buildAfter library calls).config =
      .ok live) :
    ∃ seedHost more url, (buildAfter library calls).config.seedHosts = some (seedHost :: more) ∧
      library.buildSeedUrl ((buildAfter library calls).config.scheme.getD httpScheme) seedHost
        (buildAfter library calls).config.port = .ok url ∧
      (buildAfter library calls).dynamodbConfig.endpointUrl = some (library.asStr url) := by
  obtain ⟨url, seedHost, more, seeds, built⟩ := hasSeedUrl_of_tryNew accepted
  refine ⟨seedHost, more, url, seeds, built, ?_⟩
  exact (endpointUrl_build _ _).mpr ⟨url, ⟨seedHost, more, seeds, built⟩, rfl⟩

/-- With direct routing through a custom client, the endpoint is all that is asked for. -/
theorem tryNew_iff_endpointUrl
    (direct : (buildAfter library calls).config.withoutDiscovery = true)
    (custom : (buildAfter library calls).config.hasHttpClient = true) :
    (∃ live, tryNew library buildDiscoveryHttpClient (buildAfter library calls).config =
      .ok live) ↔ (buildAfter library calls).dynamodbConfig.endpointUrl.isSome := by
  rw [tryNew_direct direct custom, Option.isSome_iff_exists]
  constructor
  · rintro ⟨url, seed⟩
    exact ⟨_, (endpointUrl_build _ _).mpr ⟨url, seed, rfl⟩⟩
  · rintro ⟨endpoint, derived⟩
    obtain ⟨url, seed, -⟩ := (endpointUrl_build _ _).mp derived
    exact ⟨url, seed⟩

/-- There a scheme is accepted in its three forms, if the URL library takes the seed. -/
theorem tryNew_iff_scheme {before after : List Call} {form seedHost : Text} {more : List Text}
    (set : calls = before ++ .setScheme form :: after) (last : ∀ form', .setScheme form' ∉ after)
    (direct : (buildAfter library calls).config.withoutDiscovery = true)
    (custom : (buildAfter library calls).config.hasHttpClient = true)
    (seeds : (buildAfter library calls).config.seedHosts = some (seedHost :: more)) :
    (∃ live, tryNew library buildDiscoveryHttpClient (buildAfter library calls).config =
      .ok live) ↔ ∃ scheme, IsUriScheme scheme ∧ IsSchemeForm form scheme ∧
        UsableSeed library seedHost (buildAfter library calls).config.port scheme := by
  have stored : (buildAfter library calls).config.scheme = some (normalizedScheme form) := by
    rw [set]
    exact scheme_afterCalls before after form last
  have seedUrl : (∃ url, HasSeedUrl library (buildAfter library calls).config url) ↔
      ∃ url, library.buildSeedUrl (normalizedScheme form) seedHost
        (buildAfter library calls).config.port = .ok url := by
    simp only [HasSeedUrl, seeds, stored, Option.getD_some, Option.some.injEq, List.cons.injEq]
    constructor
    · rintro ⟨url, _, _, ⟨rfl, rfl⟩, built⟩
      exact ⟨url, built⟩
    · rintro ⟨url, built⟩
      exact ⟨url, _, _, ⟨rfl, rfl⟩, built⟩
  rw [tryNew_direct direct custom, seedUrl, buildSeedUrl_isOk]
  constructor
  · rintro ⟨valid, usable⟩
    exact ⟨_, valid, isSchemeForm_normalizedScheme form, usable⟩
  · rintro ⟨scheme, valid, given, usable⟩
    rw [normalizedScheme_eq valid given]
    exact ⟨valid, usable⟩

/-- Routing configuration fails closed, whatever the calls on the builder. -/
theorem routing_configuration_fails_closed :
    (∀ live, tryNew library buildDiscoveryHttpClient (buildAfter library calls).config = .ok live →
      ∃ seedHost more url,
        (buildAfter library calls).config.seedHosts = some (seedHost :: more) ∧
        library.buildSeedUrl ((buildAfter library calls).config.scheme.getD httpScheme) seedHost
          (buildAfter library calls).config.port = .ok url ∧
        (buildAfter library calls).dynamodbConfig.endpointUrl = some (library.asStr url)) ∧
    ((buildAfter library calls).config.withoutDiscovery = true →
      (buildAfter library calls).config.hasHttpClient = true →
      ((∃ live, tryNew library buildDiscoveryHttpClient (buildAfter library calls).config =
          .ok live) ↔ (buildAfter library calls).dynamodbConfig.endpointUrl.isSome) ∧
      ∀ before form after seedHost more, calls = before ++ .setScheme form :: after →
        (∀ form', .setScheme form' ∉ after) →
        (buildAfter library calls).config.seedHosts = some (seedHost :: more) →
        ((∃ live, tryNew library buildDiscoveryHttpClient (buildAfter library calls).config =
            .ok live) ↔ ∃ scheme, IsUriScheme scheme ∧ IsSchemeForm form scheme ∧
              UsableSeed library seedHost (buildAfter library calls).config.port scheme) ∧
        ((∀ scheme, IsUriScheme scheme → IsSchemeForm form scheme →
            UsableSeed library seedHost (buildAfter library calls).config.port scheme) →
          ((∃ live, tryNew library buildDiscoveryHttpClient (buildAfter library calls).config =
            .ok live) ↔ ∃ scheme, IsUriScheme scheme ∧ IsSchemeForm form scheme))) := by
  refine ⟨fun live accepted => endpointUrl_of_tryNew library _ calls accepted,
    fun direct custom => ⟨tryNew_iff_endpointUrl library _ calls direct custom, ?_⟩⟩
  intro before form after seedHost more set last seeds
  have accepted :=
    tryNew_iff_scheme library buildDiscoveryHttpClient calls set last direct custom seeds
  refine ⟨accepted, fun usable => accepted.trans ?_⟩
  constructor
  · rintro ⟨scheme, valid, given, -⟩
    exact ⟨scheme, valid, given⟩
  · rintro ⟨scheme, valid, given⟩
    exact ⟨scheme, valid, given, usable scheme valid given⟩

/-- A client of the user's own for `ftp`, set before the seed host and rebuilt. -/
theorem routing_configuration_fails_closed_custom :
    ∃ live, tryNew PlainUrl.library (fun _ => .ok true) (buildAfter PlainUrl.library
      [.setScheme "ftp://".toList, .setHttpClient true, .rebuild, .setWithoutDiscovery true,
        .setSeedHosts [['a']]]).config = .ok live := by
  obtain ⟨-, direct⟩ := routing_configuration_fails_closed PlainUrl.library (fun _ => .ok true)
    [.setScheme "ftp://".toList, .setHttpClient true, .rebuild, .setWithoutDiscovery true,
      .setSeedHosts [['a']]]
  exact (direct rfl rfl).1.mpr (by decide)

end LiveNodes

end AlternatorDriver
