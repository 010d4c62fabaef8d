import AlternatorDriver.LiveNodes.Construction

/-!
# The rewriting of a request to its node

Before an attempt is signed, its URI is pointed at the node that the plan gave: scheme,
host and port are the node's, and the rest is the request's. What the URL library
promises about HTTP URLs is stated here and assumed where it is used.
-/

namespace AlternatorDriver

open Foundation

variable {Url : Type}

/-- An error of `modify_before_signing`: a text of its own, or that of a library. -/
inductive RoutingError where
  | text (message : String)
  | parse (source : ParseError)
  | invalidUri (uri : Text)

namespace UrlLibrary

variable (library : UrlLibrary Url) (acceptsUri : Text → Bool)

/-- The URI of an attempt, pointed at the next node of its plan. `acceptsUri` says which
texts `Request::set_uri` takes. -/
def modifyBeforeSigning (nextNode : Option Url) (uri : Text) : Except RoutingError Text := do
  let nextNode ← nextNode.elim
    (.error (.text "no live Alternator node available to route the request to")) .ok
  let current ← (library.parse uri).mapError .parse
  let current ← (library.setScheme current (library.scheme nextNode)).elim
    (.error (.text "cannot set scheme")) .ok
  let current ← (library.setHost current (library.hostStr nextNode)).elim
    (.error (.text "cannot set host")) .ok
  let current ← (library.setPort current (library.port nextNode)).elim
    (.error (.text "cannot set port")) .ok
  if acceptsUri (library.asStr current) then .ok (library.asStr current)
  else .error (.invalidUri (library.asStr current))

/-- An HTTP URL has one of the two schemes, in lower case, and a host. -/
def IsHttp (url : Url) : Prop :=
  (library.scheme url = httpScheme ∨ library.scheme url = httpsScheme) ∧
    (library.hostStr url).isSome = true

instance : DecidablePred library.IsHttp := fun _ => inferInstanceAs (Decidable (_ ∧ _))

/-- The text is the URI of an HTTP URL. -/
def isHttpUri (uri : Text) : Bool := (library.parse uri).toOption.any fun url => library.IsHttp url

variable (pathAndQuery : Url → Text)

/-- What the library documents about HTTP URLs. -/
structure HttpLaws : Prop where
  parse_http : ∀ scheme authority url, isHttpScheme scheme = true →
    library.parse (scheme ++ "://".toList ++ authority) = .ok url → library.IsHttp url
  setScheme_http : ∀ url node, library.IsHttp url → library.IsHttp node →
    ∃ url', library.setScheme url (library.scheme node) = some url' ∧
      library.scheme url' = library.scheme node ∧ library.hostStr url' = library.hostStr url ∧
      pathAndQuery url' = pathAndQuery url
  setHost_http : ∀ url node, library.IsHttp url → library.IsHttp node →
    ∃ url', library.setHost url (library.hostStr node) = some url' ∧
      library.scheme url' = library.scheme url ∧ library.hostStr url' = library.hostStr node ∧
      pathAndQuery url' = pathAndQuery url
  setPort_http : ∀ url port, library.IsHttp url →
    ∃ url', library.setPort url port = some url' ∧ library.scheme url' = library.scheme url ∧
      library.hostStr url' = library.hostStr url ∧ pathAndQuery url' = pathAndQuery url
  /-- A port that a URL of the same scheme reports is kept as it is. -/
  port_setPort : ∀ url url' node, library.IsHttp url → library.IsHttp node →
    library.scheme url = library.scheme node →
    library.setPort url (library.port node) = some url' → library.port url' = library.port node
  accepts_http : ∀ url, library.IsHttp url → acceptsUri (library.asStr url) = true

/-- The URL goes to the node, and is the original one otherwise. -/
structure PointsAt (node original routed : Url) : Prop where
  scheme : library.scheme routed = library.scheme node
  host : library.hostStr routed = library.hostStr node
  port : library.port routed = library.port node
  pathAndQuery : pathAndQuery routed = pathAndQuery original

variable {library acceptsUri pathAndQuery}

theorem IsHttp.congr {url url' : Url} (http : library.IsHttp url)
    (scheme : library.scheme url' = library.scheme url)
    (host : library.hostStr url' = library.hostStr url) : library.IsHttp url' := by
  rwa [IsHttp, scheme, host]

theorem exists_of_isHttpUri {uri : Text} (http : library.isHttpUri uri = true) :
    ∃ original, library.parse uri = .ok original ∧ library.IsHttp original := by
  rw [isHttpUri] at http
  cases parsed : library.parse uri with
  | error e => simp [parsed, Except.toOption] at http
  | ok original =>
      refine ⟨original, rfl, ?_⟩
      simpa [parsed, Except.toOption] using http

/-- No setter refuses the parts of an HTTP node. -/
theorem modifyBeforeSigning_ok (laws : library.HttpLaws acceptsUri pathAndQuery)
    {node original : Url} {uri : Text} (toNode : library.IsHttp node)
    (parsed : library.parse uri = .ok original) (http : library.IsHttp original) :
    ∃ routed, library.modifyBeforeSigning acceptsUri (some node) uri = .ok (library.asStr routed) ∧
      library.PointsAt pathAndQuery node original routed := by
  obtain ⟨first, schemeSet, scheme₁, host₁, path₁⟩ :=
    laws.setScheme_http original node http toNode
  have http₁ : library.IsHttp first := by
    rw [IsHttp, scheme₁, host₁]
    exact ⟨toNode.1, http.2⟩
  obtain ⟨second, hostSet, scheme₂, host₂, path₂⟩ := laws.setHost_http first node http₁ toNode
  have http₂ : library.IsHttp second := by
    rw [IsHttp, scheme₂, host₂]
    exact ⟨http₁.1, toNode.2⟩
  obtain ⟨routed, portSet, scheme₃, host₃, path₃⟩ :=
    laws.setPort_http second (library.port node) http₂
  have port₃ := laws.port_setPort second routed node http₂ toNode (scheme₂.trans scheme₁) portSet
  have accepted := laws.accepts_http routed (http₂.congr scheme₃ host₃)
  refine ⟨routed, ?_, scheme₃.trans (scheme₂.trans scheme₁), host₃.trans host₂, port₃,
    path₃.trans (path₂.trans path₁)⟩
  simp [modifyBeforeSigning, parsed, schemeSet, hostSet, portSet, accepted, Except.mapError, bind,
    Except.bind]

/-- Every node that discovery can add has an HTTP URL. -/
theorem isHttp_of_hostToUri {inputs : DiscoveryInputs Url}
    (laws : inputs.library.HttpLaws acceptsUri pathAndQuery)
    (scheme : isHttpScheme inputs.alternatorScheme = true) {addr : Text} {node : Url}
    (built : inputs.hostToUri addr = .ok node) : inputs.library.IsHttp node := by
  rw [DiscoveryInputs.hostToUri, buildNodeUrl] at built
  split at built
  · cases built
  · obtain ⟨url, parsed, ported⟩ := LiveNodes.bind_eq_ok built
    have http := laws.parse_http _ _ _ scheme parsed
    obtain ⟨url', portSet, sameScheme, sameHost, -⟩ := laws.setPort_http url inputs.port http
    simp only [portSet] at ported
    cases ported
    exact http.congr sameScheme sameHost

end UrlLibrary

namespace PlainUrl

theorem lower_of_isHttpScheme {scheme : Text} (http : isHttpScheme scheme = true) :
    scheme.map Char.toLower = httpScheme ∨ scheme.map Char.toLower = httpsScheme := by
  simp only [isHttpScheme, eqIgnoreAsciiCase, Bool.or_eq_true, beq_iff_eq] at http
  have lower : httpScheme.map Char.toLower = httpScheme := by decide
  have lower' : httpsScheme.map Char.toLower = httpsScheme := by decide
  rwa [lower, lower'] at http

theorem colon_not_mem_of_isHttpScheme {scheme : Text} (http : isHttpScheme scheme = true) :
    ':' ∉ scheme := by
  intro member
  have lowered : ':' ∈ scheme.map Char.toLower :=
    List.mem_map.mpr ⟨':', member, by decide⟩
  obtain same | same := lower_of_isHttpScheme http
  · rw [same] at lowered
    exact absurd lowered (by decide)
  · rw [same] at lowered
    exact absurd lowered (by decide)

/-- The plain URLs keep what the library promises. -/
theorem httpLaws : library.HttpLaws (fun _ => true) pathAndQuery where
  parse_http := by
    intro scheme authority url http parsed
    have found : Text.splitOnce ':' (scheme ++ "://".toList ++ authority) =
        some (scheme, '/' :: '/' :: authority) := by
      rw [List.append_assoc]
      exact Text.splitOnce_append _ (colon_not_mem_of_isHttpScheme http)
    simp only [library, parse, found] at parsed
    split at parsed
    · cases parsed
    · cases parsed
      exact ⟨lower_of_isHttpScheme http, rfl⟩
  setScheme_http _ _ _ _ := ⟨_, rfl, rfl, rfl, rfl⟩
  setHost_http _ node _ _ := ⟨_, rfl, rfl, rfl, rfl⟩
  setPort_http _ _ _ := ⟨_, rfl, rfl, rfl, rfl⟩
  port_setPort := by
    rintro _ _ _ _ _ _ ⟨⟩
    rfl
  accepts_http _ _ := rfl

end PlainUrl

end AlternatorDriver
