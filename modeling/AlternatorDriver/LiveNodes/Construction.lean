import AlternatorDriver.LiveNodes.Refresh

/-!
# The construction of live nodes

`LiveNodes::try_new` turns a configuration into the ordinary view and the inputs of its
discovery, or refuses it. The affinity view is derived from both. Every node of either
view is built from the configured scheme and port, and neither starts out empty.
-/

namespace AlternatorDriver

open Foundation

variable {Url : Type}

/-- The parts of the configuration that are read here. Durations are nanoseconds. -/
structure AlternatorConfig where
  activeInterval : Option Nat
  idleInterval : Option Nat
  routingScope : Option RoutingScope
  scheme : Option Text
  port : Option Nat
  seedHosts : Option (List Text)
  withoutDiscovery : Bool
  hasHttpClient : Bool

inductive LiveNodesBuildError where
  | missingRoutingTarget
  | invalidSeedHost (seedHost : Text) (source : ParseError)
  | invalidScheme (scheme : Text)
  | tlsConfiguration (message : Text)
  | httpClient (description : Text)

def defaultActiveRefreshInterval : Nat := 1 * 1000000000
def defaultIdleRefreshInterval : Nat := 60 * 1000000000

/-- The ordinary view with what its discovery manager is built from. -/
structure LiveNodes (Url : Type) where
  view : NodeView Url
  inputs : DiscoveryInputs Url
  activeInterval : Nat
  idleInterval : Nat
  nativeRootsUsable : Bool

def eqIgnoreAsciiCase (left right : Text) : Bool := left.map Char.toLower == right.map Char.toLower

def httpScheme : Text := "http".toList
def httpsScheme : Text := "https".toList

/-- The scheme is one of the two that discovery speaks, in any case. -/
def isHttpScheme (scheme : Text) : Bool :=
  eqIgnoreAsciiCase scheme httpScheme || eqIgnoreAsciiCase scheme httpsScheme

namespace LiveNodes

variable (library : UrlLibrary Url)

def buildSeed (scheme : Text) (port : Option Nat) (seedHost : Text) :
    Except LiveNodesBuildError Url :=
  (library.buildSeedUrl scheme seedHost port).mapError (.invalidSeedHost seedHost)

variable [LinearOrder Url]

/-- `buildDiscoveryHttpClient` builds the client for a scheme and returns whether the
native roots are usable. -/
def tryNew (buildDiscoveryHttpClient : Text → Except LiveNodesBuildError Bool)
    (config : AlternatorConfig) : Except LiveNodesBuildError (Option (LiveNodes Url)) := do
  let routingScope := config.routingScope.getD .fromCluster
  let alternatorScheme := config.scheme.getD httpScheme
  match config.seedHosts with
  | none | some [] => .error .missingRoutingTarget
  | some (firstSeed :: moreSeeds) =>
      if config.withoutDiscovery then
        -- A custom HTTP client may speak a scheme that the driver does not know.
        if !isValidUriScheme alternatorScheme ||
            (!config.hasHttpClient && !isHttpScheme alternatorScheme) then
          .error (.invalidScheme alternatorScheme)
        else do
          let _ ← buildSeed library alternatorScheme config.port firstSeed
          .ok none
      else if !isHttpScheme alternatorScheme then .error (.invalidScheme alternatorScheme)
      else do
        let first ← buildSeed library alternatorScheme config.port firstSeed
        let more ← moreSeeds.mapM (buildSeed library alternatorScheme config.port)
        let seedUrls := (first :: more).insertionSort (· ≤ ·)
        let nativeRootsUsable ←
          buildDiscoveryHttpClient (library.scheme (seedUrls.headD first))
        .ok (some {
          view := .new routingScope seedUrls
          inputs := ⟨library, seedUrls, alternatorScheme, config.port⟩
          activeInterval := config.activeInterval.getD defaultActiveRefreshInterval
          idleInterval := config.idleInterval.getD defaultIdleRefreshInterval
          nativeRootsUsable := nativeRootsUsable })

/-- The view without racks, if the ordinary view is restricted to one. Otherwise the
ordinary view serves affinity as well. -/
def affinityView (live : LiveNodes Url) : Option (NodeView Url) :=
  if live.view.routingScope.hasRackRestriction then
    some (.new live.view.routingScope.withoutRack live.inputs.seedUrls)
  else none

end LiveNodes

namespace DiscoveryInputs

/-- Every node is built from an address with the configured scheme and port. -/
def Known (inputs : DiscoveryInputs Url) (nodes : List Url) : Prop :=
  ∀ node ∈ nodes, ∃ addr, inputs.hostToUri addr = .ok node

/-- There is at least one node, and all are known. -/
def Populated (inputs : DiscoveryInputs Url) (nodes : List Url) : Prop :=
  nodes ≠ [] ∧ inputs.Known nodes

/-- The inputs of a configuration that discovery accepts. -/
structure Accepted (inputs : DiscoveryInputs Url) : Prop where
  scheme : isHttpScheme inputs.alternatorScheme = true
  seedUrls : inputs.Populated inputs.seedUrls

end DiscoveryInputs

namespace LiveNodes

variable {library : UrlLibrary Url}

/-- A bind that succeeds ran both of its parts. -/
theorem bind_eq_ok {α β ε : Type} {x : Except ε α} {f : α → Except ε β} {b : β}
    (done : x >>= f = .ok b) : ∃ a, x = .ok a ∧ f a = .ok b := by
  cases x with
  | error e => cases done
  | ok a => exact ⟨a, rfl, done⟩

theorem mem_of_mapM {α β ε : Type} {f : α → Except ε β} {l : List α} {r : List β}
    (done : l.mapM f = .ok r) {b : β} (member : b ∈ r) : ∃ a ∈ l, f a = .ok b := by
  induction l generalizing r with
  | nil =>
      cases done
      cases member
  | cons a l ih =>
      rw [List.mapM_cons] at done
      obtain ⟨head, first, done⟩ := bind_eq_ok done
      obtain ⟨tail, rest, done⟩ := bind_eq_ok done
      cases done
      obtain rfl | later := List.mem_cons.mp member
      · exact ⟨a, List.mem_cons_self, first⟩
      · obtain ⟨a', listed, built⟩ := ih rest later
        exact ⟨a', List.mem_cons_of_mem _ listed, built⟩

/-- A seed is a node at its address without brackets. -/
theorem buildNodeUrl_of_buildSeed {scheme seedHost : Text} {port : Option Nat} {node : Url}
    (built : buildSeed library scheme port seedHost = .ok node) :
    library.buildNodeUrl scheme (UrlLibrary.unbracketed seedHost) port = .ok node := by
  have parsed : library.buildSeedUrl scheme seedHost port = .ok node := by
    rw [buildSeed] at built
    cases found : library.buildSeedUrl scheme seedHost port with
    | error e =>
        rw [found] at built
        cases built
    | ok url =>
        rw [found] at built
        cases built
        rfl
  rw [UrlLibrary.buildSeedUrl] at parsed
  split at parsed
  · obtain ⟨_, _, rest⟩ := bind_eq_ok parsed
    exact rest
  · exact parsed

variable [LinearOrder Url] {buildDiscoveryHttpClient : Text → Except LiveNodesBuildError Bool}
variable {config : AlternatorConfig} {live : LiveNodes Url}

/-- What is accepted with discovery: a view of the sorted seeds. -/
theorem tryNew_accepts
    (accepted : tryNew library buildDiscoveryHttpClient config = .ok (some live)) :
    live.inputs.Accepted ∧ live.inputs.library = library ∧
      live.view = .new (config.routingScope.getD .fromCluster) live.inputs.seedUrls := by
  rw [tryNew] at accepted
  split at accepted
  · cases accepted
  · cases accepted
  · next firstSeed moreSeeds seeds =>
    by_cases direct : config.withoutDiscovery = true
    · rw [if_pos direct] at accepted
      split at accepted
      · cases accepted
      · obtain ⟨_, _, none⟩ := bind_eq_ok accepted
        cases none
    · rw [if_neg direct] at accepted
      split at accepted
      · cases accepted
      · next scheme =>
        obtain ⟨first, builtFirst, accepted⟩ := bind_eq_ok accepted
        obtain ⟨more, builtMore, accepted⟩ := bind_eq_ok accepted
        obtain ⟨usable, _, accepted⟩ := bind_eq_ok accepted
        cases accepted
        refine ⟨⟨by simpa using scheme, ?_, ?_⟩, rfl, rfl⟩
        · rw [← List.length_pos_iff, List.length_insertionSort]
          exact Nat.succ_pos _
        · intro node member
          obtain rfl | later := List.mem_cons.mp (List.mem_insertionSort (· ≤ ·) |>.mp member)
          · exact ⟨_, buildNodeUrl_of_buildSeed builtFirst⟩
          · obtain ⟨seedHost, _, built⟩ := mem_of_mapM builtMore later
            exact ⟨_, buildNodeUrl_of_buildSeed built⟩

end LiveNodes

end AlternatorDriver
