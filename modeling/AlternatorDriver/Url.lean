import AlternatorDriver.Foundation.Ipv6Text
import Mathlib.Data.Char
import Mathlib.Data.List.Lex
import Mathlib.Data.Prod.Lex

/-!
# Node URLs

The driver builds node URLs from a scheme, an address and a port, and reads and writes
their parts. Parsing and serialization are the URL library's; its functions are the
fields of `UrlLibrary`. Two URLs are equal when their serializations are.
-/

namespace AlternatorDriver

open Foundation

inductive ParseError where
  | relativeUrlWithoutBase
  | invalidPort
  | other (description : Text)
  deriving DecidableEq

/-- The functions of the URL library that the driver calls. The setters return `none`
where the library's return an error. -/
structure UrlLibrary (Url : Type) where
  parse : Text → Except ParseError Url
  parseHost : Text → Except ParseError Unit
  asStr : Url → Text
  scheme : Url → Text
  hostStr : Url → Option Text
  port : Url → Option Nat
  portOrKnownDefault : Url → Option Nat
  setScheme : Url → Text → Option Url
  setHost : Url → Option Text → Option Url
  setPort : Url → Option Nat → Option Url

/-- Whether a text is a syntactically valid bare URI scheme. -/
def isValidUriScheme (scheme : Text) : Bool :=
  match scheme with
  | [] => false
  | first :: rest =>
      first.isAlpha && rest.all fun c => c.isAlphanum || c == '+' || c == '-' || c == '.'

namespace UrlLibrary

variable {Url : Type} (library : UrlLibrary Url)

def buildNodeUrl (scheme addr : Text) (port : Option Nat) : Except ParseError Url :=
  if !isValidUriScheme scheme then .error .relativeUrlWithoutBase
  else do
    let authority := if Ipv6Text.isIpv6Addr addr then '[' :: addr ++ [']'] else addr
    let url ← library.parse (scheme ++ "://".toList ++ authority)
    match library.setPort url port with
    | some url => .ok url
    | none => .error .invalidPort

/-- The address without the brackets that may be around it. -/
def unbracketed : Text → Text
  | '[' :: addr => if addr.getLast? = some ']' then addr.dropLast else '[' :: addr
  | addr => addr

def buildSeedUrl (scheme addr : Text) (port : Option Nat) : Except ParseError Url := do
  if !Ipv6Text.isIpv6Addr (unbracketed addr) then library.parseHost addr
  library.buildNodeUrl scheme (unbracketed addr) port

def nodeIsInList (node : Url) (nodes : List Url) : Bool :=
  nodes.any fun known =>
    library.hostStr known == library.hostStr node &&
      library.portOrKnownDefault known == library.portOrKnownDefault node

end UrlLibrary

/-- A URL that consists of these parts, for a library that can be run. -/
structure PlainUrl where
  scheme : Text
  host : Text
  port : Option Nat
  pathAndQuery : Text
  deriving DecidableEq

namespace PlainUrl

instance : LinearOrder PlainUrl :=
  LinearOrder.lift'
    (fun url => toLex (url.scheme, toLex (url.host, toLex (url.port.elim 0 Nat.succ,
      url.pathAndQuery)))) <| by
    rintro ⟨scheme, host, port, path⟩ ⟨scheme', host', port', path'⟩ same
    simp only [EmbeddingLike.apply_eq_iff_eq, Prod.mk.injEq] at same
    obtain ⟨rfl, rfl, samePort, rfl⟩ := same
    cases port <;> cases port' <;> simp_all

/-- The node with this host, over HTTP. -/
def node (host : Text) : PlainUrl := ⟨"http".toList, host, none, ['/']⟩

/-- Parses `scheme://host` and `scheme://host/path`. -/
def parse (text : Text) : Except ParseError PlainUrl :=
  match Text.splitOnce ':' text with
  | some (scheme, '/' :: '/' :: rest) =>
      let host := rest.takeWhile (· != '/')
      let path := rest.drop host.length
      if host.isEmpty || host.contains ':' then .error (.other "invalid host".toList)
      else .ok ⟨scheme.map Char.toLower, host, none, if path.isEmpty then ['/'] else path⟩
  | _ => .error .relativeUrlWithoutBase

def asStr (url : PlainUrl) : Text :=
  url.scheme ++ "://".toList ++ url.host ++
    url.port.elim [] (fun port => ':' :: Nat.toDigits 10 port) ++ url.pathAndQuery

def portOrKnownDefault (url : PlainUrl) : Option Nat :=
  url.port.or (if url.scheme = "http".toList then some 80
    else if url.scheme = "https".toList then some 443 else none)

def library : UrlLibrary PlainUrl where
  parse := parse
  parseHost text := if text.isEmpty then .error (.other "empty host".toList) else .ok ()
  asStr := asStr
  scheme := scheme
  hostStr url := some url.host
  port := port
  portOrKnownDefault := portOrKnownDefault
  setScheme url scheme := some { url with scheme := scheme }
  setHost url host := host.map fun host => { url with host := host }
  setPort url port := some { url with port := port }

end PlainUrl

end AlternatorDriver
