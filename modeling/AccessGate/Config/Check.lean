import AccessGate.Config.Format
import AccessGate.Radius.Reading
import AccessGate.Text.Lower

/-!
# Which configurations make sense

`Config.check` looks at the settings of the gateway and then at the clients one by one; the first
fault is reported. A configuration that passes can be put to use: its addresses, its delay and the
sections that each client's first factor needs are all there, and no two clients share a name.
-/

namespace AccessGate

/-! ## 1. Faults -/

/-- What makes no sense in a configuration. -/
inductive ConfigFault where
  | listenAddress (text : String)
  | emptyApiUrl
  | apiUrl (text : String)
  | delay (text : String)
  | delayOrder (text : String)
  | zeroProxyTimeout
  | emptyClientName
  | emptySecret (client : String)
  | unreachableClient (client : String)
  | clientAddress (client address : String)
  | missingDirectory (client : String)
  | missingServiceAccount (client : String)
  | missingRemote (client : String)
  | emptyRemoteSecret (client : String)
  | namelessRule (client : String)
  | missingArgument (client rule : String) (condition : ReplyCondition)
  | duplicateClient (client : String)
  deriving DecidableEq, Repr

/-- The name of a condition in messages. -/
def ReplyCondition.title : ReplyCondition → String
  | always => "Always"
  | userGroup => "UserGroup"
  | userName => "UserName"
  | fromDirectory => "FromLdap"

/-- The fault alone in words. -/
def ConfigFault.detail : ConfigFault → String
  | listenAddress text => "Invalid listen address: " ++ text
  | emptyApiUrl => "api_url cannot be empty"
  | apiUrl text => "api_url must be an http(s) URL: " ++ text
  | delay text => "Invalid credential delay: " ++ text
  | delayOrder text => "Invalid credential delay: " ++ text ++ " (minimum above maximum)"
  | zeroProxyTimeout => "proxy_timeout_secs cannot be 0"
  | emptyClientName => "Client has empty name"
  | emptySecret client => "Client " ++ client ++ " has empty shared secret"
  | unreachableClient client => "Client " ++ client ++ " needs an address or a nas_identifier"
  | clientAddress client address => "Invalid address for client " ++ client ++ ": " ++ address
  | missingDirectory client =>
    "Client " ++ client ++ " uses a directory first factor but has no ldap section"
  | missingServiceAccount client => "Client " ++ client ++ " uses AD-LDS but has no service account"
  | missingRemote client =>
    "Client " ++ client ++ " uses a RADIUS first factor but has no remote_radius section"
  | emptyRemoteSecret client => "Client " ++ client ++ " has empty remote_radius shared secret"
  | namelessRule client => "Client " ++ client ++ " has a reply attribute without a name"
  | missingArgument client rule condition =>
    "Client " ++ client ++ " reply attribute " ++ rule ++ " needs an argument for " ++
      condition.title
  | duplicateClient client => "Duplicate client name: " ++ client

/-- The fault in words. -/
def ConfigFault.message (f : ConfigFault) : String := "Invalid configuration: " ++ f.detail

/-- Why a file gives no configuration. -/
inductive ConfigError where
  | unreadable
  | malformed
  | invalid (fault : ConfigFault)
  deriving DecidableEq, Repr

/-! ## 2. Parts of a configuration -/

/-- The time a refusal is held back, in seconds: drawn between the bounds. -/
structure DelayRange where
  min : Nat
  max : Nat
  deriving DecidableEq, Repr, Inhabited

namespace DelayRange

/-- Refusals go out at once. -/
def isZero (r : DelayRange) : Bool := r.max == 0

/-- One bound, blanks around it allowed. -/
def bound? (cs : List Char) : Option Nat :=
  match Numeral.parseChars Numeral.max64 (Text.trimChars cs) with
  | .ok n => some n
  | .error _ => none

/-- One number, or two around the first hyphen. -/
def parse (text : String) : Except ConfigFault DelayRange :=
  let cs := text.toList
  let low := cs.takeWhile (· ≠ '-')
  let high := match cs.dropWhile (· ≠ '-') with
    | [] => cs
    | _ :: rest => rest
  match bound? low, bound? high with
  | some min, some max => if min ≤ max then .ok ⟨min, max⟩ else .error (.delayOrder text)
  | _, _ => .error (.delay text)

end DelayRange

namespace Client

/-- The network of a client, if it has an address. -/
def network (c : Client) : Except ConfigFault (Option Network) :=
  match c.address with
  | none => .ok none
  | some address =>
    match Network.parse? address with
    | some net => .ok (some net)
    | none => .error (.clientAddress c.name address)

/-- The secret shared with the client. -/
def secret (c : Client) : Radius.Secret := .ofString c.sharedSecret

/-- How the client's passwords are read. -/
def passwordEncoding (c : Client) : Radius.PasswordEncoding :=
  match c.papEncoding with
  | .utf8 => .utf8
  | .latin1 => .latin1

/-- The sections that the client's first factor needs are there. -/
def checkSource (c : Client) : Except ConfigFault Unit :=
  match c.source, c.ldap, c.remote with
  | .activeDirectory, none, _ => .error (.missingDirectory c.name)
  | .adLds, none, _ => .error (.missingDirectory c.name)
  | .adLds, some ldap, _ =>
    if ldap.bindDn.isNone || ldap.bindPassword.isNone then .error (.missingServiceAccount c.name)
    else .ok ()
  | .remoteServer, _, none => .error (.missingRemote c.name)
  | .remoteServer, _, some remote =>
    if remote.sharedSecret.isEmpty then .error (.emptyRemoteSecret c.name) else .ok ()
  | _, _, _ => .ok ()

/-- A rule has a name, and an argument where its condition needs one. -/
def checkRule (c : Client) (r : ReplyRule) : Except ConfigFault Unit :=
  if r.name.isEmpty then .error (.namelessRule c.name)
  else if r.condition ≠ .always ∧ r.argument = none then
    .error (.missingArgument c.name r.name r.condition)
  else .ok ()

/-- The client can be told apart, reached and served. -/
def check (c : Client) : Except ConfigFault Unit := do
  if c.name.isEmpty then throw .emptyClientName
  if c.sharedSecret.isEmpty then throw (.emptySecret c.name)
  if c.address.isNone && c.nasIdentifier.isNone then throw (.unreachableClient c.name)
  let _ ← c.network
  c.checkSource
  c.replyRules.forM c.checkRule

end Client

namespace Config

/-! ## 3. The whole -/

/-- The address that the gateway listens on. -/
def endpoint (c : Config) : Except ConfigFault Endpoint :=
  match Endpoint.parse? c.listenAddress with
  | some e => .ok e
  | none => .error (.listenAddress c.listenAddress)

/-- The time that refusals are held back. -/
def delay (c : Config) : Except ConfigFault DelayRange := DelayRange.parse c.rejectDelay

/-- Clients after those with the given lower-case names. -/
def checkClients (names : List String) : List Client → Except ConfigFault Unit
  | [] => .ok ()
  | c :: rest => do
    c.check
    let name := Text.lower c.name
    if names.contains name then throw (.duplicateClient c.name)
    checkClients (name :: names) rest

/-- The configuration makes sense. -/
def check (c : Config) : Except ConfigFault Unit := do
  let _ ← c.endpoint
  if c.apiUrl.isEmpty then throw .emptyApiUrl
  if !("http://".toList.isPrefixOf c.apiUrl.toList ||
      "https://".toList.isPrefixOf c.apiUrl.toList) then
    throw (.apiUrl c.apiUrl)
  let _ ← c.delay
  if c.proxyTimeout = 0 then throw .zeroProxyTimeout
  checkClients [] c.clients

/-- The configuration that a text writes. -/
def parse (text : String) : Except ConfigError Config :=
  match (Json.parse? text).bind ofJson? with
  | none => .error .malformed
  | some c =>
    match c.check with
    | .ok () => .ok c
    | .error fault => .error (.invalid fault)

/-- The configuration in a file of the given contents; `none` for a file that cannot be read. -/
def ofFile (contents : Option Bytes) : Except ConfigError Config :=
  match contents.bind Utf8.decode? with
  | none => .error .unreadable
  | some text => parse text

end Config

end AccessGate
