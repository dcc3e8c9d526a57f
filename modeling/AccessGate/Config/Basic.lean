import AccessGate.Net.Address

/-!
# Configuration

What an operator decides: the gateway's own settings and one section for every client, with the
directory or the remote server that checks the first factor and the rules for attributes of replies.
Times are in seconds. The values here are as written; `Config.Check` says which make sense.
-/

namespace AccessGate

/-- Where the first factor of a client's users is checked. -/
inductive Source where
  | activeDirectory
  | adLds
  | remoteServer
  | unchecked
  deriving DecidableEq, Repr, Inhabited

/-- How a client encodes the passwords it sends. -/
inductive PapEncoding where
  | utf8
  | latin1
  deriving DecidableEq, Repr, Inhabited

/-- When a rule for a reply attribute applies. -/
inductive ReplyCondition where
  | always
  | userGroup
  | userName
  | fromDirectory
  deriving DecidableEq, Repr, Inhabited

/-- A directory and who may pass with or without a second factor. -/
structure LdapSettings where
  url : String
  baseDn : String
  domain : Option String
  bindDn : Option String
  bindPassword : Option String
  searchFilter : String
  requiredGroups : List String
  mfaGroups : List String
  mfaBypassGroups : List String
  phoneAttributes : List String
  loadProfile : Bool
  timeout : UInt64
  deriving DecidableEq, Repr

/-- A remote server that checks the first factor. -/
structure RemoteSettings where
  address : Endpoint
  sharedSecret : String
  nasIdentifier : Option String
  deriving DecidableEq, Repr

/-- A conditional attribute of replies that accept. -/
structure ReplyRule where
  name : String
  value : String
  condition : ReplyCondition
  argument : Option String
  sufficient : Bool
  deriving DecidableEq, Repr

/-- A device that asks the gateway. -/
structure Client where
  name : String
  address : Option String
  nasIdentifier : Option String
  sharedSecret : String
  source : Source
  apiKey : String
  apiSecret : String
  bypassWhenUnreachable : Bool
  papEncoding : PapEncoding
  ldap : Option LdapSettings
  remote : Option RemoteSettings
  signUpGroups : Option String
  replyRules : List ReplyRule
  deriving DecidableEq, Repr

/-- The settings of a gateway. -/
structure Config where
  listenAddress : String
  logLevel : Option String
  statusGreeting : String
  apiUrl : String
  apiTimeout : UInt64
  apiProxy : Option String
  sessionLifetime : UInt64
  rejectDelay : String
  retransmissionTtl : UInt64
  challengeTtl : UInt64
  proxyTimeout : UInt64
  dictionaryPath : Option String
  clients : List Client
  deriving DecidableEq, Repr

namespace LdapSettings

/-- The search filter where none is given. -/
def defaultSearchFilter : String :=
  "(&(objectClass=user)(|(sAMAccountName=\x7busername\x7d)(userPrincipalName=\x7busername\x7d)))"

/-- The attributes of telephone numbers where none are given. -/
def defaultPhoneAttributes : List String := ["mobile", "telephoneNumber"]

/-- The time to connect where none is given. -/
def defaultTimeout : UInt64 := 10

end LdapSettings

namespace Config

/-- The verification service may hold a request while it waits for the user, so no shorter time
makes sense. -/
def minApiTimeout : UInt64 := 65

/-- Settings with every default. -/
def standard : Config where
  listenAddress := "0.0.0.0:1812"
  logLevel := none
  statusGreeting := "MFA RADIUS Gateway"
  apiUrl := "https://api.example.com"
  apiTimeout := minApiTimeout
  apiProxy := none
  sessionLifetime := 0
  rejectDelay := "0"
  retransmissionTtl := 60
  challengeTtl := 300
  proxyTimeout := 5
  dictionaryPath := none
  clients := []

/-- A client whose users are checked by a directory. -/
def exampleDirectoryClient : Client where
  name := "VPN Gateway"
  address := some "10.0.0.1"
  nasIdentifier := none
  sharedSecret := "client_secret_1"
  source := .activeDirectory
  apiKey := "api_key"
  apiSecret := "api_secret"
  bypassWhenUnreachable := true
  papEncoding := .utf8
  ldap := some {
    url := "ldap://dc1.example.com:389"
    baseDn := "dc=example,dc=com"
    domain := some "example.com"
    bindDn := none
    bindPassword := none
    searchFilter := LdapSettings.defaultSearchFilter
    requiredGroups := ["VPN Users"]
    mfaGroups := []
    mfaBypassGroups := []
    phoneAttributes := LdapSettings.defaultPhoneAttributes
    loadProfile := true
    timeout := LdapSettings.defaultTimeout }
  remote := none
  signUpGroups := none
  replyRules := [⟨"Class", "admins", .userGroup, some "VPN Admins", false⟩]

/-- A client whose users are checked by a remote server. -/
def exampleRemoteClient : Client where
  name := "Wireless"
  address := none
  nasIdentifier := some "wlc-01"
  sharedSecret := "client_secret_2"
  source := .remoteServer
  apiKey := "api_key"
  apiSecret := "api_secret"
  bypassWhenUnreachable := false
  papEncoding := .utf8
  ldap := none
  remote := some {
    address := .v4 (.ofOctets [10, 0, 0, 20]) 1812
    sharedSecret := "nps_secret"
    nasIdentifier := none }
  signUpGroups := none
  replyRules := []

/-- Settings to start from. -/
def sample : Config :=
  { standard with
    logLevel := some "info"
    rejectDelay := "2-5"
    clients := [exampleDirectoryClient, exampleRemoteClient] }

/-- The time the verification service gets, never below the minimum. -/
def effectiveApiTimeout (c : Config) : UInt64 := max c.apiTimeout minApiTimeout

end Config

end AccessGate
