import AccessGate.Config.Basic
import AccessGate.Json.Parser
import AccessGate.Json.Printer
import AccessGate.Json.Record
import AccessGate.Net.Printed
import AccessGate.Net.Reader

/-!
# Configuration files

A configuration is a JSON record (`Config.ofJson?`) and is written back with every field in order
(`Config.toJson`). For every section the spellings of its fields stand in one list, which reader and
writer share; the session lifetime has a second spelling for reading.
-/

namespace AccessGate

/-! ## 1. Choices -/

namespace Source

/-- The name in a file. -/
def name : Source → String
  | activeDirectory => "ActiveDirectory"
  | adLds => "AdLds"
  | remoteServer => "Radius"
  | unchecked => "None"

/-- The source of a name. -/
def ofName? (s : String) : Option Source :=
  [activeDirectory, adLds, remoteServer, unchecked].find? fun x => x.name == s

end Source

namespace PapEncoding

/-- The name in a file. -/
def name : PapEncoding → String
  | utf8 => "utf8"
  | latin1 => "latin1"

/-- The encoding of a name. -/
def ofName? (s : String) : Option PapEncoding := [utf8, latin1].find? fun x => x.name == s

end PapEncoding

namespace ReplyCondition

/-- The name in a file. -/
def name : ReplyCondition → String
  | always => "always"
  | userGroup => "user_group"
  | userName => "user_name"
  | fromDirectory => "from_ldap"

/-- The condition of a name. -/
def ofName? (s : String) : Option ReplyCondition :=
  [always, userGroup, userName, fromDirectory].find? fun x => x.name == s

end ReplyCondition

/-! ## 2. Sections of a client -/

namespace LdapSettings

/-- The names of the fields in order. -/
def fieldNames : List String :=
  ["url", "base_dn", "domain", "bind_dn", "bind_password", "search_filter", "required_groups",
    "mfa_groups", "mfa_bypass_groups", "phone_attributes", "load_profile", "timeout"]

/-- The section that a value writes. -/
def ofJson? : Json → Option LdapSettings := Json.record? (Json.spelled fieldNames) do
  return {
    url := ← Json.required Json.text?
    baseDn := ← Json.required Json.text?
    domain := ← Json.textOrNull
    bindDn := ← Json.textOrNull
    bindPassword := ← Json.textOrNull
    searchFilter := ← Json.defaulted defaultSearchFilter Json.text?
    requiredGroups := ← Json.texts
    mfaGroups := ← Json.texts
    mfaBypassGroups := ← Json.texts
    phoneAttributes := ← Json.defaulted defaultPhoneAttributes (Json.list? Json.text?)
    loadProfile := ← Json.defaulted true Json.bool?
    timeout := ← Json.defaulted defaultTimeout Json.word? }

/-- The section as a value. -/
def toJson (s : LdapSettings) : Json := Json.fieldsOf fieldNames [
  .ofString s.url, .ofString s.baseDn, .ofOption s.domain, .ofOption s.bindDn,
  .ofOption s.bindPassword, .ofString s.searchFilter, .ofStrings s.requiredGroups,
  .ofStrings s.mfaGroups, .ofStrings s.mfaBypassGroups, .ofStrings s.phoneAttributes,
  .bool s.loadProfile, .ofWord s.timeout]

end LdapSettings

namespace RemoteSettings

/-- The names of the fields in order. -/
def fieldNames : List String := ["address", "shared_secret", "nas_identifier"]

/-- The section that a value writes. -/
def ofJson? : Json → Option RemoteSettings := Json.record? (Json.spelled fieldNames) do
  return {
    address := ← Json.required fun j => (Json.text? j).bind Endpoint.parse?
    sharedSecret := ← Json.required Json.text?
    nasIdentifier := ← Json.textOrNull }

/-- The section as a value. -/
def toJson (s : RemoteSettings) : Json := Json.fieldsOf fieldNames [
  .ofString s.address.print, .ofString s.sharedSecret, .ofOption s.nasIdentifier]

end RemoteSettings

namespace ReplyRule

/-- The names of the fields in order. -/
def fieldNames : List String := ["name", "value", "when", "argument", "sufficient"]

/-- The rule that a value writes. -/
def ofJson? : Json → Option ReplyRule := Json.record? (Json.spelled fieldNames) do
  return {
    name := ← Json.required Json.text?
    value := ← Json.defaulted "" Json.text?
    condition := ← Json.defaulted .always (Json.choice? ReplyCondition.ofName?)
    argument := ← Json.textOrNull
    sufficient := ← Json.defaulted false Json.bool? }

/-- The rule as a value. -/
def toJson (r : ReplyRule) : Json := Json.fieldsOf fieldNames [
  .ofString r.name, .ofString r.value, .ofString r.condition.name, .ofOption r.argument,
  .bool r.sufficient]

end ReplyRule

/-! ## 3. Clients and the whole -/

namespace Client

/-- The names of the fields in order. -/
def fieldNames : List String :=
  ["name", "address", "nas_identifier", "shared_secret", "authentication_source", "api_key",
    "api_secret", "bypass_second_factor_when_api_unreachable", "pap_password_encoding", "ldap",
    "remote_radius", "sign_up_groups", "reply_attributes"]

/-- The client that a value writes. -/
def ofJson? : Json → Option Client := Json.record? (Json.spelled fieldNames) do
  return {
    name := ← Json.required Json.text?
    address := ← Json.textOrNull
    nasIdentifier := ← Json.textOrNull
    sharedSecret := ← Json.required Json.text?
    source := ← Json.defaulted .unchecked (Json.choice? Source.ofName?)
    apiKey := ← Json.required Json.text?
    apiSecret := ← Json.required Json.text?
    bypassWhenUnreachable := ← Json.defaulted true Json.bool?
    papEncoding := ← Json.defaulted .utf8 (Json.choice? PapEncoding.ofName?)
    ldap := ← Json.subrecord LdapSettings.ofJson?
    remote := ← Json.subrecord RemoteSettings.ofJson?
    signUpGroups := ← Json.textOrNull
    replyRules := ← Json.defaulted [] (Json.list? ReplyRule.ofJson?) }

/-- The client as a value. -/
def toJson (c : Client) : Json := Json.fieldsOf fieldNames [
  .ofString c.name, .ofOption c.address, .ofOption c.nasIdentifier, .ofString c.sharedSecret,
  .ofString c.source.name, .ofString c.apiKey, .ofString c.apiSecret,
  .bool c.bypassWhenUnreachable, .ofString c.papEncoding.name,
  (c.ldap.map LdapSettings.toJson).getD .null, (c.remote.map RemoteSettings.toJson).getD .null,
  .ofOption c.signUpGroups, .array (c.replyRules.map ReplyRule.toJson)]

end Client

namespace Config

/-- The names of the fields in order. -/
def fieldNames : List String :=
  ["listen_address", "log_level", "status_greeting", "api_url", "api_timeout_secs", "api_proxy",
    "authentication_cache_lifetime_secs", "invalid_credential_delay", "retransmission_ttl_secs",
    "challenge_ttl_secs", "proxy_timeout_secs", "dictionary_path", "clients"]

/-- The spellings of a field: its own, and the old one of the session lifetime. -/
def spellings (name : String) : List String :=
  if name = "authentication_cache_lifetime_secs" then [name, "bypass_second_factor_period"]
  else [name]

/-- The configuration that a value writes. -/
def ofJson? : Json → Option Config := Json.record? (fieldNames.map spellings) do
  let seconds (default : UInt64) : Json.Fields UInt64 := Json.defaulted default Json.word?
  return {
    listenAddress := ← Json.defaulted standard.listenAddress Json.text?
    logLevel := ← Json.textOrNull
    statusGreeting := ← Json.defaulted standard.statusGreeting Json.text?
    apiUrl := ← Json.required Json.text?
    apiTimeout := ← seconds standard.apiTimeout
    apiProxy := ← Json.textOrNull
    sessionLifetime := ← seconds standard.sessionLifetime
    rejectDelay := ← Json.defaulted standard.rejectDelay Json.text?
    retransmissionTtl := ← seconds standard.retransmissionTtl
    challengeTtl := ← seconds standard.challengeTtl
    proxyTimeout := ← seconds standard.proxyTimeout
    dictionaryPath := ← Json.textOrNull
    clients := ← Json.defaulted [] (Json.list? Client.ofJson?) }

/-- The configuration as a value. -/
def toJson (c : Config) : Json := Json.fieldsOf fieldNames [
  .ofString c.listenAddress, .ofOption c.logLevel, .ofString c.statusGreeting, .ofString c.apiUrl,
  .ofWord c.apiTimeout, .ofOption c.apiProxy, .ofWord c.sessionLifetime, .ofString c.rejectDelay,
  .ofWord c.retransmissionTtl, .ofWord c.challengeTtl, .ofWord c.proxyTimeout,
  .ofOption c.dictionaryPath, .array (c.clients.map Client.toJson)]

/-- The text of a configuration file. -/
def print (c : Config) : String := c.toJson.pretty

end Config

end AccessGate
