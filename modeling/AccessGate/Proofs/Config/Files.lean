import AccessGate.Config.Check
import AccessGate.Proofs.Json.Records
import AccessGate.Proofs.Net.Reading
import AccessGate.Text.Utf8.Inverse

/-!
# Configuration files come back as they were saved

The fields of every section are written in the order of the reader's list, so what is to show of a
section is that each of its values is read as it is written. The sections come from the innermost to
the whole, and what is written of each is plain, so the text of the file gives it back:

* `Client.ofJson?_toJson`, `Config.ofJson?_toJson`: a section is read as it is written, whichever of
  its parts are missing;
* `Config.ofFile_print`: a saved configuration loads as it was if it makes sense, and else is refused
  with the fault that its check reports.
-/

namespace AccessGate

/-! ## 1. Sections of a client -/

theorem Source.ofName?_name (s : Source) : ofName? s.name = some s := by
  cases s <;> decide

theorem PapEncoding.ofName?_name (e : PapEncoding) : ofName? e.name = some e := by
  cases e <;> decide

theorem ReplyCondition.ofName?_name (c : ReplyCondition) : ofName? c.name = some c := by
  cases c <;> decide

theorem LdapSettings.ofJson?_toJson (s : LdapSettings) : ofJson? s.toJson = some s := by
  refine Json.record?_spelled (by decide) rfl ?_
  simp only [Json.textOrNull, Json.texts, List.map_cons, List.map_nil, Json.run_required,
    Json.run_defaulted, Json.text?_ofString, Json.nullable?_ofOption, Json.list?_ofStrings,
    Json.bool?_bool, Json.word?_ofWord, Option.bind_some]
  rfl

theorem LdapSettings.plain_toJson (s : LdapSettings) : s.toJson.Plain :=
  Json.plain_fieldsOf _ (by simp)

theorem RemoteSettings.ofJson?_toJson (s : RemoteSettings) : ofJson? s.toJson = some s := by
  refine Json.record?_spelled (by decide) rfl ?_
  simp only [Json.textOrNull, List.map_cons, List.map_nil, Json.run_required, Json.run_defaulted,
    Json.text?_ofString, Json.nullable?_ofOption, Endpoint.parse?_print, Option.bind_some]
  rfl

theorem RemoteSettings.plain_toJson (s : RemoteSettings) : s.toJson.Plain :=
  Json.plain_fieldsOf _ (by simp)

theorem ReplyRule.ofJson?_toJson (r : ReplyRule) : ofJson? r.toJson = some r := by
  refine Json.record?_spelled (by decide) rfl ?_
  simp only [Json.textOrNull, List.map_cons, List.map_nil, Json.run_required, Json.run_defaulted,
    Json.text?_ofString, Json.nullable?_ofOption, Json.choice?_ofString,
    ReplyCondition.ofName?_name, Json.bool?_bool, Option.bind_some]
  rfl

theorem ReplyRule.plain_toJson (r : ReplyRule) : r.toJson.Plain :=
  Json.plain_fieldsOf _ (by simp)

/-! ## 2. Clients and the whole -/

theorem Client.ofJson?_toJson (c : Client) : ofJson? c.toJson = some c := by
  have hldap := Json.nullable?_section LdapSettings.ofJson?_toJson (fun _ => nofun) c.ldap
  have hremote := Json.nullable?_section RemoteSettings.ofJson?_toJson (fun _ => nofun) c.remote
  have hrules := Json.list?_map ReplyRule.ofJson?_toJson c.replyRules
  refine Json.record?_spelled (by decide) rfl ?_
  simp only [Json.textOrNull, Json.subrecord, List.map_cons, List.map_nil, Json.run_required,
    Json.run_defaulted, Json.text?_ofString, Json.nullable?_ofOption, Json.choice?_ofString,
    Source.ofName?_name, PapEncoding.ofName?_name, Json.bool?_bool, hldap, hremote, hrules,
    Option.bind_some]
  rfl

theorem Client.plain_toJson (c : Client) : c.toJson.Plain := by
  have hldap := Json.plain_section LdapSettings.plain_toJson c.ldap
  have hremote := Json.plain_section RemoteSettings.plain_toJson c.remote
  have hrules := Json.plain_map ReplyRule.plain_toJson c.replyRules
  exact Json.plain_fieldsOf _ (by simp [hldap, hremote, hrules])

namespace Config

/-- The old spelling of the session lifetime is the name of no field. -/
theorem own_spellings : ∀ a ∈ fieldNames, ∀ b ∈ fieldNames, b ∈ spellings a ↔ b = a := by
  decide

/-- **A configuration is read as it is written.** -/
theorem ofJson?_toJson (c : Config) : ofJson? c.toJson = some c := by
  have hclients := Json.list?_map Client.ofJson?_toJson c.clients
  refine Json.record?_fieldsOf (by decide) rfl own_spellings ?_
  simp only [Json.textOrNull, List.map_cons, List.map_nil, Json.run_required, Json.run_defaulted,
    Json.text?_ofString, Json.nullable?_ofOption, Json.word?_ofWord, hclients, Option.bind_some]
  rfl

theorem plain_toJson (c : Config) : c.toJson.Plain := by
  have hclients := Json.plain_map Client.plain_toJson c.clients
  exact Json.plain_fieldsOf _ (by simp [hclients])

/-- **A saved configuration loads as it was saved** if it makes sense, and is refused with the fault
that its check reports if it does not. -/
theorem ofFile_print (c : Config) : ofFile (some (Utf8.encode c.print)) =
    match c.check with
    | .ok () => .ok c
    | .error fault => .error (.invalid fault) := by
  have hread : (Json.parse? c.print).bind ofJson? = some c := by
    unfold print
    rw [Json.parse?_pretty c.plain_toJson, Option.bind_some, ofJson?_toJson]
  unfold ofFile parse
  cases hcheck : c.check <;> simp only [Option.bind_some, Utf8.decode?_encode, hread, hcheck]

end Config

end AccessGate
