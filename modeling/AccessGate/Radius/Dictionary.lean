import AccessGate.Radius.Attributes
import AccessGate.Table

/-!
# Dictionaries

A dictionary keeps its definitions in three tables: by code, by a vendor's code, and by name without
regard to ASCII case. A definition is written to two of them, to that of its code or of its vendor's
and to that of its name, and takes the place of an earlier one in each on its own.

That each table holds definitions under their own keys, and that the name of each is defined, is part
of the type.

`load` adds the definitions of a text line by line and stops at the first line that is none; what
the lines before it define stays.
-/

namespace AccessGate.Radius

/-- The attribute codes with a meaning of their own on the wire. -/
abbrev Attribute := UInt8

namespace Attribute

/-- The hidden password. -/
def userPassword : Attribute := 2

/-- A vendor's attributes. -/
def vendorSpecific : Attribute := 26

/-- The name of the device. -/
def nasIdentifier : Attribute := 32

/-- The keyed digest of the packet. -/
def messageAuthenticator : Attribute := 80

end Attribute

/-- A vendor's attribute: the vendor and the code it gives. -/
structure VendorKey where
  vendor : UInt32
  code : UInt8
  deriving DecidableEq, Repr

/-- The definition of an attribute. A vendor's attribute travels inside code 26. -/
structure Entry where
  code : UInt8
  name : Name
  kind : Kind
  vendor : Option VendorKey
  deriving DecidableEq, Repr

/-! ## 1. Definitions and look-ups -/

/-- Definitions under their keys: the codes outside the vendors, the codes of vendors, and the names
in lower case. -/
structure Tables where
  codes : Table UInt8 Entry
  vendors : Table VendorKey Entry
  names : Table Name Entry

namespace Tables

/-- No definitions. -/
def empty : Tables := ⟨.empty, .empty, .empty⟩

/-- One more definition, under its code or its vendor's, and under its name. -/
def insert (t : Tables) (e : Entry) : Tables :=
  let t := match e.vendor with
    | some key => { t with vendors := t.vendors.insert key e }
    | none => { t with codes := t.codes.insert e.code e }
  { t with names := t.names.insert e.name.toLower e }

/-- Each definition stands under keys of its own, and its name is defined. -/
structure Sound (t : Tables) : Prop where
  coded : ∀ code e, t.codes.get? code = some e → e.vendor = none ∧ e.code = code
  vended : ∀ key e, t.vendors.get? key = some e → e.vendor = some key
  named : ∀ name e, t.names.get? name = some e → e.name.toLower = name
  listed : ∀ e ∈ t.codes.values ++ t.vendors.values, e.name.toLower ∈ t.names.keys

variable {t : Tables} {e : Entry}

theorem codes_insert (t : Tables) (e : Entry) (code : UInt8) : (t.insert e).codes.get? code =
    if e.vendor = none ∧ e.code = code then some e else t.codes.get? code := by
  unfold insert
  cases hvendor : e.vendor with
  | none => simp [Table.get?_insert]
  | some key => simp

theorem vendors_insert (t : Tables) (e : Entry) (key : VendorKey) :
    (t.insert e).vendors.get? key =
      if e.vendor = some key then some e else t.vendors.get? key := by
  unfold insert
  cases hvendor : e.vendor with
  | none => simp
  | some key' => simp [Table.get?_insert]

theorem names_insert (t : Tables) (e : Entry) :
    (t.insert e).names = t.names.insert e.name.toLower e := by
  unfold insert
  cases e.vendor <;> rfl

theorem sound_empty : empty.Sound := ⟨nofun, nofun, nofun, nofun⟩

/-- The new definition stands under its own keys, and no name goes. -/
theorem Sound.insert (h : t.Sound) (e : Entry) : (t.insert e).Sound where
  coded code e' he' := by
    rw [codes_insert] at he'
    split at he'
    · rename_i hown
      rwa [← Option.some.inj he']
    · exact h.coded code e' he'
  vended key e' he' := by
    rw [vendors_insert] at he'
    split at he'
    · rename_i hown
      rwa [← Option.some.inj he']
    · exact h.vended key e' he'
  named name e' he' := by
    rw [names_insert, Table.get?_insert] at he'
    split at he'
    · rename_i hown
      rwa [← Option.some.inj he']
    · exact h.named name e' he'
  listed e' he' := by
    rw [names_insert, Table.mem_keys_insert]
    have hcases : e' = e ∨ e' ∈ t.codes.values ++ t.vendors.values := by
      rw [List.mem_append, Table.mem_values_iff, Table.mem_values_iff] at he' ⊢
      rcases he' with ⟨code, he'⟩ | ⟨key, he'⟩
      · rw [codes_insert] at he'
        split at he'
        · exact Or.inl (Option.some.inj he').symm
        · exact Or.inr (Or.inl ⟨code, he'⟩)
      · rw [vendors_insert] at he'
        split at he'
        · exact Or.inl (Option.some.inj he').symm
        · exact Or.inr (Or.inr ⟨key, he'⟩)
    rcases hcases with rfl | hbefore
    · exact Or.inl rfl
    · exact Or.inr (h.listed e' hbefore)

end Tables

/-- Definitions, each found under its keys. -/
structure Dictionary extends Tables where
  sound : toTables.Sound

namespace Dictionary

/-- No definitions. -/
def empty : Dictionary := ⟨.empty, Tables.sound_empty⟩

instance : Inhabited Dictionary := ⟨empty⟩

/-- One more definition. -/
def insert (d : Dictionary) (e : Entry) : Dictionary := ⟨d.toTables.insert e, d.sound.insert e⟩

/-- The definition of a code outside the vendors. -/
def byCode? (d : Dictionary) (code : UInt8) : Option Entry := d.codes.get? code

/-- The definition of a vendor's code. -/
def byVendor? (d : Dictionary) (key : VendorKey) : Option Entry := d.vendors.get? key

/-- The definition of a name. -/
def byName? (d : Dictionary) (name : Name) : Option Entry := d.names.get? name.toLower

/-- The number of names defined. -/
def size (d : Dictionary) : Nat := d.names.size

/-- Nothing is defined. -/
def isEmpty (d : Dictionary) : Bool := d.names.isEmpty

/-- The definitions that a look-up can find. -/
def entries (d : Dictionary) : List Entry := d.codes.values ++ d.vendors.values ++ d.names.values

/-! ## 2. Definitions as text -/

/-- What is wrong with a line. -/
inductive LineFault where
  | attributeCode (word : String) (cause : Numeral.Fault)
  | vendorNumber (word : String) (cause : Numeral.Fault)
  | vendorCode (word : String) (cause : Numeral.Fault)
  | unrecognised (line : String)
  deriving DecidableEq, Repr

/-- The fault in words. -/
def LineFault.message : LineFault → String
  | attributeCode word cause => "invalid attribute code '" ++ word ++ "': " ++ cause.message
  | vendorNumber word cause => "invalid vendor id '" ++ word ++ "': " ++ cause.message
  | vendorCode word cause => "invalid vendor code '" ++ word ++ "': " ++ cause.message
  | unrecognised line => "unrecognised definition '" ++ line ++ "'"

/-- The first line, counted from one, that is no definition. -/
structure SyntaxFault where
  line : Nat
  cause : LineFault
  deriving DecidableEq, Repr

/-- The fault in words, with its line. -/
def SyntaxFault.message (f : SyntaxFault) : String :=
  "Line " ++ toString f.line ++ ": " ++ f.cause.message

/-- A numeral, or the fault made of the word and its cause. -/
def number (bound : Nat) (fault : String → Numeral.Fault → LineFault) (word : String) :
    Except LineFault Nat :=
  match Numeral.parse bound word with
  | .ok n => .ok n
  | .error cause => .error (fault word cause)

/-- The definition on a line without comment and outer blanks. -/
def entryOfLine (line : String) : Except LineFault Entry :=
  match Text.words line with
  | [keyword, code, name, kind] =>
    if Text.sameIgnoringCase keyword "Attribute" then do
      let code ← number Numeral.max8 .attributeCode code
      return ⟨UInt8.ofNat code, name, Kind.ofName kind, none⟩
    else .error (.unrecognised line)
  | [keyword, vendor, code, name, kind] =>
    if Text.sameIgnoringCase keyword "VendorSpecificAttribute" then do
      let vendor ← number Numeral.max32 .vendorNumber vendor
      let code ← number Numeral.max8 .vendorCode code
      return ⟨Attribute.vendorSpecific, name, Kind.ofName kind,
        some ⟨UInt32.ofNat vendor, UInt8.ofNat code⟩⟩
    else .error (.unrecognised line)
  | _ => .error (.unrecognised line)

/-- A line without its comment and outer blanks. -/
def stripped (line : List Char) : List Char := Text.trimChars (line.takeWhile (· ≠ '#'))

/-- A dictionary after a text, and how many definitions the text made or where it went wrong. -/
structure Loaded where
  dictionary : Dictionary
  result : Except SyntaxFault Nat

/-- Adds the definitions of lines, the first of which has the given number. -/
def loadLines (d : Dictionary) (lineNumber count : Nat) : List (List Char) → Loaded
  | [] => ⟨d, .ok count⟩
  | raw :: rest =>
    let line := stripped raw
    if line.isEmpty then loadLines d (lineNumber + 1) count rest
    else
      match entryOfLine (String.ofList line) with
      | .ok e => loadLines (d.insert e) (lineNumber + 1) (count + 1) rest
      | .error cause => ⟨d, .error ⟨lineNumber, cause⟩⟩

/-- Adds the definitions of a text. -/
def load (d : Dictionary) (text : String) : Loaded := loadLines d 1 0 (Text.lines text)

end Dictionary

end AccessGate.Radius
