import AccessGate.Gateway

/-!
# The command line

`CommandLine.execute` is a dialogue with the files of the machine that ends with the program's exit
code and output.

* a flag validates the configuration and prints what it holds;
* without the flag a configuration that is missing is replaced by a sample to edit, and any other
  fault ends the program;
* arguments are taken one by one: the first that is wrong, or asks for help or the version, settles
  the matter.
-/

namespace AccessGate.CommandLine

/-! ## 1. Arguments -/

/-- What is asked of the program. -/
inductive Command where
  | help
  | version
  | run (path : String) (validate : Bool)
  deriving DecidableEq, Repr

/-- What is wrong with an argument. -/
inductive UsageFault where
  | unexpected (argument : String)
  | repeated (flag : String)
  | needsNoValue (flag : String)
  deriving DecidableEq, Repr

/-- The fault in words. -/
def UsageFault.message : UsageFault → String
  | unexpected argument => "error: unexpected argument '" ++ argument ++ "' found"
  | repeated flag => "error: the argument '" ++ flag ++ "' cannot be used multiple times"
  | needsNoValue flag => "error: unexpected value for '" ++ flag ++ "' found; no more were expected"

/-- What the arguments so far have said. -/
structure Progress where
  path : Option String
  validate : Bool
  deriving DecidableEq, Repr

/-- An argument goes on with the next, or settles the matter. -/
abbrev Step := Except (Except UsageFault Command) Progress

/-- The flag that only validates. -/
def setValidate (p : Progress) : Step :=
  if p.validate then .error (.error (.repeated "--validate")) else .ok { p with validate := true }

/-- An argument that is no flag. -/
def operand (p : Progress) (argument : String) : Step :=
  match p.path with
  | none => .ok { p with path := some argument }
  | some _ => .error (.error (.unexpected argument))

/-- The letters after one hyphen. -/
def letters (p : Progress) : List Char → Step
  | [] => .ok p
  | 'v' :: rest =>
    match setValidate p with
    | .ok p => letters p rest
    | .error e => .error e
  | 'h' :: _ => .error (.ok .help)
  | 'V' :: _ => .error (.ok .version)
  | c :: _ => .error (.error (.unexpected (String.ofList ['-', c])))

/-- The word after two hyphens. -/
def word (p : Progress) (text : List Char) : Step :=
  let name := text.takeWhile (· ≠ '=')
  let flag := "--" ++ String.ofList name
  let known := [("validate", setValidate p), ("help", .error (.ok .help)),
    ("version", .error (.ok .version))]
  match known.find? fun f => f.1.toList = name with
  | none => .error (.error (.unexpected flag))
  | some (_, step) =>
    if name.length = text.length then step else .error (.error (.needsNoValue flag))

/-- One argument. -/
def argument (p : Progress) (text : String) : Step :=
  match text.toList with
  | '-' :: '-' :: rest => word p rest
  | '-' :: c :: rest => letters p (c :: rest)
  | _ => operand p text

/-- The arguments one after the other; after `--` none is a flag. -/
def arguments (p : Progress) : List String → Step
  | [] => .ok p
  | "--" :: rest => rest.foldlM operand p
  | text :: rest =>
    match argument p text with
    | .ok p => arguments p rest
    | .error e => .error e

/-- The path of the configuration where none is given. -/
def defaultPath : String := "config.json"

/-- The command that the arguments give. -/
def parse (args : List String) : Except UsageFault Command :=
  match arguments ⟨none, false⟩ args with
  | .ok p => .ok (.run (p.path.getD defaultPath) p.validate)
  | .error settled => settled

/-! ## 2. Texts -/

/-- The name of the program. -/
def programName : String := "mfa-radius-gateway"

/-- How the program is called. -/
def usage : String := "Usage: " ++ programName ++ " [OPTIONS] [CONFIG]"

/-- The text of help. -/
def helpText : String := "\n".intercalate [
  "RADIUS gateway enforcing a second authentication factor through an HTTP verification API",
  "", usage, "",
  "Arguments:",
  "  [CONFIG]  Path to configuration file [default: " ++ defaultPath ++ "]", "",
  "Options:",
  "  -v, --validate  Validate configuration and exit (doesn't start server)",
  "  -h, --help      Print help",
  "  -V, --version   Print version", ""]

/-- What a client's line says. -/
def clientLine (c : Client) : String :=
  "    " ++ c.name ++ " (" ++ c.source.name ++ ") address=" ++ c.address.getD "-" ++
    " nas-identifier=" ++ c.nasIdentifier.getD "-" ++ "\n"

/-- What is printed of a valid configuration. -/
def summary (c : Config) : String :=
  "Configuration is valid\n" ++ "  Listen: " ++ c.listenAddress ++ "\n" ++
  "  Verification API: " ++ c.apiUrl ++ "\n" ++
  "  Clients: " ++ toString c.clients.length ++ "\n" ++ String.join (c.clients.map clientLine)

/-- Why there is no configuration, in words. -/
def configMessage : ConfigError → String
  | .unreadable => "IO error: the file cannot be read"
  | .malformed => "Parse error: the file is no configuration"
  | .invalid fault => fault.message

/-! ## 3. Runs -/

/-- What is asked of the files. -/
inductive FileQuestion where
  | read (path : String)
  | isThere (path : String)
  | create (path text : String)

/-- The answers of the files: contents if they can be read, and whether it holds or succeeds. -/
@[reducible] def FileQuestion.Answer : FileQuestion → Type
  | read _ => Option Bytes
  | isThere _ => Bool
  | create _ _ => Bool

/-- A dialogue with the files. -/
abbrev FileTalk (α : Type) := Dialogue FileQuestion FileQuestion.Answer α

/-- How the program ends. -/
structure Ending where
  exit : UInt8
  output : String
  errors : String
  deriving DecidableEq, Repr

/-- Ends without a word. -/
def silently (exit : UInt8) : Ending := ⟨exit, "", ""⟩

/-- Validates a configuration. -/
def validation : Except ConfigError Config → Ending
  | .ok c => ⟨0, summary c, ""⟩
  | .error e => ⟨1, "", "Configuration validation failed: " ++ configMessage e ++ "\n"⟩

/-- Writes the sample where there is no configuration. -/
def withoutConfig (path : String) : FileTalk Ending :=
  .ask (.isThere path) fun there =>
    if there then .done (silently 1)
    else .ask (.create path Config.sample.print) fun created =>
      .done (silently (if created then 0 else 1))

/-- Builds the gateway of a configuration. The program itself holds no socket, so it ends here. -/
def launch (c : Config) : FileTalk Ending :=
  let finish (file : Option Bytes) : FileTalk Ending :=
    match Gateway.build c file .plain 0 with
    | .ok _ => .done ⟨1, "", "Failed to start server\n"⟩
    | .error _ => .done ⟨1, "", "Failed to create server\n"⟩
  match c.dictionaryPath with
  | none => finish none
  | some path => .ask (.read path) finish

/-- The program. -/
def execute (args : List String) : FileTalk Ending :=
  match parse args with
  | .error fault => .done ⟨2, "", fault.message ++ "\n\n" ++ usage ++ "\n"⟩
  | .ok .help => .done ⟨0, helpText, ""⟩
  | .ok .version => .done ⟨0, programName ++ " " ++ Router.version ++ "\n", ""⟩
  | .ok (.run path validate) =>
    .ask (.read path) fun contents =>
      let config := Config.ofFile contents
      if validate then .done (validation config)
      else
        match config with
        | .ok c => launch c
        | .error _ => withoutConfig path

end AccessGate.CommandLine
