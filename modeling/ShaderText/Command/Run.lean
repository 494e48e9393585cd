/-
Running the program on the contents of files. An outcome holds all that can be seen of a run: the
exit code, what is printed, and the file that is written back. The settings are loaded before the
file is read, so of two faults that of the settings is reported.
-/
import ShaderText.Command.Arguments
import ShaderText.Language
import ShaderText.Reindent
import ShaderText.Settings.Mode
import ShaderText.Text.Path

namespace ShaderText.Command

/-! ## Files -/

/-- What is found at a path. -/
inductive FileContent
  /-- No file. -/
  | absent
  /-- A file that is no UTF-8 text. -/
  | binary
  | text (content : String)
  deriving DecidableEq, Repr, Inhabited

/-- What is found at each path. -/
abbrev Files := String → FileContent

/-- The parts of a path up to the last one that names something. -/
def namedParts (path : String) : List (List Char) :=
  ((splitAtChar '/' path.toList).reverse.dropWhile fun part => part == [] || part == ['.']).reverse

/-- The paths at which a settings file is looked for: as given, and with an ending behind its
name. -/
def configPaths (path : String) : List String :=
  if (fileName? path).isSome then
    [path, "/".intercalate ((namedParts path).map String.ofList) ++ ".toml"]
  else [path]

/-- The layer of settings that a path leads to. -/
def configLayer (files : Files) (path : String) : Settings.Layer :=
  match ((configPaths path).map files).find? (· != .absent) with
  | some (.text content) => .file content
  | _ => .missingFile

/-- The path of the file that an action reads. -/
def Action.path? : Action → Option String
  | tokens path _ | indent path _ => some path
  | info => none

/-- The paths that a run may look at. -/
def Invocation.paths (i : Invocation) : List String :=
  (i.config.map configPaths).getD [] ++ i.action.path?.toList

/-! ## Outcomes -/

/-- What can be seen of a run. -/
structure Outcome where
  code : Nat
  stdout : String
  stderr : String
  /-- A path and the text written there. -/
  written : Option (String × String)
  deriving DecidableEq, Repr, Inhabited

namespace Outcome

def printed (stdout : String) : Outcome := ⟨0, stdout, "", none⟩

def failed (code : Nat) (stderr : String) : Outcome := ⟨code, "", stderr ++ "\n", none⟩

end Outcome

/-- Why a run fails. -/
inductive Failure
  | settings (error : Settings.LoadError)
  | mode (error : Settings.ModeError)
  | reading (path : String)
  deriving DecidableEq, Repr, Inhabited

def Failure.message : Failure → String
  | settings _ => "Configuration error"
  | mode e => "Configuration error: " ++ e.message
  | reading path => "Error reading " ++ path

/-! ## Actions -/

/-- The description of a language. -/
def describeLanguage (l : Language) : List String :=
  [s!"{l.name} ({l.id})", "  modes: " ++ ", ".intercalate l.modes,
    "  extensions: " ++ ", ".intercalate l.extensions] ++
  (l.lineComment.map fun opener => "  line comment: " ++ opener).toList ++
  (l.blockComment.map fun (opener, closer) =>
    "  block comment: " ++ opener ++ " " ++ closer).toList

/-- The description of the settings of a mode. -/
def describeMode (m : Mode) : List String :=
  [s!"indent unit: {m.indentUnit}", s!"tab size: {m.tabSize}",
    "multi-line strings: " ++ (if m.multiLineStrings then "true" else "false"),
    "electric chars: " ++ String.ofList Mode.electricChars,
    "hook triggers: " ++ String.ofList m.hooks.triggers]

/-- The description of all languages and of the settings, line by line. -/
def describe (m : Mode) : String :=
  let lines := Registry.shader.values.flatMap describeLanguage ++ [""] ++ describeMode m
  String.join (lines.map (· ++ "\n"))

/-- The text of the file at a path. -/
def sourceAt (files : Files) (path : String) : Except Failure (List Char) :=
  match files path with
  | .text content => .ok content.toList
  | .absent | .binary => .error (.reading path)

/-- Carries out an action in a mode, with the format that counts where none is asked for. -/
def Action.perform (files : Files) (m : Mode) (format : OutputFormat) :
    Action → Except Failure Outcome
  | tokens path asked => do
    let source ← sourceAt files path
    return .printed (listRows (asked.getD format) (m.lexText source).1)
  | indent path write => do
    let source ← sourceAt files path
    let text := m.reindent source
    if !write then return .printed (String.ofList text)
    else if text = source then return .printed ""
    else return { Outcome.printed "" with written := some (path, String.ofList text) }
  | info => return .printed (describe m)

/-- Loads the settings and carries out the action. -/
def Invocation.perform (files : Files) (i : Invocation) : Except Failure Outcome := do
  let layers := (i.config.map (configLayer files)).toList
  let settings ← (Settings.load layers).mapError .settings
  let mode ← settings.toMode.mapError .mode
  i.action.perform files mode settings.format

/-- The outcome of an invocation. -/
def Invocation.run (files : Files) (i : Invocation) : Outcome :=
  match i.perform files with
  | .ok outcome => outcome
  | .error e => .failed 1 e.message

/-! ## The program -/

/-- The name and the version of the program. -/
def versionLine : String := "glsl 0.1.0\n"

/-- How the program is called. -/
def helpText : String :=
  "Usage: glsl [--config FILE] COMMAND

Commands:
  tokens PATH [--format simple|json]  list the tokens of a file
  indent PATH [--write]               indent a file anew
  info                                describe the language and the settings
"

/-- The outcome of a request. -/
def Request.outcome (files : Files) : Request → Outcome
  | run invocation => invocation.run files
  | version => .printed versionLine
  | help => .printed helpText

/-- The outcome of arguments that are refused. -/
def UsageError.outcome (e : UsageError) : Outcome := .failed 2 e.message

/-- The outcome of calling the program. -/
def outcome (files : Files) (args : List String) : Outcome :=
  match readArguments args with
  | .ok request => request.outcome files
  | .error e => e.outcome

end ShaderText.Command
