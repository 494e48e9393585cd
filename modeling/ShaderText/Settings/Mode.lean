/-
The mode that settings ask for. Every trigger must be one character and every name of a hook known,
also where a trigger is turned off; a word list takes the place of the one that the shading
language has.
-/
import ShaderText.Mode
import ShaderText.Settings.Basic
import ShaderText.Text.Quoted

namespace ShaderText.Settings

/-- Why settings make no mode. -/
inductive ModeError
  | longTrigger (trigger : String)
  | unknownHook (name trigger : String)
  deriving DecidableEq, Repr, Inhabited

def ModeError.message : ModeError → String
  | longTrigger trigger =>
    "hook trigger must be a single character, got " ++ quoteText trigger
  | unknownHook name trigger =>
    "unknown hook strategy " ++ quoteText name ++ " for " ++ quoteText trigger

/-- The name that turns a trigger off. -/
def hookOff : String := "none"

/-- Adds the hook of a trigger to a table. -/
def addHook (table : HookTable) (trigger name : String) : Except ModeError HookTable :=
  match trigger.toList with
  | [c] =>
    if name = hookOff then .ok table
    else match HookKind.ofName? name with
      | some kind => .ok (table.insert c kind.hook)
      | none => .error (.unknownHook name trigger)
  | _ => .error (.longTrigger trigger)

/-- The hooks that settings ask for. -/
def hookTable (s : Settings) : Except ModeError HookTable :=
  s.hooks.toList.foldlM (fun table (trigger, name) => addHook table trigger name) ∅

/-- A word table, written as a list of words or else the table of the shading language. -/
def wordTable (list : Option String) (other : WordTable) : WordTable :=
  match list with
  | some words => (WordSet.ofText words).contains
  | none => other

/-- The grammar that settings ask for. -/
def grammar (s : Settings) : Grammar where
  keywords := wordTable s.keywords Grammar.shader.keywords
  builtins := wordTable s.builtins Grammar.shader.builtins
  blockKeywords := wordTable s.blockKeywords Grammar.shader.blockKeywords
  atoms := wordTable s.atoms Grammar.shader.atoms

/-- The mode that settings ask for. -/
def toMode (s : Settings) : Except ModeError Mode :=
  s.hookTable.map fun hooks =>
    ⟨s.indentUnit, s.tabSize, s.multiLineStrings, s.grammar, hooks⟩

end ShaderText.Settings
