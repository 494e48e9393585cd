/-
What the arguments of the program ask for. Options may stand before the command and behind it, in
long or in short form, short ones several in one argument; the value of an option is attached to it
or is the next argument. Arguments are read from left to right, and the first that is at fault, or
asks for the version or for help, decides.
-/
import ShaderText.Listing

namespace ShaderText.Command

/-! ## Requests -/

/-- What is done with a text. -/
inductive Action
  /-- Lists the tokens of a file. -/
  | tokens (path : String) (format : Option OutputFormat)
  /-- Indents a file anew, and writes it back or prints it. -/
  | indent (path : String) (write : Bool)
  /-- Describes the language and the settings. -/
  | info
  deriving DecidableEq, Repr, Inhabited

/-- An action under the settings of a file. -/
structure Invocation where
  action : Action
  config : Option String
  deriving DecidableEq, Repr, Inhabited

/-- What the arguments ask for. -/
inductive Request
  | run (invocation : Invocation)
  | version
  | help
  deriving DecidableEq, Repr, Inhabited

/-- Why arguments are refused. -/
inductive UsageError
  | unexpected (argument : String)
  | missingValue (option : String)
  | repeated (option : String)
  | invalidValue (option value : String)
  | unknownCommand (name : String)
  | missingCommand
  | missingPath
  deriving DecidableEq, Repr, Inhabited

def UsageError.message : UsageError → String
  | unexpected argument => "unexpected argument: " ++ argument
  | missingValue option => "a value is required for --" ++ option
  | repeated option => "given more than once: --" ++ option
  | invalidValue option value => "invalid value for --" ++ option ++ ": " ++ value
  | unknownCommand name => "unknown command: " ++ name
  | missingCommand => "a command is required: tokens, indent or info"
  | missingPath => "a path is required"

/-- Why reading the arguments stops before their end. -/
inductive Stop
  | refused (error : UsageError)
  | version
  | help
  deriving DecidableEq, Repr, Inhabited

/-! ## Options -/

/-- The options of all commands. -/
inductive Flag
  | config
  | format
  | write
  | version
  | help
  deriving DecidableEq, Repr, Inhabited

namespace Flag

def long : Flag → String
  | config => "config"
  | format => "format"
  | write => "write"
  | version => "version"
  | help => "help"

def short : Flag → Char
  | config => 'c'
  | format => 'f'
  | write => 'w'
  | version => 'V'
  | help => 'h'

def takesValue : Flag → Bool
  | config | format => true
  | write | version | help => false

end Flag

/-- The options and the path given so far. -/
structure Given where
  config : Option String := none
  format : Option OutputFormat := none
  write : Bool := false
  path : Option String := none
  deriving DecidableEq, Repr, Inhabited

/-- Adds an option with its value, which is empty for one that takes none. -/
def Given.add (g : Given) (flag : Flag) (value : String) : Except Stop Given :=
  match flag with
  | .config =>
    if g.config.isSome then .error (.refused (.repeated flag.long))
    else .ok { g with config := some value }
  | .format =>
    match OutputFormat.ofName? value with
    | none => .error (.refused (.invalidValue flag.long value))
    | some format =>
      if g.format.isSome then .error (.refused (.repeated flag.long))
      else .ok { g with format := some format }
  | .write =>
    if g.write then .error (.refused (.repeated flag.long)) else .ok { g with write := true }
  | .version => .error .version
  | .help => .error .help

/-- The value of an option that is the next argument. What starts with a dash is none, a single
dash apart. -/
def nextValue (flag : Flag) : List String → Except Stop (String × List String)
  | [] => .error (.refused (.missingValue flag.long))
  | value :: rest =>
    if value.startsWith "-" && value != "-" then .error (.refused (.missingValue flag.long))
    else .ok (value, rest)

/-- Reads an option in its long form, without its dashes, and what is left of the arguments. -/
def addLong (flags : List Flag) (g : Given) (body : List Char) (rest : List String) :
    Except Stop (Given × List String) := do
  let name := String.ofList (body.takeWhile (· != '='))
  let attached := (body.dropWhile (· != '=')).tail?.map String.ofList
  match flags.find? (·.long == name) with
  | none => .error (.refused (.unexpected ("--" ++ String.ofList body)))
  | some flag =>
    match flag.takesValue, attached with
    | true, some value => return (← g.add flag value, rest)
    | true, none => do
      let (value, rest) ← nextValue flag rest
      return (← g.add flag value, rest)
    | false, some _ => .error (.refused (.unexpected ("--" ++ String.ofList body)))
    | false, none => return (← g.add flag "", rest)

/-- Reads options in their short form, without their dash, and what is left of the arguments. -/
def addShorts (flags : List Flag) : Given → List Char → List String →
    Except Stop (Given × List String)
  | g, [], rest => .ok (g, rest)
  | g, c :: cs, rest =>
    match flags.find? (·.short == c) with
    | none => .error (.refused (.unexpected (String.ofList ['-', c])))
    | some flag =>
      if flag.takesValue then
        match cs with
        | [] => do
          let (value, rest) ← nextValue flag rest
          return (← g.add flag value, rest)
        | '=' :: value => return (← g.add flag (String.ofList value), rest)
        | value => return (← g.add flag (String.ofList value), rest)
      else do addShorts flags (← g.add flag "") cs rest

/-! ## Arguments -/

/-- One argument, told apart by its dashes. -/
inductive Argument
  | long (body : List Char)
  | shorts (body : List Char)
  /-- Two dashes alone, behind which nothing is an option. -/
  | endOfOptions
  | plain (value : String)
  deriving DecidableEq, Repr, Inhabited

def Argument.ofString (arg : String) : Argument :=
  match arg.toList with
  | ['-', '-'] => .endOfOptions
  | '-' :: '-' :: body => .long body
  | '-' :: c :: body => .shorts (c :: body)
  | _ => .plain arg

/-- Adds the path of a file. -/
def Given.addPath (g : Given) (path : String) : Except Stop Given :=
  if g.path.isSome then .error (.refused (.unexpected path)) else .ok { g with path := some path }

/-- Reads the arguments behind a command that takes a path or none; `fuel` bounds their number. -/
def readRest (flags : List Flag) (takesPath : Bool) :
    Nat → Given → List String → Except Stop Given
  | _, g, [] => .ok g
  | 0, g, _ => .ok g
  | fuel + 1, g, arg :: rest =>
    let addPlain (g : Given) (value : String) : Except Stop Given :=
      if takesPath then g.addPath value else .error (.refused (.unexpected value))
    match Argument.ofString arg with
    | .endOfOptions => rest.foldlM addPlain g
    | .long body => do
      let (g, rest) ← addLong flags g body rest
      readRest flags takesPath fuel g rest
    | .shorts body => do
      let (g, rest) ← addShorts flags g body rest
      readRest flags takesPath fuel g rest
    | .plain value => do readRest flags takesPath fuel (← addPlain g value) rest

/-- Reads the arguments up to the command, which is given with what is behind it. -/
def readFront (flags : List Flag) :
    Nat → Given → List String → Except Stop (Given × String × List String)
  | _, _, [] | 0, _, _ => .error (.refused .missingCommand)
  | fuel + 1, g, arg :: rest =>
    match Argument.ofString arg with
    | .endOfOptions => .error (.refused .missingCommand)
    | .long body => do
      let (g, rest) ← addLong flags g body rest
      readFront flags fuel g rest
    | .shorts body => do
      let (g, rest) ← addShorts flags g body rest
      readFront flags fuel g rest
    | .plain name => .ok (g, name, rest)

/-- The invocation that a command and the arguments behind it ask for. A configuration given behind
the command counts more than one before it. -/
def readCommand (front : Given) (name : String) (args : List String) :
    Except Stop Invocation := do
  let read (flags : List Flag) (takesPath : Bool) :=
    readRest flags takesPath args.length {} args
  let path (g : Given) : Except Stop String :=
    match g.path with
    | some path => .ok path
    | none => .error (.refused .missingPath)
  match name with
  | "tokens" =>
    let g ← read [.config, .format, .help] true
    return ⟨.tokens (← path g) g.format, g.config <|> front.config⟩
  | "indent" =>
    let g ← read [.config, .write, .help] true
    return ⟨.indent (← path g) g.write, g.config <|> front.config⟩
  | "info" =>
    let g ← read [.config, .help] false
    return ⟨.info, g.config <|> front.config⟩
  | "help" =>
    match args with
    | [] => .error .help
    | [name] =>
      if ["tokens", "indent", "info", "help"].contains name then .error .help
      else .error (.refused (.unknownCommand name))
    | _ :: arg :: _ => .error (.refused (.unexpected arg))
  | name => .error (.refused (.unknownCommand name))

/-- What the arguments of the program ask for. -/
def readArguments (args : List String) : Except UsageError Request :=
  let read : Except Stop Invocation := do
    let (front, name, rest) ← readFront [.config, .version, .help] args.length {} args
    readCommand front name rest
  match read with
  | .ok invocation => .ok (.run invocation)
  | .error .version => .ok .version
  | .error .help => .ok .help
  | .error (.refused e) => .error e

end ShaderText.Command
