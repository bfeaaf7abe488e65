import ScriptHost.Cli.Grammar
import ScriptHost.Number.Integer

/-!
# Reading the command line

A command line is read from left to right, and the first thing that cannot be decides what comes
of it: a request for help or for the version as well as a mistake. Options may stand before and
behind arguments, and two hyphens alone end the options. The last argument of `run` takes all that
is left from its first value on, and options that are not known may be that value.
-/

namespace ScriptHost.Cli

/-- What a command line asks for besides running a command. -/
inductive Interruption
  | help (command : CommandSpec)
  | programHelp (long : Bool)
  | version
  /-- There is no command at all. -/
  | nothing
  | mistake (text : String)
deriving DecidableEq, Repr

/-- What was found on a part of the command line. -/
structure Found where
  flags : List String := []
  values : List (String × String) := []
  arguments : List String := []
deriving DecidableEq, Repr

namespace Found

/-- Whether an option was given. -/
def given (found : Found) (long : String) : Bool :=
  found.flags.contains long || found.values.any (·.1 == long)

/-- The value of an option. -/
def value? (found : Found) (long : String) : Option String :=
  (found.values.find? (·.1 == long)).map (·.2)

end Found

/-- Whether a value is one of a kind. -/
def ValueKind.accepts : ValueKind → String → Bool
  | .text, _ => true
  | .path, value => !value.isEmpty
  | .count, value =>
    match Number.decimalField 0 (Nat.pow 2 64 - 1) value.toList with
    | .ok _ => true
    | .error _ => false

/-- What a command line, or what follows its command, consists of. -/
structure Part where
  options : List OptionSpec
  arguments : List ArgumentSpec
  /-- What comes of a request for help, in the long form or not. -/
  help : Bool → Interruption

namespace Part

/-- The option with a long name. -/
def option? (part : Part) (long : String) : Option OptionSpec :=
  part.options.find? fun o => o.long == long

/-- The option with a letter. -/
def letter? (part : Part) (letter : Char) : Option OptionSpec :=
  part.options.find? fun o => o.short == some letter

/-- The argument whose turn it is. -/
def nextArgument? (part : Part) (found : Found) : Option ArgumentSpec :=
  match part.arguments[found.arguments.length]? with
  | some a => some a
  | none => part.arguments.getLast?.filter (·.rest)

/-- Whether the argument whose turn it is takes what looks like an unknown option. -/
def takesHyphens (part : Part) (found : Found) : Bool :=
  (part.nextArgument? found).any (·.rest)

end Part

/-- What a word on the command line looks like. -/
inductive Word
  /-- Two hyphens alone. -/
  | endOfOptions
  /-- A long option, with what follows an equals sign. -/
  | long (o : OptionSpec) (value : Option String)
  /-- Letters behind one hyphen. -/
  | letters (letters : List Char)
  | plain
  | unknown

/-- The name in front of an equals sign, and what follows the sign if there is one. -/
def splitEquals (cs : List Char) : String × Option String :=
  let (name, rest) := cs.span (· ≠ '=')
  (String.ofList name, if rest.isEmpty then none else some (String.ofList rest.tail))

/-- What a word looks like where it stands. -/
def Part.classify (part : Part) (found : Found) (word : String) : Word :=
  match word.toList with
  | ['-', '-'] => .endOfOptions
  | '-' :: '-' :: cs =>
    let (name, value) := splitEquals cs
    match part.option? name with
    | some o => .long o value
    | none => if part.takesHyphens found then .plain else .unknown
  | ['-'] => .plain
  | '-' :: letters =>
    if part.takesHyphens found && letters.any (fun c => (part.letter? c).isNone) then .plain
    else .letters letters
  | _ => .plain

namespace Part

/-- A reading that may be interrupted. -/
abbrev Reading := Except Interruption

/-- Give an option that takes no value. -/
def giveFlag (part : Part) (o : OptionSpec) (short : Bool) (found : Found) : Reading Found :=
  if o.long = Grammar.help.long then .error (part.help (!short))
  else if o.long = "version" then .error .version
  else if found.given o.long then
    .error (.mistake s!"the argument '--{o.long}' cannot be used multiple times")
  else .ok { found with flags := found.flags ++ [o.long] }

/-- Give an option its value. -/
def giveValue (o : OptionSpec) (kind : ValueKind) (value : String) (found : Found) :
    Reading Found :=
  if !kind.accepts value then
    .error (.mistake s!"invalid value '{value}' for '--{o.long}'")
  else if found.given o.long then
    .error (.mistake s!"the argument '--{o.long}' cannot be used multiple times")
  else .ok { found with values := found.values ++ [(o.long, value)] }

/-- Give the argument whose turn it is a value. -/
def giveArgument (part : Part) (value : String) (found : Found) : Reading Found :=
  match part.nextArgument? found with
  | none => .error (.mistake s!"unexpected argument '{value}' found")
  | some a =>
    if a.kind.accepts value then .ok { found with arguments := found.arguments ++ [value] }
    else .error (.mistake s!"invalid value '{value}' for {a.name}")

/-- Give every word as an argument. -/
def giveAll (part : Part) (found : Found) (words : List String) : Reading Found :=
  words.foldlM (fun found word => part.giveArgument word found) found

/-- Read letters behind one hyphen. An option that takes a value and is the last letter waits for
the next word. -/
def readLetters (part : Part) (found : Found) :
    List Char → Reading (Found × Option (OptionSpec × ValueKind))
  | [] => .ok (found, none)
  | c :: rest =>
    match part.letter? c with
    | none => .error (.mistake s!"unexpected argument '-{c}' found")
    | some o =>
      match o.value with
      | none => do part.readLetters (← part.giveFlag o true found) rest
      | some (_, kind) =>
        if rest.isEmpty then .ok (found, some (o, kind))
        else do
          let value := if rest.head? = some '=' then rest.tail else rest
          return (← giveValue o kind (String.ofList value) found, none)

/-- What follows an option that is found: its state and the option that waits for a value. -/
def readLong (part : Part) (found : Found) (o : OptionSpec) (value : Option String) :
    Reading (Found × Option (OptionSpec × ValueKind)) :=
  match o.value, value with
  | none, none => do return (← part.giveFlag o false found, none)
  | none, some value =>
    .error (.mistake s!"unexpected value '{value}' for '--{o.long}' found; no more were expected")
  | some (_, kind), some value => do return (← giveValue o kind value found, none)
  | some (_, kind), none => .ok (found, some (o, kind))

/-- Read words up to a plain one for which `stop` holds. `waiting` is an option whose value comes
next. -/
def read (part : Part) (stop : Bool) (found : Found) (waiting : Option (OptionSpec × ValueKind)) :
    List String → Reading (Found × List String)
  | [] =>
    match waiting with
    | some (o, _) => .error (.mistake s!"a value is required for '--{o.long}'")
    | none => .ok (found, [])
  | word :: rest =>
    match part.classify found word, waiting with
    | .unknown, _ => .error (.mistake s!"unexpected argument '{word}' found")
    | .plain, some (o, kind) => do
      part.read stop (← giveValue o kind word found) none rest
    | _, some (o, _) => .error (.mistake s!"a value is required for '--{o.long}'")
    | .endOfOptions, none => do return (← part.giveAll found rest, [])
    | .long o value, none => do
      let (found, waiting) ← part.readLong found o value
      part.read stop found waiting rest
    | .letters letters, none => do
      let (found, waiting) ← part.readLetters found letters
      part.read stop found waiting rest
    | .plain, none =>
      if stop then .ok (found, word :: rest)
      else if part.takesHyphens found then do return (← part.giveAll found (word :: rest), [])
      else do part.read stop (← part.giveArgument word found) none rest

end Part

/-! ### Commands -/

/-- What the program is to do. -/
inductive Command
  | run (file : String) (args : List String) (noLoop safe : Bool)
  | eval (script : String) (safe : Bool)
  | stress (threads count : Nat) (json : Bool)
  | info (json : Bool)
deriving DecidableEq, Repr

/-- A command line that was read. -/
structure Invocation where
  command : Command
  config : Option String
deriving DecidableEq, Repr

/-- The whole number that is the value of an option, or its default. -/
def Found.count (found : Found) (long : String) (default : Nat) : Nat :=
  match found.value? long with
  | none => default
  | some value =>
    match Number.decimalField 0 (Nat.pow 2 64 - 1) value.toList with
    | .ok n => n.toNat
    | .error _ => default

/-- The part of the command line in front of the command. -/
def programPart : Part :=
  { options := Grammar.globalOptions, arguments := [], help := .programHelp }

/-- The part of the command line behind a command. -/
def commandPart (spec : CommandSpec) : Part :=
  { options := spec.options, arguments := spec.arguments, help := fun _ => .help spec }

/-- The command that was found. -/
def commandOf (spec : CommandSpec) (found : Found) : Except Interruption Command :=
  let given := found.given
  match spec.name, found.arguments with
  | "run", file :: args => .ok (.run file args (given "no-loop") (given "safe"))
  | "eval", [script] => .ok (.eval script (given "safe"))
  | "stress", _ => .ok (.stress (found.count "threads" 4) (found.count "count" 1000) (given "json"))
  | "info", _ => .ok (.info (given "json"))
  | _, _ => .error (.mistake "the following required arguments were not provided")

/-- What comes of a request for the help of a command. -/
def helpFor : List String → Interruption
  | [] => .programHelp true
  | name :: rest =>
    match Grammar.command? name, rest with
    | some spec, [] => .help spec
    | some _, next :: _ => .mistake s!"unrecognized subcommand '{next}'"
    | none, _ => .mistake s!"unrecognized subcommand '{name}'"

/-- Read a command line. -/
def readCommandLine (args : List String) : Except Interruption Invocation := do
  if args.isEmpty then throw .nothing
  let (before, rest) ← programPart.read true {} none args
  match rest with
  | [] => throw (.mistake "'tkb' requires a subcommand but one was not provided")
  | name :: rest =>
    match Grammar.command? name with
    | none => throw (.mistake s!"unrecognized subcommand '{name}'")
    | some spec =>
      if spec.name = Grammar.helpCommand.name then throw (helpFor rest)
      else
        let (found, _) ← (commandPart spec).read false {} none rest
        let command ← commandOf spec found
        return { command, config := found.value? "config" <|> before.value? "config" }

end ScriptHost.Cli
