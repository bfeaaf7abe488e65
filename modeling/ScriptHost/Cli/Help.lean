import ScriptHost.Cli.Grammar

/-!
# Help

The help of the program and of its commands, written from their description.
-/

namespace ScriptHost.Cli

/-- How an option is written. -/
def OptionSpec.usage (o : OptionSpec) : String :=
  let short := o.short.elim "    " fun c => s!"-{c}, "
  let value := o.value.elim "" fun (name, _) => s!" <{name}>"
  s!"{short}--{o.long}{value}"

/-- How an argument is written. -/
def ArgumentSpec.usage (a : ArgumentSpec) : String :=
  if a.rest then s!"[{a.name}]..." else s!"<{a.name}>"

/-- What is said about an option. -/
def OptionSpec.description (o : OptionSpec) : String :=
  o.about ++ o.default.elim "" fun value => s!" [default: {value}]"

namespace Help

/-- A text with blanks behind it up to a width. -/
def pad (width : Nat) (text : String) : String :=
  text ++ String.ofList (List.replicate (width - text.length) ' ')

/-- Lines with two columns, the first as wide as its widest entry. -/
def columns (rows : List (String × String)) : String :=
  let width := rows.foldl (fun width row => max width row.1.length) 0
  String.join (rows.map fun (left, right) => s!"  {pad width left}  {right}\n")

/-- A section with a title, unless it is empty. -/
def sectionOf (title : String) (rows : List (String × String)) : String :=
  if rows.isEmpty then "" else s!"\n{title}:\n{columns rows}"

/-- How a command is used. -/
def usageOf (spec : CommandSpec) : String :=
  let options := if spec.options.isEmpty then "" else " [OPTIONS]"
  let arguments := String.join (spec.arguments.map fun a => s!" {a.usage}")
  s!"Usage: {Grammar.program} {spec.name}{options}{arguments}\n"

/-- The help of a command. -/
def ofCommand (spec : CommandSpec) : String :=
  s!"{spec.about}\n\n{usageOf spec}" ++
    sectionOf "Arguments" (spec.arguments.map fun a => (a.usage, a.about)) ++
    sectionOf "Options" (spec.options.map fun o => (o.usage, o.description))

/-- How the program is used. -/
def programUsage : String :=
  s!"Usage: {Grammar.program} [OPTIONS] <COMMAND>\n"

/-- The commands of the program. -/
def commandSection : String :=
  sectionOf "Commands" (Grammar.commands.map fun spec => (spec.name, spec.about))

/-- The short help of the program. -/
def ofProgram : String :=
  s!"{Grammar.about}\n\n{programUsage}{commandSection}" ++
    sectionOf "Options" (Grammar.globalOptions.map fun o => (o.usage, o.description))

/-- What the long help says about an option. -/
def longOption (o : OptionSpec) : String :=
  let about :=
    if o.long = Grammar.help.long then "Print help (see a summary with '-h')" else o.description
  s!"\n  {o.usage}\n          {about}\n"

/-- The long help of the program. -/
def ofProgramLong : String :=
  s!"{Grammar.longAbout}\n\n{programUsage}{commandSection}\nOptions:" ++
    String.join (Grammar.globalOptions.map longOption)

end Help

end ScriptHost.Cli
