import ScriptHost.Command.Basic
import ScriptHost.Glob
import ScriptHost.Text.LetterCase

/-!
# Commands on texts
-/

namespace ScriptHost.Command

/-- The subcommands of `string`. -/
def string : List String → Exec String
  | sub :: arg :: rest =>
    match sub, arg :: rest with
    | "length", [text] => pure (toString text.length)
    | "length", _ => Exec.wrongArgs "string length string"
    | "equal", [a, b] => pure (truthText (a == b))
    | "equal", _ => Exec.wrongArgs "string equal string1 string2"
    | "toupper", _ => pure (Text.toUpper arg)
    | "tolower", _ => pure (Text.toLower arg)
    | "trim", _ => pure (Text.trim arg)
    | "match", [pattern, text] => pure (truthText (Glob.isMatch pattern text))
    | "match", _ => Exec.wrongArgs "string match pattern string"
    | _, _ =>
      Exec.fail
        (s!"unknown or ambiguous subcommand \"{sub}\": must be " ++
          "equal, length, match, tolower, toupper, or trim")
  | _ => Exec.wrongArgs "string subcommand ?arg ...?"

/-- Substitute in a text as in a word. -/
def subst (e : Engine) (i : InterpId) : List String → Exec String
  | [text] => do
    let parts ←
      Exec.ofExcept ((Script.template text).mapError fun error => .error error.message)
    substitute e i parts
  | _ => Exec.wrongArgs "subst string"

/-- Compute an expression. -/
def expr (e : Engine) (i : InterpId) : List String → Exec String
  | [] => Exec.wrongArgs "expr arg ?arg ...?"
  | args => evalExprText e i (joinWords args)

/-- Print a text. -/
def puts (args : List String) : Exec String := do
  let (args, ending) :=
    match args with
    | "-nonewline" :: rest => (rest, "")
    | rest => (rest, "\n")
  let printTo (channel text : String) : Exec String := do
    if channel = "stdout" then
      modify fun w => w.print (text ++ ending)
      return ""
    else if channel = "stderr" then
      modify fun w => w.printError (text ++ ending)
      return ""
    else Exec.fail s!"can not find channel named \"{channel}\""
  match args with
  | [text] => printTo "stdout" text
  | [channel, text] => printTo channel text
  | _ => Exec.wrongArgs "puts ?-nonewline? ?channelId? string"

end ScriptHost.Command
