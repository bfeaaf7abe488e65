import ScriptHost.Eval.Substitute
import ScriptHost.WordList

/-!
# Arguments of commands

What several built-in commands share in reading their arguments. Commands take their arguments
without the command name.
-/

namespace ScriptHost.Command

/-- An integer argument. -/
def intArg (text : String) : Exec Int64 :=
  match Number.integer? (Text.trimBlanks text.toList) with
  | some n => pure n
  | none => Exec.fail s!"expected integer but got \"{text}\""

/-- The words of an argument that is a list. -/
def listArg (text : String) : Exec (List String) :=
  Exec.ofExcept ((WordList.split text).mapError fun error => .error error.message)

/-- A truth as scripts write it. -/
def truthText (b : Bool) : String :=
  if b then "1" else "0"

/-- The words with single spaces between them. -/
def joinWords (words : List String) : String :=
  " ".intercalate words

end ScriptHost.Command
