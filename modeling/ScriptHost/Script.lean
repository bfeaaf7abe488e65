/-!
# Scripts

A script is a sequence of statements, a statement a sequence of words, and a word a sequence of
parts that are put together when the statement is run.
-/

namespace ScriptHost.Script

/-- A part of a word: literal text, the value of a variable, or the result of a script. -/
inductive Part
  | text (value : String)
  | variable (name : String)
  | script (source : String)
deriving DecidableEq, Repr

/-- A word before substitution. -/
abbrev Word := List Part

/-- The words of one command invocation. -/
abbrev Statement := List Word

/-- Why a text is no script. -/
inductive SyntaxError
  | missingBrace
  | missingBracket
  | missingNameBrace
  | missingQuote
  | afterBrace
  | afterQuote
deriving DecidableEq, Repr

/-- The message of a syntax error. -/
def SyntaxError.message : SyntaxError → String
  | .missingBrace => "missing close-brace"
  | .missingBracket => "missing close-bracket"
  | .missingNameBrace => "missing close-brace for variable name"
  | .missingQuote => "missing \""
  | .afterBrace => "extra characters after close-brace"
  | .afterQuote => "extra characters after close-quote"

end ScriptHost.Script
