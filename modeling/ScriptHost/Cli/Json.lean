/-!
# Reports in JSON

A document in JSON over several lines, as a command prints it when asked to.
-/

namespace ScriptHost.Cli

/-- A value in JSON. -/
inductive Json
  | null
  | truth (value : Bool)
  | number (value : Nat)
  | text (value : String)
  | object (fields : List (String × Json))

namespace Json

/-- A digit in base sixteen. -/
def hexDigit (n : Nat) : Char :=
  if n < 10 then Char.ofNat ('0'.toNat + n) else Char.ofNat ('a'.toNat + n - 10)

/-- The characters that stand for a character in a text. -/
def escape (c : Char) : List Char :=
  if c = '"' then ['\\', '"']
  else if c = '\\' then ['\\', '\\']
  else if c = '\n' then ['\\', 'n']
  else if c = '\r' then ['\\', 'r']
  else if c = '\t' then ['\\', 't']
  else if c = '\x08' then ['\\', 'b']
  else if c = '\x0c' then ['\\', 'f']
  else if c < ' ' then ['\\', 'u', '0', '0', hexDigit (c.toNat / 16), hexDigit (c.toNat % 16)]
  else [c]

/-- A text with its quotes. -/
def quote (text : String) : String :=
  "\"" ++ String.ofList (text.toList.flatMap escape) ++ "\""

mutual

/-- A value behind a number of blanks on its line. -/
def render (indent : Nat) : Json → String
  | .null => "null"
  | .truth value => toString value
  | .number value => toString value
  | .text value => quote value
  | .object fields =>
    if fields.isEmpty then "\x7b\x7d"
    else
      "\x7b" ++ renderFields (indent + 2) true fields ++ "\n" ++
        String.ofList (List.replicate indent ' ') ++ "\x7d"

/-- The fields of an object, each on a line of its own. -/
def renderFields (indent : Nat) (first : Bool) : List (String × Json) → String
  | [] => ""
  | (name, value) :: rest =>
    (if first then "\n" else ",\n") ++ String.ofList (List.replicate indent ' ') ++
      quote name ++ ": " ++ render indent value ++ renderFields indent false rest

end

end Json

end ScriptHost.Cli
