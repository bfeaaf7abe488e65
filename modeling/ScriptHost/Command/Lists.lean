import ScriptHost.Command.Basic

/-!
# Commands on lists
-/

namespace ScriptHost.Command

/-- The word at an index, or the empty text. -/
def elementAt (words : List String) (index : Int64) : String :=
  if index < 0 then "" else (words[index.toInt.toNat]?).getD ""

/-- The index that a text stands for in a list with a number of words. -/
def indexArg (size : Nat) (text : String) : Exec Int64 :=
  match text.toList with
  | 'e' :: 'n' :: 'd' :: rest =>
    match rest with
    | [] => pure (Int64.ofNat size - 1)
    | '-' :: offset => do return Int64.ofNat size - 1 - (← intArg (String.ofList offset))
    | _ => Exec.fail s!"bad index \"{text}\""
  | _ => intArg text

/-- The list of the arguments. -/
def list (words : List String) : Exec String :=
  pure (WordList.merge words)

/-- The number of words. -/
def llength : List String → Exec String
  | [text] => do return toString (← listArg text).length
  | _ => Exec.wrongArgs "llength list"

/-- One word of a list, counted from the front or from the end. -/
def lindex : List String → Exec String
  | [text] => pure text
  | [text, index] => do
    let words ← listArg text
    return elementAt words (← indexArg words.length index)
  | _ => Exec.wrongArgs "lindex list ?index?"

/-- The arguments without the white space around them, joined. -/
def concat (args : List String) : Exec String :=
  pure (joinWords ((args.map Text.trim).filter fun arg => !arg.isEmpty))

/-- The words of a list with a text between them. -/
def join : List String → Exec String
  | [text] => do return joinWords (← listArg text)
  | [text, separator] => do return separator.intercalate (← listArg text)
  | _ => Exec.wrongArgs "join list ?joinString?"

/-- The pieces of a text between separators. -/
def splitAt (separators : List Char) : List Char → List (List Char)
  | [] => [[]]
  | c :: rest =>
    if separators.contains c then [] :: splitAt separators rest
    else
      match splitAt separators rest with
      | [] => [[c]]
      | piece :: pieces => (c :: piece) :: pieces

/-- The pieces of a text: its characters if there are no separators. -/
def splitText (text separators : String) : List String :=
  if separators.isEmpty then text.toList.map String.singleton
  else (splitAt separators.toList text.toList).map String.ofList

/-- The list of the pieces of a text. -/
def split : List String → Exec String
  | [text] => pure (WordList.merge (splitText text " \t\n\r"))
  | [text, separators] => pure (WordList.merge (splitText text separators))
  | _ => Exec.wrongArgs "split string ?splitChars?"

end ScriptHost.Command
