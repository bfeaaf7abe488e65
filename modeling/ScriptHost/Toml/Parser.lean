import ScriptHost.Toml.Scalar
import ScriptHost.Toml.Text

/-!
# Reading documents

A document is read line by line: a header opens a table, and any other line gives a value to a
dotted key of the open table. `parse?` has no document for a text that is none.
-/

namespace ScriptHost.Toml

/-- A reader of something of type `α`. -/
abbrev Reader (α : Type) := List Char → Option (α × List Char)

/-- What follows the blanks in front. -/
def skipBlanks (cs : List Char) : List Char :=
  cs.dropWhile fun c => c = ' ' || c = '\t'

/-! ### Keys -/

/-- Whether a character may stand in a key without quotes. -/
def isKeyChar (c : Char) : Bool :=
  c.isAlphanum || c = '_' || c = '-'

/-- One part of a key. -/
def keyPart : Reader String := fun cs =>
  match text? false cs with
  | some taken => taken.map fun (text, rest) => (String.ofList text, rest)
  | none =>
    let (key, rest) := cs.span isKeyChar
    if key.isEmpty then none else some (String.ofList key, rest)

/-- The parts of a key behind the first one, at most `fuel` of them. -/
def keyParts : Nat → Reader (List String)
  | 0, _ => none
  | fuel + 1, cs =>
    match skipBlanks cs with
    | '.' :: rest => do
      let (part, rest) ← keyPart (skipBlanks rest)
      let (parts, rest) ← keyParts fuel rest
      return (part :: parts, rest)
    | rest => some ([], rest)

/-- A key with its parts. -/
def key : Reader (List String) := fun cs => do
  let (part, rest) ← keyPart (skipBlanks cs)
  let (parts, rest) ← keyParts (cs.length + 1) rest
  return (part :: parts, rest)

/-! ### Values -/

/-- Whether a character ends a bare value. -/
def endsBare (c : Char) : Bool :=
  [' ', '\t', '\n', ',', ']', '}', '#'].contains c

/-- A value without quotes or brackets. A blank may stand between a date and a time. -/
def bareValue : Reader Value := fun cs =>
  let (token, rest) := cs.span fun c => !endsBare c
  let (token, rest) :=
    match date? token, rest with
    | some [], ' ' :: c :: more =>
      if c.isDigit then
        let (time, rest) := (c :: more).span fun c => !endsBare c
        (token ++ ' ' :: time, rest)
      else (token, rest)
    | _, _ => (token, rest)
  (bare? token).map fun value => (value, rest)

/-- What follows a comment in front, up to the end of the line. -/
def skipComment : List Char → Option (List Char)
  | '#' :: rest =>
    let comment := rest.takeWhile (· ≠ '\n')
    if comment.all isPlain then some (rest.drop comment.length) else none
  | cs => some cs

/-- What follows blanks, line ends and comments in front, at most `fuel` lines of them. -/
def skipLines : Nat → List Char → Option (List Char)
  | 0, _ => none
  | fuel + 1, cs =>
    match skipComment (skipBlanks cs) with
    | some ('\n' :: rest) => skipLines fuel rest
    | found => found

/-- How deep values may be nested. -/
def maxDepth : Nat := 80

mutual

/-- A value that may hold values up to a depth. Every step into a value takes a piece of fuel. -/
def value : Nat → Nat → Reader Value
  | 0, _, _ => none
  | fuel + 1, depth, cs =>
    match text? true cs with
    | some taken => taken.map fun (text, rest) => (.text (String.ofList text), rest)
    | none =>
      match cs with
      | '[' :: rest => if depth = 0 then none else items fuel (depth - 1) [] rest
      | '\x7b' :: rest =>
        if depth = 0 then none
        else
          match skipBlanks rest with
          | '\x7d' :: rest => some (.table .braces [], rest)
          | rest => fields fuel (depth - 1) [] rest
      | cs => bareValue cs

/-- The rest of a list behind some items, from an item or the closing bracket on. -/
def items : Nat → Nat → List Value → Reader Value
  | 0, _, _, _ => none
  | fuel + 1, depth, found, cs => do
    match ← skipLines (cs.length + 1) cs with
    | ']' :: rest => return (.list found, rest)
    | rest =>
      let (item, rest) ← value fuel depth rest
      match ← skipLines (rest.length + 1) rest with
      | ',' :: rest => items fuel depth (found ++ [item]) rest
      | ']' :: rest => return (.list (found ++ [item]), rest)
      | _ => none

/-- The rest of a table in braces behind some entries, from a key on. -/
def fields : Nat → Nat → Entries → Reader Value
  | 0, _, _, _ => none
  | fuel + 1, depth, entries, cs => do
    let (path, rest) ← key cs
    let '=' :: rest := skipBlanks rest | none
    let (item, rest) ← value fuel depth (skipBlanks rest)
    let entries ← entries.define item path
    match skipBlanks rest with
    | ',' :: rest => fields fuel depth entries rest
    | '\x7d' :: rest => return (.table .braces entries, rest)
    | _ => none

end

/-! ### Lines -/

/-- What follows the rest of a line, which holds at most a comment. -/
def lineEnd (cs : List Char) : Option (List Char) := do
  match ← skipComment (skipBlanks cs) with
  | [] => some []
  | '\n' :: rest => some rest
  | _ => none

/-- A document that is being read: its root table, and where the open table is. -/
structure Draft where
  root : Entries := []
  path : List String := []

/-- Read one line. -/
def line (draft : Draft) (cs : List Char) : Option (Draft × List Char) :=
  match skipBlanks cs with
  | '[' :: '[' :: rest => do
    let (path, rest) ← key rest
    let ']' :: ']' :: rest := skipBlanks rest | none
    let root ← draft.root.openItem path
    return ({ root, path }, ← lineEnd rest)
  | '[' :: rest => do
    let (path, rest) ← key rest
    let ']' :: rest := skipBlanks rest | none
    let root ← draft.root.openTable path
    return ({ root, path }, ← lineEnd rest)
  | cs =>
    if cs.isEmpty || cs.head? = some '\n' || cs.head? = some '#' then
      (lineEnd cs).map fun rest => (draft, rest)
    else do
      let (path, rest) ← key cs
      let '=' :: rest := skipBlanks rest | none
      let (item, rest) ← value (2 * rest.length + 2) maxDepth (skipBlanks rest)
      let root ← draft.root.within (Entries.define item path) draft.path
      return ({ draft with root }, ← lineEnd rest)

/-- Read lines up to the end, at most `fuel` of them. -/
def lines : Nat → Draft → List Char → Option Entries
  | _, draft, [] => some draft.root
  | 0, _, _ => none
  | fuel + 1, draft, cs => do
    let (draft, rest) ← line draft cs
    lines fuel draft rest

/-- The characters of a text with a single character for each line end. -/
def unifyLineEnds : List Char → List Char
  | '\r' :: '\n' :: rest => '\n' :: unifyLineEnds rest
  | c :: rest => c :: unifyLineEnds rest
  | [] => []

/-- The root table of the document that a text spells. -/
def parse? (text : String) : Option Entries :=
  let cs := unifyLineEnds text.toList
  let cs := if cs.head? = some '\ufeff' then cs.tail else cs
  lines (cs.length + 1) {} cs

end ScriptHost.Toml
