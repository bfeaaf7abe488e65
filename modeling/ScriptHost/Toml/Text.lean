import ScriptHost.Number.Integer

/-!
# Texts of a document

A text stands in quotes or in apostrophes, one at each end for a line and three at each end for
several lines. Only quotes give a meaning to the backslash. Each reader takes the characters behind
the opening mark and returns the text and what follows the closing mark.
-/

namespace ScriptHost.Toml

/-- The characters that may stand in a document as they are, line ends apart. -/
def isPlain (c : Char) : Bool :=
  c = '\t' || (' ' ≤ c && c ≠ '\x7f')

/-- Characters and what follows them. -/
abbrev Taken := Option (List Char × List Char)

/-- Put a character in front of what was taken. -/
def Taken.cons (c : Char) (taken : Taken) : Taken :=
  taken.map fun (text, rest) => (c :: text, rest)

/-- The character with a code in base sixteen. -/
def scalar? (digits : List Char) : Option Char :=
  (Number.digits? 16 digits).bind fun n =>
    if h : n.isValidChar then some (Char.ofNatAux n h) else none

/-- The character that a backslash and a letter stand for. -/
def escaped? : Char → Option Char
  | 'b' => some '\x08'
  | 't' => some '\t'
  | 'n' => some '\n'
  | 'f' => some '\x0c'
  | 'r' => some '\r'
  | '"' => some '"'
  | '\\' => some '\\'
  | _ => none

/-- A text in quotes. -/
def quoted : List Char → Taken
  | [] => none
  | '"' :: rest => some ([], rest)
  | '\\' :: 'u' :: a :: b :: c :: d :: rest =>
    (scalar? [a, b, c, d]).bind fun char => Taken.cons char (quoted rest)
  | '\\' :: 'U' :: a :: b :: c :: d :: a' :: b' :: c' :: d' :: rest =>
    (scalar? [a, b, c, d, a', b', c', d']).bind fun char => Taken.cons char (quoted rest)
  | '\\' :: c :: rest => (escaped? c).bind fun char => Taken.cons char (quoted rest)
  | c :: rest => if isPlain c then Taken.cons c (quoted rest) else none

/-- A text in apostrophes. -/
def literal : List Char → Taken
  | [] => none
  | c :: rest =>
    if c = '\x27' then some ([], rest)
    else if isPlain c then Taken.cons c (literal rest)
    else none

/-- The marks that end a text of several lines. Up to two more of them belong to the text. -/
def closing? (mark : Char) : List Char → Taken
  | a :: b :: c :: rest =>
    if a = mark ∧ b = mark ∧ c = mark then
      let extra := (rest.take 2).takeWhile (· = mark)
      some (extra, rest.drop extra.length)
    else none
  | _ => none

/-- How much of the text behind a backslash at the end of a line is skipped. -/
inductive Skip
  | nothing
  /-- The blanks up to the end of the line. -/
  | toLineEnd
  /-- The blanks and empty lines in front of the next character. -/
  | toText
deriving DecidableEq

/-- Several lines of text in quotes. -/
def quotedLines (skip : Skip) : List Char → Taken
  | [] => none
  | c :: rest =>
    if skip ≠ .nothing ∧ (c = ' ' ∨ c = '\t') then quotedLines skip rest
    else if skip ≠ .nothing ∧ c = '\n' then quotedLines .toText rest
    else if skip = .toLineEnd then none
    else
      match closing? '"' (c :: rest) with
      | some taken => some taken
      | none =>
        if c = '\\' then
          match rest with
          | 'u' :: a :: b :: c :: d :: rest =>
            (scalar? [a, b, c, d]).bind fun char => Taken.cons char (quotedLines .nothing rest)
          | 'U' :: a :: b :: c :: d :: a' :: b' :: c' :: d' :: rest =>
            (scalar? [a, b, c, d, a', b', c', d']).bind fun char =>
              Taken.cons char (quotedLines .nothing rest)
          | '\n' :: rest => quotedLines .toText rest
          | d :: rest =>
            if d = ' ' ∨ d = '\t' then quotedLines .toLineEnd rest
            else (escaped? d).bind fun char => Taken.cons char (quotedLines .nothing rest)
          | [] => none
        else if isPlain c ∨ c = '\n' then Taken.cons c (quotedLines .nothing rest)
        else none

/-- Several lines of text in apostrophes. -/
def literalLines : List Char → Taken
  | [] => none
  | c :: rest =>
    match closing? '\x27' (c :: rest) with
    | some taken => some taken
    | none => if isPlain c ∨ c = '\n' then Taken.cons c (literalLines rest) else none

/-- What follows a line end in front, which does not belong to several lines of text. -/
def dropLineEnd : List Char → List Char
  | '\n' :: rest => rest
  | cs => cs

/-- A text with its marks, if one begins here; several lines only where they may. -/
def text? (lines : Bool) (cs : List Char) : Option Taken :=
  match cs with
  | '"' :: '"' :: '"' :: rest =>
    if lines then some (quotedLines .nothing (dropLineEnd rest)) else some (some ([], '"' :: rest))
  | '"' :: rest => some (quoted rest)
  | '\x27' :: '\x27' :: '\x27' :: rest =>
    if lines then some (literalLines (dropLineEnd rest)) else some (some ([], '\x27' :: rest))
  | '\x27' :: rest => some (literal rest)
  | _ => none

end ScriptHost.Toml
