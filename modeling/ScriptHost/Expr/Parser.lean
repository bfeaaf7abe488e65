import ScriptHost.Expr
import ScriptHost.Script.Parser

/-!
# Reading expressions

The levels of precedence are `?:`, then `||`, `&&`, equality, order, sums, products and the unary
operators. All operators with two operands associate to the left, `?:` to the right.
-/

namespace ScriptHost.Expr

open Text

/-- Why a text is no expression. -/
inductive SyntaxError
  | malformed
  | missingColon
  | missingOperand
  | unbalanced
  | bareWord (word : String)
  | badNumber (text : String)
  | script (error : Script.SyntaxError)
deriving DecidableEq, Repr

/-- The message of a syntax error in the expression with a given text. -/
def SyntaxError.message (source : String) : SyntaxError → String
  | .malformed => s!"syntax error in expression \"{source}\""
  | .missingColon => s!"missing ':' in ternary expression \"{source}\""
  | .missingOperand => s!"missing operand in expression \"{source}\""
  | .unbalanced => s!"unbalanced parentheses in expression \"{source}\""
  | .bareWord word => s!"invalid bare word \"{word}\" in expression \"{source}\""
  | .badNumber text => s!"invalid number \"{text}\" in expression \"{source}\""
  | .script error => error.message

/-- A reader of something of type `α`. -/
abbrev Reader (α : Type) := List Char → Except SyntaxError (α × List Char)

/-- A reader of scripts as a part of an expression. -/
def Reader.ofScript {α : Type} (read : Script.Reader α) : Reader α := fun cs =>
  (read cs).mapError .script

/-! ### Tokens -/

/-- What follows an initial part of a text. -/
def afterToken : List Char → List Char → Option (List Char)
  | [], cs => some cs
  | _ :: _, [] => none
  | t :: token, c :: cs => if t = c then afterToken token cs else none

/-- Whether a character continues a word. -/
def continuesWord : List Char → Bool
  | [] => false
  | c :: _ => isLetterOrNumeral c || c = '_'

/-- What follows a token and the white space before it. A token of letters must not run on into a
longer word. -/
def eat (token : String) (cs : List Char) : Option (List Char) :=
  match afterToken token.toList (cs.dropWhile isBlank) with
  | none => none
  | some rest => if token.toList.all isLetter && continuesWord rest then none else some rest

/-- The first operator of a list that a text begins with. -/
def findOperator {α : Type} (operators : List (String × α)) (cs : List Char) :
    Option (α × List Char) :=
  operators.findSome? fun (token, a) => (eat token cs).map fun rest => (a, rest)

/-! ### Operators between two operands -/

/-- Operators of one level, with the trees they build. -/
abbrev Level := List (String × (Expr → Expr → Expr))

/-- The levels from the tightest to the loosest. -/
def levels : List Level :=
  [ [("*", .binary .mul), ("/", .binary .div), ("%", .binary .rem)],
    [("+", .binary .add), ("-", .binary .sub)],
    [("<=", .binary .le), (">=", .binary .ge), ("<", .binary .lt), (">", .binary .gt)],
    [("==", .binary .eq), ("!=", .binary .ne), ("eq", .binary .textEq), ("ne", .binary .textNe)],
    [("&&", .both)],
    [("||", .either)] ]

/-- Operators of a level and their right operands behind a left operand, at most `count` of
them. -/
def chain (operand : Reader Expr) (level : Level) : Nat → Expr → Reader Expr
  | 0, left, cs => .ok (left, cs)
  | count + 1, left, cs =>
    match findOperator level cs with
    | none => .ok (left, cs)
    | some (build, rest) =>
      match operand rest with
      | .error e => .error e
      | .ok (right, rest) => chain operand level count (build left right) rest

/-- Operands joined by the operators of a level. -/
def leftAssoc (operand : Reader Expr) (level : Level) : Reader Expr := fun cs =>
  match operand cs with
  | .error e => .error e
  | .ok (left, rest) => chain operand level rest.length left rest

/-- Operands joined by the operators of all levels. -/
def joined (operand : Reader Expr) : Reader Expr :=
  levels.foldl leftAssoc operand

/-- Expressions with `?:` nested up to a depth. -/
def choices (operand : Reader Expr) : Nat → Reader Expr
  | 0, _ => .error .malformed
  | depth + 1, cs =>
    match joined operand cs with
    | .error e => .error e
    | .ok (condition, rest) =>
      match eat "?" rest with
      | none => .ok (condition, rest)
      | some rest =>
        match choices operand depth rest with
        | .error e => .error e
        | .ok (yes, rest) =>
          match eat ":" rest with
          | none => .error .missingColon
          | some rest =>
            match choices operand depth rest with
            | .error e => .error e
            | .ok (no, rest) => .ok (.choice condition yes no, rest)

/-! ### Operands -/

/-- The characters of a number: letters, digits, points and the sign of a decimal exponent. -/
def numberRun (hex : Bool) (previous : Char) : List Char → List Char × List Char
  | [] => ([], [])
  | c :: rest =>
    if c.isAlphanum || c = '.' ||
        ((c = '+' || c = '-') && (previous = 'e' || previous = 'E') && !hex) then
      let run := numberRun hex c rest
      (c :: run.1, run.2)
    else ([], c :: rest)

/-- A number. -/
def number : Reader Expr := fun cs =>
  let hex := (afterToken ['0', 'x'] cs).isSome
  let (digits, rest) := numberRun hex '\x00' cs
  let text := String.ofList digits
  match Value.ofText text with
  | .text _ => .error (.badNumber text)
  | value => .ok (.literal value, rest)

/-- A word that is a truth value. -/
def bareWord : Reader Expr := fun cs =>
  let word := String.ofList (cs.takeWhile isLetterOrNumeral)
  match Value.boolOfText? word with
  | some _ => .ok (.literal (.text word), cs.dropWhile isLetterOrNumeral)
  | none => .error (.bareWord word)

/-- An operand without unary operators; `inner` reads what stands in parentheses. -/
def primary (inner : Reader Expr) : Reader Expr := fun cs =>
  match cs.dropWhile isBlank with
  | [] => .error .missingOperand
  | c :: rest =>
    if c = '(' then
      match inner rest with
      | .error e => .error e
      | .ok (e, rest) =>
        match eat ")" rest with
        | some rest => .ok (e, rest)
        | none => .error .unbalanced
    else if c = '$' then
      match Reader.ofScript Script.variableName rest with
      | .error e => .error e
      | .ok (some name, rest) => .ok (.variable name, rest)
      | .ok (none, _) => .error .malformed
    else if c = '[' then
      (Reader.ofScript Script.bracketed rest).map fun (source, rest) => (.script source, rest)
    else if c = '"' then
      (Reader.ofScript (Script.parts .quote) rest).map fun (ps, rest) => (.quoted ps, rest)
    else if c = '{' then
      (Reader.ofScript Script.braced rest).map fun (text, rest) =>
        (.literal (.ofText text), rest)
    else if c.isDigit || c = '.' then number (c :: rest)
    else if isLetter c then bareWord (c :: rest)
    else .error .malformed

/-- The unary operators. -/
def unaryOperators : List (String × UnaryOp) :=
  [("-", .negate), ("+", .plus), ("!", .not)]

/-- An operand with unary operators and parentheses nested up to a depth. -/
def operand : Nat → Reader Expr
  | 0, _ => .error .malformed
  | depth + 1, cs =>
    match findOperator unaryOperators cs with
    | some (op, rest) =>
      match operand depth rest with
      | .error e => .error e
      | .ok (e, rest) => .ok (.unary op e, rest)
    | none => primary (choices (operand depth) depth) cs

/-- The expression that a text consists of. Every level of nesting takes a character, so its
length bounds the depth. -/
def parse (source : String) : Except SyntaxError Expr :=
  let cs := source.toList
  let depth := cs.length + 1
  match choices (operand depth) depth cs with
  | .error e => .error e
  | .ok (e, rest) => if (rest.dropWhile isBlank).isEmpty then .ok e else .error .malformed

end ScriptHost.Expr
