import ScriptHost.Text.Escape

/-!
# Lists of words

A list is a text of words between blanks. A word in braces is taken as it stands, a word in double
quotes and a bare word may hold backslash sequences. `split` reads the words and `merge` writes
them so that they are read back.
-/

namespace ScriptHost.WordList

open Text

/-- The characters between words. -/
def isSpace (c : Char) : Bool :=
  c = ' ' || c = '\t' || c = '\n' || c = '\r' || c = '\x0b' || c = '\x0c'

/-- Why a text is no list. -/
inductive FormatError
  | openBrace
  | openQuote
  | afterBrace
  | afterQuote
deriving DecidableEq, Repr

/-- The message of a format error. -/
def FormatError.message : FormatError → String
  | .openBrace => "unmatched open brace in list"
  | .openQuote => "unmatched open quote in list"
  | .afterBrace => "list element in braces followed by non-whitespace"
  | .afterQuote => "list element in quotes followed by non-whitespace"

/-! ### Reading -/

/-- The word up to the brace that closes it, when `depth` more braces are open inside, and what
follows that brace. A backslash hides the next character from the count. -/
def bracedWord (depth : Nat) : List Char → Option (List Char × List Char)
  | [] => none
  | '\\' :: [] => none
  | '\\' :: c :: rest => (bracedWord depth rest).map fun (word, rest) => ('\\' :: c :: word, rest)
  | '{' :: rest => (bracedWord (depth + 1) rest).map fun (word, rest) => ('{' :: word, rest)
  | '}' :: rest =>
    match depth with
    | 0 => some ([], rest)
    | depth + 1 => (bracedWord depth rest).map fun (word, rest) => ('}' :: word, rest)
  | c :: rest => (bracedWord depth rest).map fun (word, rest) => (c :: word, rest)

/-- The word up to the quote that closes it, and what follows that quote. -/
def quotedWord : List Char → Option (List Char × List Char)
  | [] => none
  | '"' :: rest => some ([], rest)
  | '\\' :: rest =>
    (quotedWord (decodeEscape rest).2).map fun (word, rest') =>
      ((decodeEscape rest).1 :: word, rest')
  | c :: rest => (quotedWord rest).map fun (word, rest) => (c :: word, rest)
termination_by cs => cs.length
decreasing_by
  · simpa using Nat.lt_succ_of_le (length_decodeEscape_le _)
  · simp

/-- The word up to the next blank, and what follows it. -/
def bareWord : List Char → List Char × List Char
  | [] => ([], [])
  | '\\' :: rest =>
    let (word, rest') := bareWord (decodeEscape rest).2
    ((decodeEscape rest).1 :: word, rest')
  | c :: rest =>
    if isSpace c then ([], c :: rest)
    else
      let (word, rest) := bareWord rest
      (c :: word, rest)
termination_by cs => cs.length
decreasing_by
  · simpa using Nat.lt_succ_of_le (length_decodeEscape_le _)
  · simp

/-- Whether a word that is grouped may end here. -/
def atWordEnd : List Char → Bool
  | [] => true
  | c :: _ => isSpace c

/-- The word that a text begins with, and what follows it. -/
def firstWord : List Char → Except FormatError (List Char × List Char)
  | '{' :: rest =>
    match bracedWord 0 rest with
    | none => .error .openBrace
    | some (word, rest) => if atWordEnd rest then .ok (word, rest) else .error .afterBrace
  | '"' :: rest =>
    match quotedWord rest with
    | none => .error .openQuote
    | some (word, rest) => if atWordEnd rest then .ok (word, rest) else .error .afterQuote
  | cs => .ok (bareWord cs)

theorem length_bracedWord_lt {depth : Nat} {cs word rest : List Char}
    (h : bracedWord depth cs = some (word, rest)) : rest.length < cs.length := by
  fun_induction bracedWord depth cs generalizing word rest with
  | case1 | case2 => simp at h
  | case3 _ _ _ ih | case4 _ _ ih | case6 _ _ ih | case7 _ _ _ _ _ _ _ ih =>
    obtain ⟨⟨_, rest⟩, hw, he⟩ := Option.map_eq_some_iff.1 h
    cases he
    have := ih hw
    simp only [List.length_cons]
    omega
  | case5 => simp_all

theorem length_quotedWord_lt {cs word rest : List Char}
    (h : quotedWord cs = some (word, rest)) : rest.length < cs.length := by
  fun_induction quotedWord cs generalizing word rest with
  | case1 => simp at h
  | case2 => simp_all
  | case3 cs ih =>
    obtain ⟨⟨_, rest⟩, hw, he⟩ := Option.map_eq_some_iff.1 h
    cases he
    have := ih hw
    have := length_decodeEscape_le cs
    simp only [List.length_cons]
    omega
  | case4 _ _ _ _ ih =>
    obtain ⟨⟨_, rest⟩, hw, he⟩ := Option.map_eq_some_iff.1 h
    cases he
    have := ih hw
    simp only [List.length_cons]
    omega

theorem length_bareWord_le (cs : List Char) : (bareWord cs).2.length ≤ cs.length := by
  fun_induction bareWord cs with
  | case1 => simp
  | case2 cs word rest h ih =>
    have := length_decodeEscape_le cs
    simp only [h, List.length_cons] at ih ⊢
    omega
  | case3 => simp
  | case4 c cs _ _ word rest h ih =>
    simp only [h, List.length_cons] at ih ⊢
    omega

theorem length_bareWord_cons_le {c : Char} (cs : List Char) (h : isSpace c = false) :
    (bareWord (c :: cs)).2.length ≤ cs.length := by
  by_cases hc : c = '\\'
  · subst hc
    simpa [bareWord] using
      Nat.le_trans (length_bareWord_le _) (length_decodeEscape_le cs)
  · simpa [bareWord, hc, h] using length_bareWord_le cs

theorem length_firstWord_lt {c : Char} {cs word rest : List Char} (hc : isSpace c = false)
    (h : firstWord (c :: cs) = .ok (word, rest)) : rest.length < (c :: cs).length := by
  unfold firstWord at h
  split at h
  · next hcs =>
    cases hcs
    split at h
    · simp at h
    · next hw =>
      split at h
      · cases h
        exact Nat.lt_succ_of_lt (length_bracedWord_lt hw)
      · simp at h
  · next hcs =>
    cases hcs
    split at h
    · simp at h
    · next hw =>
      split at h
      · cases h
        exact Nat.lt_succ_of_lt (length_quotedWord_lt hw)
      · simp at h
  · have := length_bareWord_cons_le cs hc
    simp only [Except.ok.injEq] at h
    rw [h] at this
    exact Nat.lt_succ_of_le this

theorem head?_dropWhile {α : Type} (p : α → Bool) (xs : List α) :
    ∀ x ∈ (xs.dropWhile p).head?, p x = false := by
  induction xs with
  | nil => simp
  | cons x xs ih =>
    by_cases h : p x
    · simpa [h] using ih
    · simp [h]

/-- The words of a list. -/
def words (cs : List Char) : Except FormatError (List (List Char)) :=
  match _hcs : cs.dropWhile isSpace with
  | [] => .ok []
  | c :: rest =>
    match _hw : firstWord (c :: rest) with
    | .error e => .error e
    | .ok (word, rest') => (words rest').map (word :: ·)
termination_by cs.length
decreasing_by
  have hlt := length_firstWord_lt (head?_dropWhile isSpace cs c (by simp [_hcs])) _hw
  have hle := length_dropWhile_le isSpace cs
  rw [_hcs] at hle
  omega

/-- The words of a text that is a list. -/
def split (text : String) : Except FormatError (List String) :=
  (words text.toList).map (·.map String.ofList)

/-! ### Writing -/

/-- The characters that a bare word must not hold. -/
def isSpecial (c : Char) : Bool :=
  c = '{' || c = '}' || c = '"' || c = '\\' || c = '[' || c = ']' || c = '$' || c = ';'

/-- Whether a word cannot stand bare: it is empty, looks like a comment or holds a blank or a
special character. -/
def needsQuoting (cs : List Char) : Bool :=
  cs.isEmpty || cs.head? = some '#' || cs.any fun c => isSpace c || isSpecial c

/-- Whether the braces of a word close again, `depth` of them being open before it, and no
backslash hides the end. -/
def balancedFrom (depth : Nat) : List Char → Bool
  | [] => depth = 0
  | '\\' :: rest =>
    match rest with
    | [] => false
    | _ :: rest => balancedFrom depth rest
  | '{' :: rest => balancedFrom (depth + 1) rest
  | '}' :: rest =>
    match depth with
    | 0 => false
    | depth + 1 => balancedFrom depth rest
  | _ :: rest => balancedFrom depth rest

/-- Whether a word can stand in braces. -/
def balanced (cs : List Char) : Bool :=
  balancedFrom 0 cs

/-- A character of a word that stands neither bare nor in braces. -/
def escape (c : Char) : List Char :=
  if c = '\n' then ['\\', 'n']
  else if c = '\t' then ['\\', 't']
  else if c = '\r' then ['\\', 'r']
  else if c = ' ' || isSpecial c || c = '#' then ['\\', c]
  else [c]

/-- The written form of a word: bare if it can be, else in braces if they balance, else with
backslashes. -/
def quoteChars (cs : List Char) : List Char :=
  if needsQuoting cs then
    if balanced cs then '{' :: cs ++ ['}'] else cs.flatMap escape
  else cs

/-- The written form of a word. -/
def quote (word : String) : String :=
  String.ofList (quoteChars word.toList)

/-- The list of the given words. -/
def merge (words : List String) : String :=
  " ".intercalate (words.map quote)

end ScriptHost.WordList
