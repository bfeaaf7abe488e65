import ScriptHost.Proofs.Script.Readers

/-!
# Reading scripts with a cursor

The readers of scripts once more, by positions in the text instead of the characters that are left.
Here it is visible what those take for granted: a position may move past the end, the text of a word
in braces is a slice between two positions, and a loop ends only if its rounds move the cursor. A
slice that is not within the text and a loop that takes too many rounds are faults of their own. The
cursor keeps all positions it was moved to, and notes the calls for words, statements and comments.
-/

namespace ScriptHost.Script

open Text

/-- What is read by a call that has to move the cursor. -/
inductive Callee
  | word
  | statement
  | comment
deriving DecidableEq, Repr

/-- A call: where the cursor was before it and after it, and why it failed if it did. -/
structure Call where
  callee : Callee
  start : Nat
  stop : Nat
  failure : Option SyntaxError
deriving DecidableEq, Repr

/-- A position in a text with the positions and the calls before it, the last ones first. -/
structure Cursor where
  pos : Nat := 0
  trail : List Nat := []
  calls : List Call := []
deriving DecidableEq, Repr

/-- Why there is nothing to read. -/
inductive Fault
  | malformed (error : SyntaxError)
  /-- A slice is not within the text. -/
  | outOfRange
  /-- A loop takes too many rounds. -/
  | endless
deriving DecidableEq, Repr

/-- Code that reads a text with a cursor. -/
abbrev Scan := EStateM Fault Cursor

namespace Cursor

variable {α : Type} (text : List Char) (limit : Nat)

/-- Go to a position. -/
def goTo (c : Cursor) (pos : Nat) : Cursor :=
  { c with pos, trail := pos :: c.trail }

/-- Note a call that is over. -/
def note (c : Cursor) (call : Call) : Cursor :=
  { c with calls := call :: c.calls }

/-! ### Single steps -/

/-- The position. -/
def position : Scan Nat := return (← get).pos

/-- The character at some distance from the cursor. -/
def peek (offset : Nat) : Scan (Option Char) := return text[(← get).pos + offset]?

/-- Move on. -/
def advance (n : Nat) : Scan Unit := modify fun c => c.goTo (c.pos + n)

/-- Move to a position. -/
def moveTo (pos : Nat) : Scan Unit := modify fun c => c.goTo pos

/-- The characters between two positions. -/
def slice (start stop : Nat) : Scan (List Char) :=
  if start ≤ stop ∧ stop ≤ text.length then return (text.drop start).take (stop - start)
  else throw .outOfRange

/-- Report that the text is no script. -/
def reject (error : SyntaxError) : Scan α := throw (.malformed error)

/-- Run some code and note it as a call, unless it ends with a fault of its own. -/
def noted (callee : Callee) (code : Scan α) : Scan α := fun c =>
  match code c with
  | .ok a c' => .ok a (c'.note ⟨callee, c.pos, c'.pos, none⟩)
  | .error (.malformed error) c' =>
    .error (.malformed error) (c'.note ⟨callee, c.pos, c'.pos, some error⟩)
  | .error fault c' => .error fault c'

/-! ### Braces, brackets and names -/

/-- Move to the brace that closes `depth` open ones. -/
def seekBrace : Nat → Nat → Scan Unit
  | 0, _ => throw .endless
  | rounds + 1, depth => do
    match ← peek text 0 with
    | none => reject .missingBrace
    | some d =>
      if d = '\\' then do
        advance 1
        advance 1
        seekBrace rounds depth
      else if d = '}' ∧ depth ≤ 1 then return
      else do
        advance 1
        seekBrace rounds (if d = '{' then depth + 1 else if d = '}' then depth - 1 else depth)

/-- Move to the bracket that closes `depth` open ones, inside `braces` open braces. -/
def seekBracket : Nat → Nat → Nat → Scan Unit
  | 0, _, _ => throw .endless
  | rounds + 1, depth, braces => do
    match ← peek text 0 with
    | none => reject .missingBracket
    | some d =>
      if d = '\\' then do
        advance 1
        advance 1
        seekBracket rounds depth braces
      else if d = ']' ∧ braces = 0 ∧ depth ≤ 1 then return
      else do
        advance 1
        seekBracket rounds
          (if braces ≠ 0 then depth
            else if d = '[' then depth + 1 else if d = ']' then depth - 1 else depth)
          (if d = '{' then braces + 1 else if d = '}' then braces - 1 else braces)

/-- The text between an opening character at the cursor and the closing one that is moved to. -/
def enclosed (seek : Scan Unit) : Scan String := do
  advance 1
  let start ← position
  seek
  let stop ← position
  let inner ← slice text start stop
  advance 1
  return String.ofList inner

/-- The text in braces. -/
def braced : Scan String :=
  enclosed text (seekBrace text limit 1)

/-- The script in brackets. -/
def bracketed : Scan String :=
  enclosed text (seekBracket text limit 1 0)

/-- The index of the next closing brace. -/
def braceIndex : Nat → Nat → Scan Nat
  | 0, _ => throw .endless
  | rounds + 1, i =>
    match text[i]? with
    | none => reject .missingNameBrace
    | some d => if d = '}' then return i else braceIndex rounds (i + 1)

/-- The index where a run of letters, numerals, underscores and double colons ends. -/
def nameEnd : Nat → Nat → Scan Nat
  | 0, _ => throw .endless
  | rounds + 1, i =>
    match text[i]? with
    | none => return i
    | some d =>
      if isLetterOrNumeral d || d = '_' then nameEnd rounds (i + 1)
      else if d = ':' ∧ text[i + 1]? = some ':' then nameEnd rounds (i + 2)
      else return i

/-- The variable name at a dollar sign. The cursor stays where it is if there is none. -/
def variableName : Scan (Option String) := do
  let i := (← position) + 1
  if text[i]? = some '{' then do
    let stop ← braceIndex text limit (i + 1)
    let name ← slice text (i + 1) stop
    moveTo (stop + 1)
    return some (String.ofList name)
  else do
    let stop ← nameEnd text limit i
    if stop = i then return none
    else do
      let name ← slice text i stop
      moveTo stop
      return some (String.ofList name)

/-! ### Words -/

/-- How many blanks there are from an index on, after the `n` before it. -/
def indent : Nat → Nat → Nat → Scan Nat
  | 0, _, _ => throw .endless
  | rounds + 1, i, n =>
    match text[i + n]? with
    | none => return n
    | some d => if isIndent d then indent rounds i (n + 1) else return n

/-- The character that the text after a backslash begins with, and how long it is written. -/
def backslash (i : Nat) : Scan (Char × Nat) :=
  match text[i]? with
  | none => return ('\\', 0)
  | some d =>
    if d = '\n' then do
      let n ← indent text limit i 1
      return (' ', n)
    else return (escaped d, 1)

/-- The parts that are complete when the literal text between them ends. -/
def flush (literal : List Char) (ps : List Part) : List Part :=
  if literal.isEmpty then ps else ps ++ [.text (String.ofList literal)]

/-- The parts up to a stop, after those that are complete and some literal text. -/
def partsFrom (stop : Stop) : Nat → List Char → List Part → Scan Word
  | 0, _, _ => throw .endless
  | rounds + 1, literal, ps => do
    match ← peek text 0 with
    | none => if stop = .quote then reject .missingQuote else return flush literal ps
    | some d =>
      if stop = .quote ∧ d = '"' then do
        advance 1
        return flush literal ps
      else if stop = .word ∧ (isInlineBlank d || d = '\n' || d = ';') then
        return flush literal ps
      else if d = '\\' then do
        let next ← peek text 1
        if stop = .word ∧ next = some '\n' then return flush literal ps
        else do
          let i ← position
          let (decoded, consumed) ← backslash text limit (i + 1)
          advance (1 + consumed)
          partsFrom stop rounds (literal ++ [decoded]) ps
      else if d = '$' then do
        match ← variableName text limit with
        | some name => partsFrom stop rounds [] (flush literal ps ++ [.variable name])
        | none => do
          advance 1
          partsFrom stop rounds (literal ++ ['$']) ps
      else if d = '[' then do
        let source ← bracketed text limit
        partsFrom stop rounds [] (flush literal ps ++ [.script source])
      else do
        advance 1
        partsFrom stop rounds (literal ++ [d]) ps

/-- Fail unless a word may end here. -/
def expectWordEnd (error : SyntaxError) : Scan Unit := do
  match ← peek text 0 with
  | none => return
  | some d =>
    let next ← peek text 1
    if isInlineBlank d || d = '\n' || d = ';' then return
    else if d = '\\' ∧ next = some '\n' then return
    else reject error

/-- The word at the cursor. -/
def word : Scan Word := do
  let first ← peek text 0
  if first = some '{' then do
    let inner ← braced text limit
    expectWordEnd text .afterBrace
    return [.text inner]
  else if first = some '"' then do
    advance 1
    let ps ← partsFrom text limit .quote limit [] []
    expectWordEnd text .afterQuote
    return ps
  else partsFrom text limit .word limit [] []

/-! ### Statements -/

/-- Skip the blanks between two words. -/
def skipInline : Nat → Scan Unit
  | 0 => throw .endless
  | rounds + 1 => do
    match ← peek text 0 with
    | none => return
    | some d =>
      let next ← peek text 1
      if isInlineBlank d then do
        advance 1
        skipInline rounds
      else if d = '\\' ∧ next = some '\n' then do
        advance 2
        skipInline rounds
      else return

/-- The words up to the end of a statement, after those that are read. -/
def statementFrom : Nat → Statement → Scan Statement
  | 0, _ => throw .endless
  | rounds + 1, ws => do
    skipInline text limit
    match ← peek text 0 with
    | none => return ws
    | some d =>
      if d = '\n' ∨ d = ';' then do
        advance 1
        return ws
      else do
        let w ← noted .word (word text limit)
        statementFrom rounds (ws ++ [w])

/-- Skip a comment. -/
def skipComment : Nat → Scan Unit
  | 0 => throw .endless
  | rounds + 1 => do
    match ← peek text 0 with
    | none => return
    | some d =>
      advance 1
      if d = '\\' then do
        advance 1
        skipComment rounds
      else if d = '\n' then return
      else skipComment rounds

/-- Skip what stands between statements. -/
def skipSeparators : Nat → Scan Unit
  | 0 => throw .endless
  | rounds + 1 => do
    match ← peek text 0 with
    | none => return
    | some d =>
      if isSeparator d then do
        advance 1
        skipSeparators rounds
      else return

/-- The statements up to the end of the text, after those that are read. -/
def statementsFrom : Nat → List Statement → Scan (List Statement)
  | 0, _ => throw .endless
  | rounds + 1, ss => do
    skipSeparators text limit
    match ← peek text 0 with
    | none => return ss
    | some d =>
      if d = '#' then do
        noted .comment (skipComment text limit)
        statementsFrom rounds ss
      else do
        let s ← noted .statement (statementFrom text limit limit [])
        statementsFrom rounds (if s.isEmpty then ss else ss ++ [s])

end Cursor

/-- Read a script with a cursor, with a bound for the rounds of each loop. -/
def scan (source : String) (limit : Nat) : EStateM.Result Fault Cursor (List Statement) :=
  Cursor.statementsFrom source.toList limit limit [] {}

/-! ### Readings with a cursor -/

/-- What is required of a call in a reading that ends in some way: it moved the cursor, unless it
stood at the name of a variable without the closing brace, and it failed only if the reading did. -/
structure Call.Fine (failure : Option SyntaxError) (call : Call) : Prop where
  moved : call.start < call.stop ∨ call.failure = some .missingNameBrace
  failure : call.failure = none ∨ call.failure = failure

theorem Call.Fine.lt_of_none {failure : Option SyntaxError} {call : Call} (h : call.Fine failure)
    (hnone : call.failure = none) : call.start < call.stop := by
  refine h.moved.resolve_right fun hsome => ?_
  rw [hnone] at hsome
  cases hsome

theorem Call.Fine.failure_of_some {failure : Option SyntaxError} {call : Call}
    {error : SyntaxError} (h : call.Fine failure) (hsome : call.failure = some error) :
    failure = some error := by
  rcases h.failure with hnone | hfailure
  · rw [hnone] at hsome
    cases hsome
  · exact hfailure.symm.trans hsome

/-- What a reading of a text that ends in some way does to its cursor. -/
structure Cursor.Leads (text : List Char) (failure : Option SyntaxError) (c c' : Cursor) : Prop where
  pos : c.pos ≤ c'.pos
  trail : ∀ p ∈ c'.trail, p ∈ c.trail ∨ p ≤ text.length + 1
  calls : ∀ call ∈ c'.calls, call ∈ c.calls ∨ call.Fine failure

namespace Cursor

variable {α β : Type} {text cs rest : List Char} {limit start rounds : Nat} {c c' c'' : Cursor}
  {failure : Option SyntaxError} {error : SyntaxError}

theorem Leads.refl (text : List Char) (failure : Option SyntaxError) (c : Cursor) :
    Leads text failure c c :=
  ⟨le_rfl, fun _ => .inl, fun _ => .inl⟩

theorem Leads.trans (h : Leads text none c c') (h' : Leads text failure c' c'') :
    Leads text failure c c'' := by
  refine ⟨h.pos.trans h'.pos, ?_, ?_⟩
  · intro p hp
    rcases h'.trail p hp with hp | hle
    · exact h.trail p hp
    · exact .inr hle
  · intro call hcall
    rcases h'.calls call hcall with hcall | hfine
    · refine (h.calls call hcall).imp_right fun hfine => ⟨hfine.moved, .inl ?_⟩
      exact hfine.failure.elim id id
    · exact .inr hfine

theorem leads_goTo {pos : Nat} (hfrom : c.pos ≤ pos) (hpos : pos ≤ text.length + 1) :
    Leads text failure c (c.goTo pos) := by
  refine ⟨hfrom, ?_, fun _ => .inl⟩
  intro p hp
  rcases List.mem_cons.1 hp with rfl | hp
  · exact .inr hpos
  · exact .inl hp

theorem Leads.note {call : Call} (h : Leads text failure c c') (hcall : call.Fine failure) :
    Leads text failure c (c'.note call) := by
  refine ⟨h.pos, h.trail, ?_⟩
  intro other hother
  rcases List.mem_cons.1 hother with rfl | hother
  · exact .inr hcall
  · exact h.calls other hother

theorem Leads.of_start (h : Leads text failure {} c) :
    (∀ p ∈ c.trail, p ≤ text.length + 1) ∧ ∀ call ∈ c.calls, call.Fine failure :=
  ⟨fun p hp => (h.trail p hp).resolve_left List.not_mem_nil,
    fun call hcall => (h.calls call hcall).resolve_left List.not_mem_nil⟩

/-! ### Positions -/

theorem getElem?_of_drop_nil {p : Nat} (h : text.drop p = []) : text[p]? = none := by
  rw [← List.head?_drop, h]
  rfl

theorem getElem?_of_drop_cons {p : Nat} {d : Char} (h : text.drop p = d :: cs) :
    text[p]? = some d := by
  rw [← List.head?_drop, h]
  rfl

theorem lt_of_drop_cons {p : Nat} {d : Char} (h : text.drop p = d :: cs) : p < text.length := by
  have hlength := congrArg List.length h
  rw [List.length_drop, List.length_cons] at hlength
  omega

theorem drop_add_of_drop {p : Nat} {ds : List Char} (h : text.drop p = ds ++ cs) :
    text.drop (p + ds.length) = cs := by
  rw [← List.drop_drop, h, List.drop_left]

theorem drop_succ_of_drop_cons {p : Nat} {d : Char} (h : text.drop p = d :: cs) :
    text.drop (p + 1) = cs :=
  drop_add_of_drop (List.singleton_append ▸ h)

theorem length_lt_of_drop {p : Nat} (h : text.drop p = cs) (hlimit : text.length < limit) :
    cs.length < limit := by
  rw [← h, List.length_drop]
  exact lt_of_le_of_lt (Nat.sub_le _ _) hlimit

/-- Where less is left of the text, the position is greater. -/
theorem pos_lt_of_length_lt {p q : Nat} (hp : text.drop p = cs) (hq : text.drop q = rest)
    (hlt : rest.length < cs.length) : p < q := by
  rw [← hp, ← hq, List.length_drop, List.length_drop] at hlt
  omega

/-- The characters between two positions are those that are left at the first one but not at the
other. -/
theorem slice_of_drop {p q : Nat} {inner : List Char} (hp : text.drop p = inner ++ rest)
    (hq : text.drop q = rest) (hpq : p ≤ q) (hlength : q ≤ text.length) (c : Cursor) :
    slice text p q c = .ok inner c := by
  have hsplit := congrArg List.length hp
  have hrest := congrArg List.length hq
  rw [List.length_append, List.length_drop] at hsplit
  rw [List.length_drop] at hrest
  have hinner : q - p = inner.length := by omega
  rw [slice, if_pos ⟨hpq, hlength⟩, hp, hinner, List.take_left]
  rfl

/-! ### What code reads -/

/-- Code reads with its cursor what a reader of characters reads, and it does not fail where it was to
start from, unless it is the name of a variable that fails. -/
def Reads (text : List Char) (start : Nat) (code : Scan α) (c : Cursor) :
    Except SyntaxError (α × List Char) → Prop
  | .ok (a, rest) => ∃ c', code c = .ok a c' ∧ Leads text none c c' ∧ text.drop c'.pos = rest
  | .error error => ∃ c', code c = .error (.malformed error) c' ∧ Leads text (some error) c c' ∧
      (start < c'.pos ∨ error = .missingNameBrace)

variable {code : Scan α} {f : α → Scan β} {a : α} {r : Except SyntaxError (α × List Char)}
  {s : Except SyntaxError (β × List Char)}

theorem Reads.of_step {code' : Scan α} (h : Reads text start code' c' r) (hrun : code c = code' c')
    (hleads : Leads text none c c') : Reads text start code c r := by
  match r, h with
  | .ok (a, rest), ⟨c'', hcode, hleads', hrest⟩ =>
    exact ⟨c'', hrun.trans hcode, hleads.trans hleads', hrest⟩
  | .error error, ⟨c'', hcode, hleads', hmoved⟩ =>
    exact ⟨c'', hrun.trans hcode, hleads.trans hleads', hmoved⟩

theorem Reads.pure (h : text.drop c.pos = rest) (a : α) :
    Reads text start (pure a) c (.ok (a, rest)) :=
  ⟨c, rfl, .refl text none c, h⟩

theorem Reads.reject (h : start < c.pos) (error : SyntaxError) :
    Reads (α := α) text start (reject error) c (.error error) :=
  ⟨c, rfl, .refl text _ c, .inl h⟩

theorem Reads.bind (h : Reads text start code c (.ok (a, rest)))
    (hf : ∀ c', c.pos ≤ c'.pos → text.drop c'.pos = rest → Reads text start (f a) c' s) :
    Reads text start (code >>= f) c s := by
  obtain ⟨c', hcode, hleads, hrest⟩ := h
  refine (hf c' hleads.pos hrest).of_step ?_ hleads
  simp only [Bind.bind, EStateM.bind, hcode]

theorem Reads.bind_error (h : Reads text start code c (.error error)) (f : α → Scan β) :
    Reads text start (code >>= f) c (.error error) := by
  obtain ⟨c', hcode, hleads, hmoved⟩ := h
  refine ⟨c', ?_, hleads, hmoved⟩
  simp only [Bind.bind, EStateM.bind, hcode]

theorem Reads.advance {n : Nat} {f : Unit → Scan β} (hpos : c.pos + n ≤ text.length + 1)
    (h : Reads text start (f ()) (c.goTo (c.pos + n)) s) :
    Reads text start (Cursor.advance n >>= f) c s :=
  h.of_step rfl (leads_goTo (Nat.le_add_right c.pos n) hpos)

theorem Reads.noted {callee : Callee} (h : Reads text c.pos code c r)
    (hrest : ∀ a rest, r = .ok (a, rest) → rest.length < (text.drop c.pos).length)
    (hstart : start ≤ c.pos) : Reads text start (noted callee code) c r := by
  match r, h with
  | .ok (a, rest), ⟨c', hcode, hleads, hdrop⟩ =>
    have hlt := pos_lt_of_length_lt rfl hdrop (hrest a rest rfl)
    refine ⟨c'.note ⟨callee, c.pos, c'.pos, none⟩, ?_, hleads.note ⟨.inl hlt, .inl rfl⟩, hdrop⟩
    simp only [Cursor.noted, hcode]
  | .error error, ⟨c', hcode, hleads, hmoved⟩ =>
    refine ⟨c'.note ⟨callee, c.pos, c'.pos, some error⟩, ?_, hleads.note ⟨?_, .inr rfl⟩, ?_⟩
    · simp only [Cursor.noted, hcode]
    · exact hmoved.imp_right (congrArg some)
    · exact hmoved.imp_left hstart.trans_lt

theorem Reads.peek_nil {f : Option Char → Scan β} (hcs : text.drop c.pos = [])
    (h : Reads text start (f none) c s) : Reads text start (peek text 0 >>= f) c s :=
  h.of_step (congrArg (f · c) (getElem?_of_drop_nil hcs)) (.refl text none c)

theorem Reads.peek_cons {f : Option Char → Scan β} {d : Char} (hcs : text.drop c.pos = d :: cs)
    (h : Reads text start (f (some d)) c s) : Reads text start (peek text 0 >>= f) c s :=
  h.of_step (congrArg (f · c) (getElem?_of_drop_cons hcs)) (.refl text none c)

theorem Reads.peek_next {f : Option Char → Scan β} {d : Char} (hcs : text.drop c.pos = d :: cs)
    (h : Reads text start (f cs.head?) c s) : Reads text start (peek text 1 >>= f) c s := by
  refine h.of_step (congrArg (f · c) ?_) (.refl text none c)
  rw [← List.head?_drop, drop_succ_of_drop_cons hcs]

/-- Code that leaves the cursor alone. -/
theorem Reads.run (hrun : code c = .ok a c) (h : Reads text start (f a) c s) :
    Reads text start (code >>= f) c s := by
  refine h.of_step ?_ (.refl text none c)
  simp only [Bind.bind, EStateM.bind, hrun]

theorem Reads.position {f : Nat → Scan β} (h : Reads text start (f c.pos) c s) :
    Reads text start (Cursor.position >>= f) c s :=
  h.of_step rfl (.refl text none c)

/-- Moving past a character that is there. -/
theorem Reads.advance_cons {f : Unit → Scan β} {d : Char} (hcs : text.drop c.pos = d :: cs)
    (h : ∀ c' : Cursor, c'.pos = c.pos + 1 → text.drop c'.pos = cs →
      Reads text start (f ()) c' s) :
    Reads text start (Cursor.advance 1 >>= f) c s := by
  have hlt := lt_of_drop_cons hcs
  exact .advance (by omega) (h _ rfl (drop_succ_of_drop_cons hcs))

/-- Moving past a character that is there and the next one, even if that is not. -/
theorem Reads.advance_hidden {f : Unit → Scan β} {d : Char} (hcs : text.drop c.pos = d :: cs)
    (h : ∀ c' : Cursor, c'.pos = c.pos + 2 → text.drop c'.pos = cs.tail →
      Reads text start (f ()) c' s) :
    Reads text start (Cursor.advance 1 >>= fun _ => Cursor.advance 1 >>= f) c s := by
  have hlt := lt_of_drop_cons hcs
  refine .advance (by omega) (.advance (Nat.succ_le_succ hlt) (h _ rfl ?_))
  rw [← drop_succ_of_drop_cons hcs, List.tail_drop]
  rfl

end Cursor

end ScriptHost.Script
