import ScriptHost.Cli.Stress
import ScriptHost.Proofs.Command.Variables
import ScriptHost.Proofs.Script.Literal

/-!
# One call of a stress run

The script of a call adds one to the counter of the interpreter and asks a closure of the host for
twice the number of the call. What it does to a world is told in full: the counter goes up, and two
commands and the closure are noted.
-/

namespace ScriptHost

namespace Cli.Stress

/-- The script of the call with a number. -/
def script (id : String) (j : Nat) : String :=
  s!"incr counter; {Callbacks.command id} {j}"

end Cli.Stress

/-! ### Reading the script -/

namespace Script

open WordList

/-- A bare word is kept by lists. -/
theorem isKept_of_not_needsQuoting {cs : List Char} (h : needsQuoting cs = false) :
    isKept cs = true := by
  obtain ⟨-, hplain⟩ := exists_of_not_needsQuoting h
  have hloose : ∀ c ∈ cs, isLoose c = false := fun c hc =>
    Bool.eq_false_iff.2 fun hc' => by
      have hspace := (hplain c hc).1
      rw [isSpace_of_isLoose hc'] at hspace
      cases hspace
  rw [isKept, Bool.or_eq_true]
  exact .inr (List.all_eq_true.2 fun c hc => by rw [hloose c hc]; rfl)

theorem quoteChars_of_not_needsQuoting {cs : List Char} (h : needsQuoting cs = false) :
    quoteChars cs = cs := by
  rw [quoteChars, h]
  rfl

/-- A text without blanks and special characters stands bare unless it looks like a comment. -/
theorem not_needsQuoting_cons {c : Char} {cs : List Char} (hhash : c ≠ '#')
    (hplain : ∀ d ∈ c :: cs, (isSpace d || isSpecial d) = false) :
    needsQuoting (c :: cs) = false := by
  have hall : ((c :: cs).any fun d => isSpace d || isSpecial d) = false :=
    List.any_eq_false.2 fun d hd => by
      rw [hplain d hd]
      exact Bool.false_ne_true
  rw [needsQuoting, hall]
  simpa using hhash

theorem plain_of_isDigit {c : Char} (hc : c.isDigit) : (isSpace c || isSpecial c) = false :=
  Number.of_isDigit (P := fun c => (isSpace c || isSpecial c) = false) (by decide) hc

theorem not_needsQuoting_toDigits (n : Nat) : needsQuoting (Nat.toDigits 10 n) = false := by
  obtain ⟨c, cs, heq, hc, hcs⟩ := Number.exists_toDigits_eq_cons n
  rw [heq]
  refine not_needsQuoting_cons ?_ fun d hd => plain_of_isDigit ?_
  · rintro rfl
    cases hc
  · rcases List.mem_cons.1 hd with rfl | hd
    · exact hc
    · exact hcs d hd

theorem not_needsQuoting_idOf (n : Nat) : needsQuoting (Callbacks.idOf n).toList = false := by
  have hid : (Callbacks.idOf n).toList = 'c' :: 'b' :: Nat.toDigits 10 n := by
    have htext : Callbacks.idOf n = "cb" ++ n.repr := rfl
    rw [htext, String.toList_append, Nat.toList_repr]
    rfl
  rw [hid]
  refine not_needsQuoting_cons (by decide) fun d hd => ?_
  rcases List.mem_cons.1 hd with rfl | hd
  · decide
  · rcases List.mem_cons.1 hd with rfl | hd
    · decide
    · exact plain_of_isDigit (Number.isDigit_of_mem_toDigits hd)

/-- The id of a registered closure stands bare. -/
theorem not_needsQuoting_of_find? {callbacks : Callbacks} {id : String} {closure : Closure}
    (h : callbacks.find? id = some closure) : needsQuoting id.toList = false := by
  obtain ⟨n, hn, -⟩ := Option.bind_eq_some_iff.1 h
  rw [Callbacks.number?] at hn
  obtain rfl : Callbacks.idOf n = id := by simpa using List.find?_some hn
  exact not_needsQuoting_idOf n

theorem toList_script {id : String} (hid : needsQuoting id.toList = false) (j : Nat) :
    (Cli.Stress.script id j).toList =
      line ["incr".toList, "counter".toList] ++
        ';' :: ' ' :: line ["host_callback".toList, id.toList, Nat.toDigits 10 j] := by
  have htext : Cli.Stress.script id j =
      "incr counter; " ++ ("host_callback " ++ id) ++ " " ++ j.repr := rfl
  have hincr : quoteChars "incr".toList = "incr".toList := by decide
  have hcounter : quoteChars "counter".toList = "counter".toList := by decide
  have hcallback : quoteChars "host_callback".toList = "host_callback".toList := by decide
  rw [htext]
  simp only [String.toList_append, Nat.toList_repr, line, List.map_cons, List.map_nil, hincr,
    hcounter, hcallback, quoteChars_of_not_needsQuoting hid,
    quoteChars_of_not_needsQuoting (not_needsQuoting_toDigits j), List.intercalate]
  simp

/-- The two commands of the script. -/
theorem parse_script {id : String} (hid : needsQuoting id.toList = false) (j : Nat) :
    parse (Cli.Stress.script id j) = .ok
      [["incr".toList, "counter".toList].map literalWord,
        ["host_callback".toList, id.toList, Nat.toDigits 10 j].map literalWord] := by
  have hdigits := isKept_of_not_needsQuoting (not_needsQuoting_toDigits j)
  have hcalls : staysLiteral ["host_callback".toList, id.toList, Nat.toDigits 10 j] = true := by
    simp only [staysLiteral, List.all_cons, isKept_of_not_needsQuoting hid, hdigits, List.all_nil]
    rfl
  have hsecond := statements_line (List.cons_ne_nil _ _) hcalls .nothing
  rw [List.append_nil] at hsecond
  have hfirst := statements_line (List.cons_ne_nil _ _)
    (show staysLiteral ["incr".toList, "counter".toList] = true by decide)
    (.commands (' ' :: line ["host_callback".toList, id.toList, Nat.toDigits 10 j]))
  rw [statements_separator (by decide), hsecond] at hfirst
  rw [parse, toList_script hid, hfirst]
  simp [statements, Except.map]

end Script

/-! ### What the script does -/

open Interpreter

variable {e : Engine} {w w' : World} {h : HandleId} {i : InterpId} {id name : String} {c : Nat}

/-- The interpreter with another value of the counter. -/
def Interpreter.count (r : Interpreter) (c : Nat) : Interpreter :=
  r.setVar "counter" (toString c)

theorem intArg_toString {c : Nat} (hc : c < 2 ^ 63) :
    Command.intArg (toString c) = pure (Int64.ofNat c) := by
  have hnonneg := Number.ofNat_nonneg hc
  have hleast : Int64.ofNat c ≠ Int64.minValue := by
    intro hleast
    rw [hleast] at hnonneg
    exact absurd hnonneg (by decide)
  rw [← Number.integerText_ofNat hc, intArg_integerText hleast]

theorem run_incr (hframes : (w.interp i).frames ≠ [])
    (hcounter : (w.interp i).var? "counter" = some (toString c)) (hc : c + 1 < 2 ^ 63) :
    (Command.incr i ["counter"]).run w =
      .ok (.ok (toString (c + 1))) (w.modifyInterp i fun r => r.count (c + 1)) := by
  have hsum : Number.integerText (Int64.ofNat c + 1) = toString (c + 1) := by
    rw [← Number.integerText_ofNat hc, Int64.ofNat_add]
    rfl
  rw [Command.incr, Command.incrBy, run_lookupVar_bind hframes, hcounter]
  simp only [intArg_toString (Nat.lt_of_succ_lt hc), pure_bind, hsum]
  exact run_writeVar hframes "counter" _

/-- Entering a callback and leaving it again changes nothing. -/
theorem leaveCallback_enterCallback (w : World) (what : Occurrence) :
    (w.enterCallback.record what).leaveCallback = w.record what := by
  have hthreads : (w.enterCallback.record what).leaveCallback.threads = w.threads := by
    refine (Table.modify_modify _ _ _ _).trans (Table.modify_eq_self fun thread _ => ?_)
    rfl
  have hworld : (w.enterCallback.record what).leaveCallback =
      { w.record what with threads := (w.enterCallback.record what).leaveCallback.threads } := rfl
  rw [hworld, hthreads]
  rfl

theorem doubled_toString {j : Nat} (hj : 2 * j < 2 ^ 63) :
    Closure.doubled (toString j) = .normal (some (toString (2 * j))) := by
  have hfield : Number.decimalField (-(Nat.pow 2 63 : Int)) (Nat.pow 2 63 - 1)
      (toString j).toList = .ok (j : Int) := by
    have hdigits : (toString j).toList = Nat.toDigits 10 j := Nat.toList_repr
    have hhigh : (j : Int) ≤ (2 ^ 63 : Nat) - 1 := by omega
    rw [hdigits]
    exact Number.decimalField_toDigits _ hhigh
  have htwice : 2 * Int64.ofInt j = Int64.ofNat (2 * j) := by
    rw [Int64.ofInt_eq_ofNat, Int64.ofNat_mul]
    rfl
  rw [Closure.doubled, hfield]
  dsimp only
  rw [htwice, Number.integerText_ofNat hj]

/-- The closure that doubles is run and noted. -/
theorem run_hostCallback {n j : Nat} {handle : Handle}
    (hhandle : w.handles.get? h = some handle) (hid : handle.callbacks.find? id = some .double)
    (hj : 2 * j < 2 ^ 63) :
    (Command.hostCallback ⟨n + 1, runWithin (n + 1)⟩ h [id, toString j]).run w =
      .ok (.ok (toString (2 * j))) (w.record (.ran .double)) := by
  have hcallback : runCallback ⟨n + 1, runWithin (n + 1)⟩ .double [toString j] w =
      .ok (Closure.doubled (toString j))
        (w.enterCallback.record (.ran .double)).leaveCallback := rfl
  rw [leaveCallback_enterCallback, doubled_toString hj] at hcallback
  have hdispatch : dispatch ⟨n + 1, runWithin (n + 1)⟩ h id [toString j] w =
      .ok (.ok (.normal (some (toString (2 * j))))) (w.record (.ran .double)) := by
    rw [dispatch, Act.get_bind, hhandle, Option.bind_some, hid]
    exact (Act.bind_of_ok hcallback _).trans rfl
  have hlift : (liftM (dispatch ⟨n + 1, runWithin (n + 1)⟩ h id [toString j]) :
      Exec (Except HostError Outcome)).run w =
        .ok (.ok (.ok (.normal (some (toString (2 * j)))))) (w.record (.ran .double)) :=
    (Act.bind_of_ok hdispatch _).trans rfl
  exact (Act.bind_of_ok hlift _).trans rfl

/-- A world in which the calls of a stress run can be executed, with the counter at some number. The
interpreter stands at its outermost level, where no command is running. -/
structure World.Counting (w : World) (h : HandleId) (i : InterpId) (id : String) (c : Nat) :
    Prop where
  callback : ∃ handle, w.handles.get? h = some handle ∧ handle.callbacks.find? id = some .double
  live : (w.interp i).deleted = false
  incr : (w.interp i).commands.get? "incr" = some (.builtin .incr)
  hostCallback : (w.interp i).commands.get? "host_callback" = some (.callback h)
  outermost : ∃ frame, (w.interp i).frames = [frame]
  depth : (w.interp i).depth = 0
  counter : (w.interp i).global? "counter" = some (toString c)

/-- What a call of a stress run does to a world. -/
def World.counted (w : World) (h : HandleId) (i : InterpId) (c : Nat) : World :=
  (((w.record (.invoked i "incr" (.builtin .incr))).modifyInterp i fun r => r.count (c + 1)).record
    (.invoked i "host_callback" (.callback h))).record (.ran .double)

namespace World.Counting

variable {j : Nat}

theorem frames_ne_nil (hw : w.Counting h i id c) : (w.interp i).frames ≠ [] := by
  obtain ⟨frame, hframes⟩ := hw.outermost
  rw [hframes]
  exact List.cons_ne_nil frame []

theorem var?_eq_global? (hw : w.Counting h i id c) (name : String) :
    (w.interp i).var? name = (w.interp i).global? name := by
  obtain ⟨frame, hframes⟩ := hw.outermost
  have hglobal : (w.interp i).refersGlobal name = true := by
    rw [refersGlobal, hframes]
    exact Bool.or_true _
  exact var?_of_refersGlobal hglobal

/-- The first command of a call counts. -/
theorem run_invokeWords_incr (hw : w.Counting h i id c) (hc : c + 1 < 2 ^ 63) :
    (invokeWords e i ["incr", "counter"]).run w = .ok (.ok (toString (c + 1)))
      ((w.record (.invoked i "incr" (.builtin .incr))).modifyInterp i fun r => r.count (c + 1)) := by
  have hdepth : (w.interp i).depth < maxDepth := hw.depth ▸ (by decide)
  have hrun : (Command.run e i "incr" ["counter"] (.builtin .incr)).run
      (w.beginCommand i "incr" (.builtin .incr) (w.interp i).depth) =
        .ok (.ok (toString (c + 1))) ((w.beginCommand i "incr" (.builtin .incr)
          (w.interp i).depth).modifyInterp i fun r => r.count (c + 1)) := by
    refine run_incr ?_ ?_ hc
    · rw [frames_beginCommand hw.live]
      exact hw.frames_ne_nil
    · rw [var?_beginCommand hw.live]
      exact (hw.var?_eq_global? "counter").trans hw.counter
  exact run_invokeWords_of_writes hw.live hw.incr hdepth hrun

/-- The second command of a call runs the closure. -/
theorem run_invokeWords_hostCallback {n : Nat} (hw : w.Counting h i id c)
    (hj : 2 * j < 2 ^ 63) :
    (invokeWords ⟨n + 1, runWithin (n + 1)⟩ i ["host_callback", id, toString j]).run w =
      .ok (.ok (toString (2 * j)))
        ((w.record (.invoked i "host_callback" (.callback h))).record (.ran .double)) := by
  obtain ⟨handle, hhandle, hid⟩ := hw.callback
  have hdepth : (w.interp i).depth < maxDepth := hw.depth ▸ (by decide)
  have hrun : (Command.run ⟨n + 1, runWithin (n + 1)⟩ i "host_callback" [id, toString j]
      (.callback h)).run (w.beginCommand i "host_callback" (.callback h) (w.interp i).depth) =
        .ok (.ok (toString (2 * j))) ((w.beginCommand i "host_callback" (.callback h)
          (w.interp i).depth).record (.ran .double)) :=
    run_hostCallback (n := n)
      (w := w.beginCommand i "host_callback" (.callback h) (w.interp i).depth) hhandle hid hj
  have hleave := congrArg (World.record · (.ran .double))
    (w.leave_beginCommand i "host_callback" (.callback h))
  rw [run_invokeWords_of_ends hw.live hw.hostCallback hdepth hrun]
  exact congrArg _ hleave

theorem record (hw : w.Counting h i id c) (what : Occurrence) :
    (w.record what).Counting h i id c :=
  ⟨hw.callback, hw.live, hw.incr, hw.hostCallback, hw.outermost, hw.depth, hw.counter⟩

/-- After the first command the counter is one higher. -/
theorem count (hw : w.Counting h i id c) :
    (w.modifyInterp i fun r => r.count (c + 1)).Counting h i id (c + 1) := by
  obtain ⟨frame, hframes⟩ := hw.outermost
  have hinterp := interp_modifyInterp_of_live hw.live fun r => r.count (c + 1)
  have hcount : (w.interp i).count (c + 1) =
      { w.interp i with
        frames := [{ frame with vars := frame.vars.insert "counter" (toString (c + 1)) }]
        writes := (w.interp i).writes.insert "counter"
          ((w.interp i).writes.getD "counter" 0 + 1) } := by
    simp [Interpreter.count, setVar, modifyFrameOf, refersGlobal, hframes, globalName, modifyGlobal,
      modifyLast, countWrite]
  rw [hcount] at hinterp
  refine ⟨hw.callback, ?_, ?_, ?_, ?_, ?_, ?_⟩
  · rw [hinterp]
    exact hw.live
  · rw [hinterp]
    exact hw.incr
  · rw [hinterp]
    exact hw.hostCallback
  · rw [hinterp]
    exact ⟨_, rfl⟩
  · rw [hinterp]
    exact hw.depth
  · rw [hinterp]
    exact (frame.vars.get?_insert "counter" "counter" _).trans (if_pos rfl)

theorem counted (hw : w.Counting h i id c) : (w.counted h i c).Counting h i id (c + 1) :=
  (((hw.record _).count).record _).record _

/-- A call of a stress run counts and answers twice its number. -/
theorem runWithin_script {n : Nat} (hw : w.Counting h i id c) (hc : c + 1 < 2 ^ 63)
    (hj : 2 * j < 2 ^ 63) :
    runWithin (n + 2) (.script i (Cli.Stress.script id j)) w =
      .ok (.ok (toString (2 * j))) (w.counted h i c) := by
  obtain ⟨handle, hhandle, hid⟩ := hw.callback
  have hparse := Script.parse_script (Script.not_needsQuoting_of_find? hid) j
  have hdigits : String.ofList (Nat.toDigits 10 j) = toString j := by
    rw [← Nat.toList_repr, String.ofList_toList]
    rfl
  have hfirst := hw.run_invokeWords_incr (e := ⟨n + 1, runWithin (n + 1)⟩) hc
  have hsecond := ((hw.record (.invoked i "incr" (.builtin .incr))).count).run_invokeWords_hostCallback
    (n := n) hj
  have hincr := Script.substituteAll_literalWord ⟨n + 1, runWithin (n + 1)⟩ i
    ["incr".toList, "counter".toList]
  have hcallback := Script.substituteAll_literalWord ⟨n + 1, runWithin (n + 1)⟩ i
    ["host_callback".toList, id.toList, Nat.toDigits 10 j]
  have heval : (evalScript ⟨n + 1, runWithin (n + 1)⟩ i (Cli.Stress.script id j)).run w =
      .ok (.ok (toString (2 * j))) (w.counted h i c) := by
    rw [evalScript, run_checkLive_bind hw.live, hparse]
    simp only [runStatements, hincr, hcallback, pure_bind, bind_pure]
    simp only [List.map_cons, List.map_nil, String.ofList_toList, hdigits]
    exact (Act.bind_of_ok hfirst _).trans hsecond
  exact heval

/-- The envelope of a call of a stress run. -/
theorem execute_script (hw : w.Counting h i id c) (hc : c + 1 < 2 ^ 63) (hj : 2 * j < 2 ^ 63) :
    Handle.execute engine i (.eval (Cli.Stress.script id j)) w =
      .ok (.ok (.text (toString (2 * j)))) (w.counted h i c) := by
  have hscript : engine.call (.script i (Cli.Stress.script id j)) w =
      .ok (.ok (toString (2 * j))) (w.counted h i c) :=
    hw.runWithin_script (n := ampleFuel - 2) hc hj
  have hfrom : evalFrom engine i (Cli.Stress.script id j) w =
      .ok (.ok (toString (2 * j))) (w.counted h i c) := by
    refine (Act.bind_of_ok hscript _).trans ?_
    have hfinish (completion : Completion) : finish i completion (w.counted h i c) =
        (if ((w.counted h i c).interp i).isBusy then pure completion
          else pure completion.outermost : Act Completion) (w.counted h i c) := rfl
    rw [hfinish]
    split <;> rfl
  exact (Act.bind_of_ok hfrom _).trans rfl

/-- Work of a stress run that the owner took out of the mailbox. -/
theorem executeQueued_script (hw : w.Counting h i id c) (hi : w.interpOf? h = some i)
    (hc : c + 1 < 2 ^ 63) (hj : 2 * j < 2 ^ 63) :
    Handle.executeQueued engine h (.eval (Cli.Stress.script id j)) w =
      .ok (.ok (.text (toString (2 * j))), none) (w.counted h i c) := by
  have hattempt := Act.attempt_of_ok (hw.execute_script hc hj)
  rw [Handle.executeQueued, Act.get_bind, hi]
  exact (Act.bind_of_ok hattempt _).trans rfl

/-- Nothing else counts than the handle with its closure and the interpreter. -/
theorem congr (hw : w.Counting h i id c)
    (hcallback : ∃ handle, w'.handles.get? h = some handle ∧ handle.callbacks.find? id = some .double)
    (hinterp : w'.interp i = w.interp i) : w'.Counting h i id c :=
  ⟨hcallback, hinterp ▸ hw.live, hinterp ▸ hw.incr, hinterp ▸ hw.hostCallback,
    hinterp ▸ hw.outermost, hinterp ▸ hw.depth, hinterp ▸ hw.counter⟩

end World.Counting

end ScriptHost
