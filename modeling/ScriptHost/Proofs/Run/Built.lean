import ScriptHost.Proofs.Run.Action

/-!
# What the code of scripts is built of

A script runs commands, and a built-in command makes small changes of its own interpreter, evaluates
scripts in it or in a child, and waits. Code that is built of such pieces is described here, so what
holds of the pieces and is kept when they are put together holds of every script. The commands that
serve what is pending or call the host are left as they are: their code comes from elsewhere.
-/

namespace ScriptHost

open Interpreter

/-- Whether a command serves what is pending or calls the host. -/
def Command.isOutward : Command → Bool
  | .builtin .update => true
  | .builtin .vwait => true
  | .builtin _ => false
  | .procedure _ => false
  | .host _ => true
  | .callback _ => true
  | .evaluator _ => true

/-- A change that a built-in command of an interpreter makes by itself. -/
inductive Builtin.Step (i : InterpId) : World → World → Prop
  | same (w : World) : Step i w w
  | print (w : World) (text : String) : Step i w (w.print text)
  | printError (w : World) (text : String) : Step i w (w.printError text)
  | edit {f : Interpreter → Interpreter} (hf : Mild f) (w : World) : Step i w (w.modifyInterp i f)
  | schedule (w : World) (delay : Option Nat) (script : String) :
      Step i w (w.scheduleAfter i delay script).2
  | unschedule (w : World) (id : String) : Step i w (w.unschedule i id)
  | createChild (w : World) (name : String) (safe : Bool) :
      Step i w (w.createChild i name safe).2
  | deleteChild {w : World} {name : String} {c : InterpId}
      (hchild : (w.interp i).children.get? name = some c) : Step i w (w.delete c)

/-- The call of a procedure with given variables. -/
def Procedure.enter (e : Engine) (i : InterpId) (p : Procedure) (vars : Table String String) :
    Exec String :=
  Exec.ofAct do
    updateInterp i fun r => r.enterCall vars
    let completion ←
      (e.call (.script i p.body)).ensuring fun w => w.modifyInterp i Interpreter.leaveCall
    return close completion

/-- An abrupt end has a code of its own. -/
def Abrupt.Proper {α : Type} (result : Except Abrupt α) : Prop :=
  ∀ end_, result = .error end_ → end_.code ≠ .ok

theorem Abrupt.proper_ok {α : Type} (a : α) : Proper (.ok a) :=
  nofun

theorem Abrupt.proper_error {α : Type} {end_ : Abrupt} (h : end_.code ≠ .ok) :
    Proper (α := α) (.error end_) := by
  intro other hother
  cases hother
  exact h

theorem Abrupt.proper_fail {α : Type} (message : String) :
    Proper (α := α) (.error (.error message)) :=
  proper_error (by decide : Code.error ≠ Code.ok)

/-- An engine whose scripts and commands end abruptly only with codes of their own. -/
class Engine.Proper (e : Engine) : Prop where
  script {i : InterpId} {source : String} {w w' : World} {completion : Completion}
    (hrun : e.call (.script i source) w = .ok completion w') : Abrupt.Proper completion
  words {i : InterpId} {words : List String} {w w' : World} {completion : Completion}
    (hrun : e.call (.words i words) w = .ok completion w') : Abrupt.Proper completion

/-- Code of an interpreter that runs in a world and is built of the pieces of which the code of
scripts consists. -/
inductive Exec.Built (e : Engine) (i : InterpId) : {α : Type} → Exec α → World → Prop
  | step {α : Type} {code : Exec α} {w w' : World} {result : Except Abrupt α}
      (hrun : code.run w = .ok result w') (hstep : Builtin.Step i w w')
      (hproper : Abrupt.Proper result) : Built e i code w
  /-- A panic, or a loop that has run for too long. -/
  | stop {α : Type} {code : Exec α} {w : World} {halt : Halt} (hrun : code.run w = .error halt w)
      (hhalt : ∀ signal, halt ≠ .unwind signal) : Built e i code w
  | sleep (ms : Nat) (w : World) : Built e i (liftM (ScriptHost.sleep e ms)) w
  | script (source : String) (w : World) : Built e i (e.script i source) w
  | child {w : World} {name : String} {c : InterpId}
      (hchild : (w.interp i).children.get? name = some c) (source : String) :
      Built e i (Exec.ofAct (evalFrom e c source)) w
  | observe {α : Type} {code : Exec α} {w : World} (h : Built e i code w) :
      Built e i code.observe w
  | bind {α β : Type} {code : Exec α} {f : α → Exec β} {w : World} (h : Built e i code w)
      (hf : ∀ a w', code.run w = .ok (.ok a) w' → Built e i (f a) w') : Built e i (code >>= f) w
  | call {w : World} (hlive : (w.interp i).deleted = false) (p : Procedure)
      (vars : Table String String) : Built e i (p.enter e i vars) w
  | command {w : World} {name : String} {command : Command} (args : List String)
      (hlive : (w.interp i).deleted = false) (hdepth : (w.interp i).depth < maxDepth)
      (hentry : (w.interp i).commands.get? name = some command)
      (hinward : command.isOutward = false)
      (h : Built e i (command.run e i name args)
        (w.beginCommand i name command (w.interp i).depth)) :
      Built e i (command.runDeeper e i name args (w.interp i).depth) w
  | outward {w : World} {name : String} {command : Command} (args : List String)
      (hlive : (w.interp i).deleted = false) (hdepth : (w.interp i).depth < maxDepth)
      (hentry : (w.interp i).commands.get? name = some command)
      (houtward : command.isOutward = true) :
      Built e i (command.runDeeper e i name args (w.interp i).depth) w

namespace Exec

variable {α β : Type} {e : Engine} {i : InterpId} {code : Exec α} {f : α → Exec β} {w : World}

theorem Built.done {result : Except Abrupt α} (hrun : code.run w = .ok result w)
    (hproper : Abrupt.Proper result) : Built e i code w :=
  .step hrun (.same w) hproper

theorem Built.pure (a : α) (w : World) : Built e i (pure a : Exec α) w :=
  .done rfl (Abrupt.proper_ok a)

theorem Built.throw {end_ : Abrupt} (h : end_.code ≠ .ok) (w : World) :
    Built e i (throw end_ : Exec α) w :=
  .done rfl (Abrupt.proper_error h)

theorem Built.fail (message : String) (w : World) : Built e i (Exec.fail message : Exec α) w :=
  .throw (fun h => by cases h) w

theorem Built.wrongArgs (usage : String) (w : World) :
    Built e i (Exec.wrongArgs usage : Exec α) w :=
  .throw (fun h => by cases h) w

theorem Built.ofExcept {result : Except Abrupt α} (h : Abrupt.Proper result) (w : World) :
    Built e i (Exec.ofExcept result) w :=
  .done rfl h

theorem Built.stalled (w : World) : Built e i (liftM (Act.halt .stalled : Act α)) w :=
  .stop rfl nofun

theorem Built.modify {g : World → World} (h : Builtin.Step i w (g w)) :
    Built e i (modify g : Exec PUnit) w :=
  .step rfl h (Abrupt.proper_ok _)

theorem Built.get_bind {f : World → Exec β} (h : Built e i (f w) w) :
    Built e i (get >>= f) w :=
  .bind (.done rfl (Abrupt.proper_ok _)) fun _ _ hw => by cases hw; exact h

theorem Built.set_bind {w' : World} {f : PUnit → Exec β} (h : Builtin.Step i w w')
    (hf : Built e i (f ()) w') : Built e i (MonadState.set w' >>= f) w :=
  .bind (.step rfl h (Abrupt.proper_ok _)) fun _ _ hw => by cases hw; exact hf

/-- Failures of what computes without a world are errors. -/
theorem proper_mapError {ε : Type} (message : ε → String) (result : Except ε α) :
    Abrupt.Proper (result.mapError fun error => .error (message error)) := by
  intro end_ hend
  cases result with
  | ok a => cases hend
  | error error =>
    cases hend
    exact nofun

end Exec

open Exec

variable {e : Engine} {i : InterpId} {w : World}

/-! ### Variables -/

theorem built_getInterp (j : InterpId) (w : World) : Built e i (liftM (getInterp j)) w :=
  .done rfl (Abrupt.proper_ok _)

theorem built_getInterp_bind {β : Type} {f : Interpreter → Exec β} {j : InterpId}
    (h : Built e i (f (w.interp j)) w) : Built e i (liftM (getInterp j) >>= f) w :=
  .bind (built_getInterp j w) fun _ _ hw => by cases hw; exact h

theorem built_updateInterp {f : Interpreter → Interpreter} (hf : Mild f) (w : World) :
    Built e i (liftM (updateInterp i f)) w :=
  .step rfl (.edit hf w) (Abrupt.proper_ok _)

theorem built_getFramed (name : String) (w : World) :
    Built e i (liftM (getFramed i name)) w := by
  have hrun : (liftM (getFramed i name) : Exec Interpreter).run w =
      (liftM (if (w.interp i).frames.isEmpty then noFrame name else pure (w.interp i) :
        Act Interpreter) : Exec Interpreter).run w := rfl
  split at hrun
  · exact .stop hrun nofun
  · exact .done hrun nofun

theorem built_checkLive_bind {β : Type} {f : PUnit → Exec β}
    (h : (w.interp i).deleted = false → Built e i (f ()) w) :
    Built e i (checkLive i >>= f) w := by
  have hcheck : (checkLive i).run w =
      (if (w.interp i).deleted = true then Exec.fail "attempt to call eval in deleted interpreter"
        else pure () : Exec Unit).run w := rfl
  split at hcheck
  · refine .bind (.done hcheck fun _ hend => ?_) fun a w' hw => ?_
    · cases hend
      exact nofun
    · rw [hcheck] at hw
      cases hw
  · next hlive =>
    refine .bind (.done hcheck nofun) fun a w' hw => ?_
    rw [hcheck] at hw
    cases hw
    exact h (Bool.eq_false_iff.2 hlive)

theorem built_lookupVar (name : String) (w : World) : Built e i (lookupVar i name) w :=
  .bind (built_getFramed name w) fun _ w' _ => .pure _ w'

theorem built_readVar (name : String) (w : World) : Built e i (readVar i name) w := by
  refine .bind (built_lookupVar name w) fun found w' _ => ?_
  cases found with
  | some value => exact .pure _ w'
  | none => exact .fail _ w'

theorem built_writeVar (name value : String) (w : World) : Built e i (writeVar i name value) w :=
  .bind (built_getFramed name w) fun _ w' _ =>
    .bind (built_updateInterp (.setVar name value) w') fun _ w' _ => .pure _ w'

theorem built_removeVar (name : String) (w : World) : Built e i (removeVar i name) w := by
  refine .bind (built_lookupVar name w) fun found w' _ => ?_
  cases found with
  | some value => exact built_updateInterp (.unsetVar name) w'
  | none => exact .fail _ w'

/-! ### Substitution and expressions -/

theorem built_substituteFrom (text : String) (word : Script.Word) (w : World) :
    Built e i (substituteFrom e i text word) w := by
  induction word generalizing text w with
  | nil => exact .pure _ w
  | cons part rest ih =>
    cases part with
    | text value => exact ih _ w
    | «variable» name => exact .bind (built_readVar name w) fun _ w' _ => ih _ w'
    | script source => exact .bind (.script source w) fun _ w' _ => ih _ w'

theorem built_substituteAll (words : List Script.Word) (w : World) :
    Built e i (substituteAll e i words) w := by
  induction words generalizing w with
  | nil => exact .pure _ w
  | cons word rest ih =>
    exact .bind (built_substituteFrom "" word w) fun _ w' _ =>
      .bind (ih w') fun _ w' _ => .pure _ w'

theorem built_ofFault {α : Type} (result : Except Expr.Fault α) (w : World) :
    Built e i (Exec.ofFault result) w :=
  .ofExcept (proper_mapError _ result) w

theorem built_evalExpr (expr : Expr) (w : World) : Built e i (evalExpr e i expr) w := by
  induction expr generalizing w with
  | literal value => exact .pure _ w
  | «variable» name => exact .bind (built_readVar name w) fun _ w' _ => .pure _ w'
  | script source => exact .bind (.script source w) fun _ w' _ => .pure _ w'
  | quoted parts => exact .bind (built_substituteFrom "" parts w) fun _ w' _ => .pure _ w'
  | unary op operand ih => exact .bind (ih w) fun _ w' _ => built_ofFault _ w'
  | binary op left right ihl ihr =>
    exact .bind (ihl w) fun _ w' _ => .bind (ihr w') fun _ w' _ => built_ofFault _ w'
  | both left right ihl ihr =>
    refine .bind (ihl w) fun _ w' _ => .bind (built_ofFault _ w') fun truth w' _ => ?_
    cases truth with
    | true =>
      exact .bind (ihr w') fun _ w' _ => .bind (built_ofFault _ w') fun _ w' _ => .pure _ w'
    | false => exact .pure _ w'
  | either left right ihl ihr =>
    refine .bind (ihl w) fun _ w' _ => .bind (built_ofFault _ w') fun truth w' _ => ?_
    cases truth with
    | true => exact .pure _ w'
    | false =>
      exact .bind (ihr w') fun _ w' _ => .bind (built_ofFault _ w') fun _ w' _ => .pure _ w'
  | choice condition yes no ihc ihy ihn =>
    refine .bind (ihc w) fun _ w' _ => .bind (built_ofFault _ w') fun truth w' _ => ?_
    cases truth with
    | true => exact ihy w'
    | false => exact ihn w'

theorem built_parseExpr (text : String) (w : World) : Built e i (parseExpr text) w :=
  .ofExcept (proper_mapError _ _) w

theorem built_evalExprText (text : String) (w : World) : Built e i (evalExprText e i text) w :=
  .bind (built_parseExpr text w) fun expr w' _ =>
    .bind (built_evalExpr expr w') fun _ w' _ => .pure _ w'

theorem built_evalCondition (text : String) (w : World) :
    Built e i (evalCondition e i text) w :=
  .bind (built_parseExpr text w) fun expr w' _ =>
    .bind (built_evalExpr expr w') fun _ w' _ => built_ofFault _ w'

namespace Command

/-! ### Arguments -/

theorem built_intArg (text : String) (w : World) : Built e i (intArg text) w := by
  rw [intArg]
  split
  · exact .pure _ w
  · exact .fail _ w

theorem built_listArg (text : String) (w : World) : Built e i (listArg text) w :=
  .ofExcept (proper_mapError _ _) w

/-! ### Variables -/

theorem built_set (args : List String) (w : World) : Built e i (set i args) w := by
  unfold set
  split
  · exact built_readVar _ w
  · exact built_writeVar _ _ w
  · exact .wrongArgs _ w

theorem built_unsetAll (complain : Bool) (names : List String) (w : World) :
    Built e i (unsetAll i complain names) w := by
  induction names generalizing w with
  | nil => exact .pure _ w
  | cons name rest ih =>
    refine .bind (built_lookupVar name w) fun found w' _ => ?_
    dsimp only
    split
    · exact .bind (built_removeVar name w') fun _ w' _ => ih w'
    · exact ih w'

theorem built_unset (args : List String) (w : World) : Built e i (unset i args) w := by
  unfold unset
  split <;> exact built_unsetAll _ _ w

theorem built_incrBy (name : String) (by_ : Int64) (w : World) :
    Built e i (incrBy i name by_) w := by
  refine .bind (built_lookupVar name w) fun found w' _ => ?_
  cases found with
  | some text => exact .bind (built_intArg text w') fun _ w' _ => built_writeVar name _ w'
  | none => exact .bind (.pure 0 w') fun _ w' _ => built_writeVar name _ w'

theorem built_incr (args : List String) (w : World) : Built e i (incr i args) w := by
  unfold incr
  split
  · exact built_incrBy _ 1 w
  · exact .bind (built_intArg _ w) fun by_ w' _ => built_incrBy _ by_ w'
  · exact .wrongArgs _ w

theorem built_append (args : List String) (w : World) : Built e i (append i args) w := by
  unfold append
  split
  · exact .wrongArgs _ w
  · exact .bind (built_lookupVar _ w) fun _ w' _ => built_writeVar _ _ w'

theorem built_lappend (args : List String) (w : World) : Built e i (lappend i args) w := by
  unfold lappend
  split
  · exact .wrongArgs _ w
  · refine .bind (built_lookupVar _ w) fun found w' _ => ?_
    cases found with
    | some text => exact .bind (built_listArg text w') fun _ w' _ => built_writeVar _ _ w'
    | none => exact .bind (.pure [] w') fun _ w' _ => built_writeVar _ _ w'

theorem built_global (names : List String) (w : World) : Built e i (global i names) w :=
  .bind (built_getFramed "" w) fun _ w' _ =>
    .bind (built_updateInterp (.linkGlobals names) w') fun _ w' _ => .pure _ w'

/-! ### What runs -/

theorem built_ifElse (args : List String) (w : World) : Built e i (ifElse e i args) w := by
  fun_induction ifElse e i args generalizing w with
  | case1 => exact .fail _ w
  | case2 => exact .fail _ w
  | case3 condition clauses body rest h ih =>
    refine .bind (built_evalCondition condition w) fun holds w' _ => ?_
    split
    · exact .script body w'
    · split
      · exact .pure _ w'
      · exact ih _ rfl w'
      · exact .fail _ w'
      · exact .script _ w'
      · exact .script _ w'

/-- What a script completes with that is observed. -/
theorem proper_observe [e.Proper] {source : String} {w' : World} {completion : Completion}
    (hrun : (e.script i source).observe.run w = .ok (.ok completion) w') :
    Abrupt.Proper completion := by
  obtain ⟨completion', u, hscript, hrest⟩ := Act.exists_of_bind_ok hrun
  cases hrest
  exact Engine.Proper.script hscript

theorem built_runBody [e.Proper] (body : String) (w : World) :
    Built e i (runBody e i body) w := by
  refine .bind (.observe (.script body w)) fun result w' hrun => ?_
  cases result with
  | ok value => exact .pure _ w'
  | error end_ =>
    dsimp only
    split
    · exact .pure _ w'
    · exact .pure _ w'
    · exact .throw (proper_observe hrun end_ rfl) w'

theorem built_rounds [e.Proper] (condition body : String) (step : Option String) (count : Nat)
    (w : World) : Built e i (rounds e i condition body step count) w := by
  induction count generalizing w with
  | zero => exact .stalled w
  | succ count ih =>
    refine .bind (built_evalCondition condition w) fun holds w' _ => ?_
    split
    · refine .bind (built_runBody body w') fun goes w' _ => ?_
      split
      · cases step with
        | some script => exact .bind (.script script w') fun _ w' _ => ih w'
        | none => exact ih w'
      · exact .pure _ w'
    · exact .pure _ w'

theorem built_whileLoop [e.Proper] (args : List String) (w : World) :
    Built e i (whileLoop e i args) w := by
  unfold whileLoop
  split
  · exact built_rounds _ _ none _ w
  · exact .wrongArgs _ w

theorem built_forLoop [e.Proper] (args : List String) (w : World) :
    Built e i (forLoop e i args) w := by
  unfold forLoop
  split
  · exact .bind (.script _ w) fun _ w' _ => built_rounds _ _ _ _ w'
  · exact .wrongArgs _ w

theorem built_assign (names values : List String) (w : World) :
    Built e i (assign i names values) w := by
  induction names generalizing values w with
  | nil => exact .pure _ w
  | cons name names ih => exact .bind (built_writeVar name _ w) fun _ w' _ => ih _ w'

theorem built_forEachGroup [e.Proper] (first : String) (others : List String) (body : String)
    (values : List String) (w : World) :
    Built e i (forEachGroup e i first others body values) w := by
  fun_induction forEachGroup e i first others body values generalizing w with
  | case1 => exact .pure _ w
  | case2 value values ih =>
    refine .bind (built_assign _ _ w) fun _ w' _ => .bind (built_runBody body w') fun goes w' _ => ?_
    split
    · exact ih w'
    · exact .pure _ w'

theorem built_forEach [e.Proper] (args : List String) (w : World) :
    Built e i (forEach e i args) w := by
  unfold forEach
  split
  · refine .bind (built_listArg _ w) fun names w' _ => ?_
    cases names with
    | nil => exact .fail _ w'
    | cons first others =>
      exact .bind (built_listArg _ w') fun values w' _ => built_forEachGroup first others _ values w'
  · exact .wrongArgs _ w

theorem built_leave {code : Code} (hcode : code ≠ .ok) (args : List String) (w : World) :
    Built e i (leave code args) w := by
  unfold leave
  split
  · exact .throw hcode w
  · exact .wrongArgs _ w

theorem built_endWith {code : Code} (hcode : code ≠ .ok) (args : List String) (w : World) :
    Built e i (endWith code args) w := by
  unfold endWith
  split
  · exact .throw hcode w
  · exact .throw hcode w
  · exact .wrongArgs _ w

theorem built_returnValue (args : List String) (w : World) :
    Built e i (returnValue args) w := by
  unfold returnValue
  split
  · exact .wrongArgs _ w
  · split
    · exact built_endWith (by decide) _ w
    · next hcode _ => exact built_endWith hcode _ w
    · exact .fail _ w
  · exact built_endWith (by decide) _ w

theorem built_raise (args : List String) (w : World) : Built e i (raise args) w := by
  unfold raise
  split
  · exact .fail _ w
  · exact .wrongArgs _ w

theorem built_catchCode (args : List String) (w : World) : Built e i (catchCode e i args) w := by
  unfold catchCode
  split
  · exact .bind (.observe (.script _ w)) fun _ w' _ => .pure _ w'
  · exact .bind (.observe (.script _ w)) fun _ w' _ =>
      .bind (built_writeVar _ _ w') fun _ w' _ => .pure _ w'
  · exact .wrongArgs _ w

/-! ### Lists and texts -/

theorem built_indexArg (size : Nat) (text : String) (w : World) :
    Built e i (indexArg size text) w := by
  rw [indexArg]
  split
  · split
    · exact .pure _ w
    · exact .bind (built_intArg _ w) fun _ w' _ => .pure _ w'
    · exact .fail _ w
  · exact built_intArg text w

theorem built_llength (args : List String) (w : World) : Built e i (llength args) w := by
  unfold llength
  split
  · exact .bind (built_listArg _ w) fun _ w' _ => .pure _ w'
  · exact .wrongArgs _ w

theorem built_lindex (args : List String) (w : World) : Built e i (lindex args) w := by
  unfold lindex
  split
  · exact .pure _ w
  · exact .bind (built_listArg _ w) fun _ w' _ =>
      .bind (built_indexArg _ _ w') fun _ w' _ => .pure _ w'
  · exact .wrongArgs _ w

theorem built_join (args : List String) (w : World) : Built e i (join args) w := by
  unfold join
  split
  · exact .bind (built_listArg _ w) fun _ w' _ => .pure _ w'
  · exact .bind (built_listArg _ w) fun _ w' _ => .pure _ w'
  · exact .wrongArgs _ w

theorem built_split (args : List String) (w : World) : Built e i (split args) w := by
  unfold Command.split
  split
  · exact .pure _ w
  · exact .pure _ w
  · exact .wrongArgs _ w

theorem built_string (args : List String) (w : World) : Built e i (string args) w := by
  unfold string
  split
  · split
    · exact .pure _ w
    · exact .wrongArgs _ w
    · exact .pure _ w
    · exact .wrongArgs _ w
    · exact .pure _ w
    · exact .pure _ w
    · exact .pure _ w
    · exact .pure _ w
    · exact .wrongArgs _ w
    · exact .fail _ w
  · exact .wrongArgs _ w

theorem built_subst (args : List String) (w : World) : Built e i (subst e i args) w := by
  unfold subst
  split
  · exact .bind (.ofExcept (proper_mapError _ _) w) fun parts w' _ =>
      built_substituteFrom "" parts w'
  · exact .wrongArgs _ w

theorem built_expr (args : List String) (w : World) : Built e i (expr e i args) w := by
  unfold expr
  split
  · exact .wrongArgs _ w
  · exact built_evalExprText _ w

theorem built_puts (args : List String) (w : World) : Built e i (puts args) w := by
  have hprint (channel text ending : String) :
      Built e i (if channel = "stdout" then do
          modify fun w => w.print (text ++ ending)
          return ""
        else if channel = "stderr" then do
          modify fun w => w.printError (text ++ ending)
          return ""
        else Exec.fail s!"can not find channel named \"{channel}\"" : Exec String) w := by
    split
    · exact .bind (.modify (.print w _)) fun _ w' _ => .pure _ w'
    · split
      · exact .bind (.modify (.printError w _)) fun _ w' _ => .pure _ w'
      · exact .fail _ w
  unfold puts
  dsimp only
  split
  · exact hprint "stdout" _ _
  · exact hprint _ _ _
  · exact .wrongArgs _ w

/-! ### The system -/

theorem built_exec (args : List String) (w : World) : Built e i (exec args) w := by
  unfold exec
  split
  · exact .wrongArgs _ w
  · refine .get_bind ?_
    split
    · exact .fail _ w
    · split
      · exact .pure _ w
      · split <;> exact .fail _ w

theorem built_file (args : List String) (w : World) : Built e i (file args) w := by
  unfold file
  split
  · split
    · exact .get_bind (.pure _ w)
    · exact .fail _ w
  · exact .wrongArgs _ w

theorem built_source [e.Proper] (args : List String) (w : World) :
    Built e i (source e i args) w := by
  unfold source
  split
  · refine .get_bind ?_
    split
    · exact .fail _ w
    · refine .bind (.observe (.script _ w)) fun result w' hrun => ?_
      cases result with
      | ok value => exact .pure _ w'
      | error end_ =>
        dsimp only
        split
        · exact .pure _ w'
        · exact .throw (proper_observe hrun end_ rfl) w'
  · exact .wrongArgs _ w

/-! ### Interpreters -/

theorem built_info (args : List String) (w : World) : Built e i (info i args) w := by
  unfold info
  split
  · exact .bind (built_lookupVar _ w) fun _ w' _ => .pure _ w'
  · exact .wrongArgs _ w
  · exact .bind (built_getInterp i w) fun _ w' _ => .pure _ w'
  · exact .bind (built_getInterp i w) fun _ w' _ => .pure _ w'
  · exact .bind (built_getInterp i w) fun _ w' _ => .pure _ w'
  · exact .bind (built_getInterp i w) fun _ w' _ => .pure _ w'
  · exact .fail _ w
  · exact .fail _ w
  · exact .wrongArgs _ w

/-- What comes after a look for a child begins in the same world with a child of that name. -/
theorem built_childNamed_bind {β : Type} {f : InterpId → Exec β} {name : String}
    (h : ∀ c, (w.interp i).children.get? name = some c → Built e i (f c) w) :
    Built e i (childNamed i name >>= f) w := by
  rw [childNamed, bind_assoc]
  refine built_getInterp_bind ?_
  split
  · next child hchild =>
    rw [pure_bind]
    exact h child hchild
  · exact .bind (.fail _ w) fun c w' hw => by cases hw

theorem proper_createChild (w : World) (p : InterpId) (name : String) (safe : Bool) :
    Abrupt.Proper (w.createChild p name safe).1 := by
  rw [World.createChild]
  dsimp only
  split
  · exact Abrupt.proper_fail _
  · split
    · exact Abrupt.proper_fail _
    · split
      · exact Abrupt.proper_fail _
      · exact Abrupt.proper_ok _

theorem built_makeChild (name : String) (safe : Bool) (w : World) :
    Built e i (makeChild i name safe) w :=
  .get_bind (.set_bind (.createChild w name safe) (.ofExcept (proper_createChild w i name safe) _))

theorem built_createNamed (args : List String) (w : World) :
    Built e i (createNamed i args) w := by
  have hmake (name : String) (w : World) :
      Built e i (makeChild i name (args.contains "-safe") >>= fun _ => pure name) w :=
    .bind (built_makeChild name _ w) fun _ w' _ => .pure _ w'
  rw [createNamed]
  dsimp only
  split
  · exact .bind (.pure _ w) fun name w' _ => hmake name w'
  · have hedit : Builtin.Step i w (w.modifyInterp i fun _ => (w.interp i).generateName.2) :=
      w.modifyInterp_const i (fun r => r.generateName.2) ▸ .edit .generateName w
    exact built_getInterp_bind (.bind (.step rfl hedit (Abrupt.proper_ok _)) fun _ w' _ =>
      .bind (.pure _ w') fun name w' _ => hmake name w')

theorem built_deleteNamed (names : List String) (w : World) :
    Built e i (deleteNamed i names) w := by
  induction names generalizing w with
  | nil => exact .pure _ w
  | cons name rest ih =>
    exact built_childNamed_bind fun c hchild =>
      .bind (.modify (.deleteChild hchild)) fun _ w' _ => ih w'

theorem built_interp (args : List String) (w : World) : Built e i (interp e i args) w := by
  unfold interp
  split
  · exact .wrongArgs _ w
  · exact built_createNamed _ w
  · exact built_deleteNamed _ w
  · split
    · refine built_childNamed_bind fun c hchild => ?_
      refine .bind (.observe (.child hchild _)) fun result w' _ => ?_
      cases result with
      | ok value => exact .pure _ w'
      | error end_ => exact .fail _ w'
    · exact .wrongArgs _ w
  · split
    · exact .bind (built_getInterp i w) fun _ w' _ => .pure _ w'
    · exact .wrongArgs _ w
  · split
    · exact .bind (built_getInterp i w) fun _ w' _ => .pure _ w'
    · exact built_childNamed_bind fun c hchild =>
        .bind (built_getInterp c w) fun _ w' _ => .pure _ w'
  · exact .bind (built_getInterp i w) fun _ w' _ => .pure _ w'
  · exact .fail _ w

/-! ### Pending work -/

theorem built_schedule (delay : Option Nat) (scripts : List String) (w : World) :
    Built e i (schedule i delay scripts) w :=
  .get_bind (.set_bind (.schedule w delay _) (.pure _ _))

theorem built_after (args : List String) (w : World) : Built e i (after e i args) w := by
  unfold after
  split
  · exact .wrongArgs _ w
  · split
    · exact .wrongArgs _ w
    · exact built_schedule none _ w
  · split
    · exact .wrongArgs _ w
    · exact .get_bind (.set_bind (.unschedule w _) (.pure _ _))
  · exact .bind (built_getInterp i w) fun _ w' _ => .pure _ w'
  · refine .bind (built_intArg _ w) fun ms w' _ => ?_
    split
    · exact .bind (.sleep _ w') fun _ w' _ => .pure _ w'
    · exact built_schedule _ _ w'

/-! ### Procedures -/

theorem built_paramOf (procedure declaration : String) (w : World) :
    Built e i (paramOf procedure declaration) w := by
  refine .bind (built_listArg declaration w) fun words w' _ => ?_
  cases words with
  | nil => exact .fail _ w'
  | cons name rest => exact .pure _ w'

theorem built_paramsOf (procedure : String) (declarations : List String) (w : World) :
    Built e i (paramsOf procedure declarations) w := by
  induction declarations generalizing w with
  | nil => exact .pure _ w
  | cons declaration rest ih =>
    exact .bind (built_paramOf procedure declaration w) fun _ w' _ =>
      .bind (ih w') fun _ w' _ => .pure _ w'

theorem built_proc (args : List String) (w : World) : Built e i (proc i args) w := by
  unfold proc
  split
  · refine .bind (built_listArg _ w) fun formals w' _ =>
      .bind (built_paramsOf _ formals w') fun params w' _ => ?_
    refine .bind (.modify (.edit (.define _ fun b => ?_) w')) fun _ w' _ => .pure _ w'
    exact nofun
  · exact .wrongArgs _ w

end Command

/-! ### Commands and scripts -/

theorem Procedure.built_call (hlive : (w.interp i).deleted = false) (p : Procedure)
    (args : List String) : Built e i (p.call e i args) w := by
  rw [Procedure.call]
  split
  · exact .wrongArgs _ w
  · exact .call hlive p _

/-- The built-in commands that serve nothing are built of the pieces of scripts. -/
theorem Builtin.built_run [e.Proper] {b : Builtin} (hinward : (Command.builtin b).isOutward = false)
    (args : List String) (w : World) : Built e i (b.run e i args) w := by
  cases b with
  | after => exact Command.built_after args w
  | append => exact Command.built_append args w
  | breakLoop => exact Command.built_leave (by decide) args w
  | catchCode => exact Command.built_catchCode args w
  | concat => exact .pure _ w
  | continueLoop => exact Command.built_leave (by decide) args w
  | raise => exact Command.built_raise args w
  | expression => exact Command.built_expr args w
  | forLoop => exact Command.built_forLoop args w
  | forEach => exact Command.built_forEach args w
  | global => exact Command.built_global args w
  | ifElse => exact Command.built_ifElse args w
  | incr => exact Command.built_incr args w
  | info => exact Command.built_info args w
  | interp => exact Command.built_interp args w
  | join => exact Command.built_join args w
  | lappend => exact Command.built_lappend args w
  | lindex => exact Command.built_lindex args w
  | list => exact .pure _ w
  | llength => exact Command.built_llength args w
  | proc => exact Command.built_proc args w
  | puts => exact Command.built_puts args w
  | returnValue => exact Command.built_returnValue args w
  | set => exact Command.built_set args w
  | split => exact Command.built_split args w
  | string => exact Command.built_string args w
  | subst => exact Command.built_subst args w
  | unset => exact Command.built_unset args w
  | update => cases hinward
  | vwait => cases hinward
  | whileLoop => exact Command.built_whileLoop args w
  | exec => exact Command.built_exec args w
  | file => exact Command.built_file args w
  | source => exact Command.built_source args w

theorem Command.built_run [e.Proper] {command : Command} (hinward : command.isOutward = false)
    (hlive : (w.interp i).deleted = false) (name : String) (args : List String) :
    Built e i (command.run e i name args) w := by
  cases command with
  | builtin b => exact b.built_run hinward args w
  | procedure p => exact p.built_call hlive args
  | host | callback | evaluator => cases hinward

theorem World.interp_beginCommand_of_live (hlive : (w.interp i).deleted = false) (name : String)
    (command : Command) (depth : Nat) :
    (w.beginCommand i name command depth).interp i = { w.interp i with depth := depth + 1 } := by
  have hrecord : ((w.record (.invoked i name command)).interp i).deleted = false := hlive
  rw [World.beginCommand, World.interp_modifyInterp_of_live hrecord]
  rfl

theorem built_invokeWords [e.Proper] (words : List String) (w : World) :
    Built e i (invokeWords e i words) w := by
  cases words with
  | nil => exact .pure _ w
  | cons name args =>
    refine built_checkLive_bind fun hlive => built_getInterp_bind ?_
    split
    · exact .fail _ w
    · next command hentry =>
      split
      · exact .fail _ w
      · next hdepth =>
        cases houtward : command.isOutward with
        | true => exact .outward args hlive (Nat.not_le.1 hdepth) hentry houtward
        | false =>
          refine .command args hlive (Nat.not_le.1 hdepth) hentry houtward ?_
          refine Command.built_run houtward ?_ name args
          rw [World.interp_beginCommand_of_live hlive]
          exact hlive

theorem built_runStatements [e.Proper] (result : String) (statements : List Script.Statement)
    (w : World) : Built e i (runStatements e i result statements) w := by
  induction statements generalizing result w with
  | nil => exact .pure _ w
  | cons statement rest ih =>
    exact .bind (built_substituteAll statement w) fun words w' _ =>
      .bind (built_invokeWords words w') fun result w' _ => ih result w'

/-- Every script is built of the pieces of scripts. -/
theorem built_evalScript [e.Proper] (source : String) (w : World) :
    Built e i (evalScript e i source) w := by
  refine built_checkLive_bind fun _ => ?_
  split
  · exact .fail _ w
  · exact built_runStatements "" _ w

end ScriptHost
