import ScriptHost.Proofs.Run.Eval
import ScriptHost.Proofs.Run.World

/-!
# Built-in commands as pieces of code
-/

namespace ScriptHost

open Run

variable {L R : World → World → Prop} [Tracks L R] {e : Engine} {i : InterpId}

include L

namespace Command

/-! ### Arguments -/

theorem moves_intArg (text : String) : Exec.Moves R (intArg text) := by
  rw [intArg]
  split
  · exact .pure _
  · exact .fail _

omit L in
/-- Reading an argument leaves the world as it is. -/
theorem eq_of_intArg {text : String} {w w' : World} {n : Int64}
    (h : (intArg text).run w = .ok (.ok n) w') : w' = w := by
  rw [intArg] at h
  split at h <;> cases h
  rfl

theorem moves_listArg (text : String) : Exec.Moves R (listArg text) :=
  .ofExcept _

/-! ### Variables -/

theorem moves_set (i : InterpId) (args : List String) : Exec.Moves R (set i args) := by
  unfold set
  split
  · exact moves_readVar i _
  · exact moves_writeVar i _ _
  · exact .wrongArgs _

theorem moves_unsetAll (i : InterpId) (complain : Bool) (names : List String) :
    Exec.Moves R (unsetAll i complain names) := by
  induction names with
  | nil => exact .pure _
  | cons name rest ih =>
    refine .bind (moves_lookupVar i name) fun found => ?_
    dsimp only
    split
    · exact .bind (moves_removeVar i name) fun _ => ih
    · exact ih

theorem moves_unset (i : InterpId) (args : List String) : Exec.Moves R (unset i args) := by
  unfold unset
  split <;> exact moves_unsetAll i _ _

theorem moves_incrBy (i : InterpId) (name : String) (by_ : Int64) :
    Exec.Moves R (incrBy i name by_) := by
  refine .bind (moves_lookupVar i name) fun found => ?_
  cases found with
  | some text => exact .bind (moves_intArg text) fun _ => moves_writeVar i name _
  | none => exact .bind (.pure 0) fun _ => moves_writeVar i name _

theorem moves_incr (i : InterpId) (args : List String) : Exec.Moves R (incr i args) := by
  unfold incr
  split
  · exact moves_incrBy i _ 1
  · exact .bind (moves_intArg _) fun by_ => moves_incrBy i _ by_
  · exact .wrongArgs _

theorem moves_append (i : InterpId) (args : List String) : Exec.Moves R (append i args) := by
  unfold append
  split
  · exact .wrongArgs _
  · exact .bind (moves_lookupVar i _) fun _ => moves_writeVar i _ _

theorem moves_lappend (i : InterpId) (args : List String) : Exec.Moves R (lappend i args) := by
  unfold lappend
  split
  · exact .wrongArgs _
  · refine .bind (moves_lookupVar i _) fun found => ?_
    cases found with
    | some text => exact .bind (moves_listArg text) fun _ => moves_writeVar i _ _
    | none => exact .bind (.pure []) fun _ => moves_writeVar i _ _

theorem moves_global (i : InterpId) (names : List String) : Exec.Moves R (global i names) :=
  .bind (.lift (moves_getFramed i "")) fun _ =>
    .bind (.lift (moves_updateInterp (.linkGlobals names) i)) fun _ => .pure _

/-! ### What runs -/

theorem moves_ifElse (he : e.Moves R) (i : InterpId) (args : List String) :
    Exec.Moves R (ifElse e i args) := by
  fun_induction ifElse e i args with
  | case1 => exact .fail _
  | case2 => exact .fail _
  | case3 condition clauses body rest h ih =>
    refine .bind (moves_evalCondition he i condition) fun holds => ?_
    split
    · exact moves_script he i body
    · split
      · exact .pure _
      · exact ih _ rfl
      · exact .fail _
      · exact moves_script he i _
      · exact moves_script he i _

theorem moves_runBody (he : e.Moves R) (i : InterpId) (body : String) :
    Exec.Moves R (runBody e i body) := by
  refine .bind (.observe (moves_script he i body)) fun result => ?_
  cases result with
  | ok value => exact .pure _
  | error end_ =>
    dsimp only
    split
    · exact .pure _
    · exact .pure _
    · exact .throw _

theorem moves_rounds (he : e.Moves R) (i : InterpId) (condition body : String)
    (step : Option String) (count : Nat) : Exec.Moves R (rounds e i condition body step count) := by
  induction count with
  | zero => exact .lift (.halt _)
  | succ count ih =>
    refine .bind (moves_evalCondition he i condition) fun holds => ?_
    split
    · refine .bind (moves_runBody he i body) fun goes => ?_
      split
      · cases step with
        | some script => exact .bind (moves_script he i script) fun _ => ih
        | none => exact ih
      · exact .pure _
    · exact .pure _

theorem moves_whileLoop (he : e.Moves R) (i : InterpId) (args : List String) :
    Exec.Moves R (whileLoop e i args) := by
  unfold whileLoop
  split
  · exact moves_rounds he i _ _ none _
  · exact .wrongArgs _

theorem moves_forLoop (he : e.Moves R) (i : InterpId) (args : List String) :
    Exec.Moves R (forLoop e i args) := by
  unfold forLoop
  split
  · exact .bind (moves_script he i _) fun _ => moves_rounds he i _ _ _ _
  · exact .wrongArgs _

theorem moves_assign (i : InterpId) (names values : List String) :
    Exec.Moves R (assign i names values) := by
  induction names generalizing values with
  | nil => exact .pure _
  | cons name names ih => exact .bind (moves_writeVar i name _) fun _ => ih _

theorem moves_forEachGroup (he : e.Moves R) (i : InterpId) (first : String) (others : List String)
    (body : String) (values : List String) :
    Exec.Moves R (forEachGroup e i first others body values) := by
  fun_induction forEachGroup e i first others body values with
  | case1 => exact .pure _
  | case2 value values ih =>
    refine .bind (moves_assign i _ _) fun _ => .bind (moves_runBody he i body) fun goes => ?_
    split
    · exact ih
    · exact .pure _

theorem moves_forEach (he : e.Moves R) (i : InterpId) (args : List String) :
    Exec.Moves R (forEach e i args) := by
  unfold forEach
  split
  · refine .bind (moves_listArg _) fun names => ?_
    cases names with
    | nil => exact .fail _
    | cons first others =>
      exact .bind (moves_listArg _) fun values => moves_forEachGroup he i first others _ values
  · exact .wrongArgs _

theorem moves_leave (code : Code) (args : List String) : Exec.Moves R (leave code args) := by
  unfold leave
  split
  · exact .throw _
  · exact .wrongArgs _

theorem moves_endWith (code : Code) (args : List String) : Exec.Moves R (endWith code args) := by
  unfold endWith
  split
  · exact .throw _
  · exact .throw _
  · exact .wrongArgs _

theorem moves_returnValue (args : List String) : Exec.Moves R (returnValue args) := by
  unfold returnValue
  split
  · exact .wrongArgs _
  · split
    · exact moves_endWith _ _
    · exact moves_endWith _ _
    · exact .fail _
  · exact moves_endWith _ _

theorem moves_raise (args : List String) : Exec.Moves R (raise args) := by
  unfold raise
  split
  · exact .fail _
  · exact .wrongArgs _

theorem moves_catchCode (he : e.Moves R) (i : InterpId) (args : List String) :
    Exec.Moves R (catchCode e i args) := by
  unfold catchCode
  split
  · exact .bind (.observe (moves_script he i _)) fun _ => .pure _
  · exact .bind (.observe (moves_script he i _)) fun _ =>
      .bind (moves_writeVar i _ _) fun _ => .pure _
  · exact .wrongArgs _

/-! ### Lists and texts -/

theorem moves_indexArg (size : Nat) (text : String) : Exec.Moves R (indexArg size text) := by
  rw [indexArg]
  split
  · split
    · exact .pure _
    · exact .bind (moves_intArg _) fun _ => .pure _
    · exact .fail _
  · exact moves_intArg text

theorem moves_llength (args : List String) : Exec.Moves R (llength args) := by
  unfold llength
  split
  · exact .bind (moves_listArg _) fun _ => .pure _
  · exact .wrongArgs _

theorem moves_lindex (args : List String) : Exec.Moves R (lindex args) := by
  unfold lindex
  split
  · exact .pure _
  · exact .bind (moves_listArg _) fun _ => .bind (moves_indexArg _ _) fun _ => .pure _
  · exact .wrongArgs _

theorem moves_join (args : List String) : Exec.Moves R (join args) := by
  unfold join
  split
  · exact .bind (moves_listArg _) fun _ => .pure _
  · exact .bind (moves_listArg _) fun _ => .pure _
  · exact .wrongArgs _

theorem moves_split (args : List String) : Exec.Moves R (split args) := by
  unfold Command.split
  split
  · exact .pure _
  · exact .pure _
  · exact .wrongArgs _

theorem moves_string (args : List String) : Exec.Moves R (string args) := by
  unfold string
  split
  · split
    · exact .pure _
    · exact .wrongArgs _
    · exact .pure _
    · exact .wrongArgs _
    · exact .pure _
    · exact .pure _
    · exact .pure _
    · exact .pure _
    · exact .wrongArgs _
    · exact .fail _
  · exact .wrongArgs _

theorem moves_subst (he : e.Moves R) (i : InterpId) (args : List String) :
    Exec.Moves R (subst e i args) := by
  unfold subst
  split
  · exact .bind (.ofExcept _) fun parts => moves_substituteFrom he i "" parts
  · exact .wrongArgs _

theorem moves_expr (he : e.Moves R) (i : InterpId) (args : List String) :
    Exec.Moves R (expr e i args) := by
  unfold expr
  split
  · exact .wrongArgs _
  · exact moves_evalExprText he i _

theorem moves_puts (args : List String) : Exec.Moves R (puts args) := by
  have hprint (channel text ending : String) :
      Exec.Moves R (if channel = "stdout" then do
          modify fun w => w.print (text ++ ending)
          return ""
        else if channel = "stderr" then do
          modify fun w => w.printError (text ++ ending)
          return ""
        else Exec.fail s!"can not find channel named \"{channel}\"" : Exec String) := by
    split
    · exact .bind (.modify fun w => Tracks.same rfl) fun _ => .pure _
    · split
      · exact .bind (.modify fun w => Tracks.same rfl) fun _ => .pure _
      · exact .fail _
  unfold puts
  dsimp only
  split
  · exact hprint "stdout" _ _
  · exact hprint _ _ _
  · exact .wrongArgs _

/-! ### The system -/

theorem moves_exec (args : List String) : Exec.Moves R (exec args) := by
  unfold exec
  split
  · exact .wrongArgs _
  · refine .get_bind fun w => ?_
    split
    · exact .refl w rfl
    · split
      · exact .refl w rfl
      · split <;> exact .refl w rfl

theorem moves_file (args : List String) : Exec.Moves R (file args) := by
  unfold file
  split
  · split
    · exact .get_bind fun w => .refl w rfl
    · exact .fail _
  · exact .wrongArgs _

theorem moves_source (he : e.Moves R) (i : InterpId) (args : List String) :
    Exec.Moves R (source e i args) := by
  unfold source
  split
  · refine .get_bind fun w => ?_
    split
    · exact .refl w rfl
    · refine .bind (Exec.Moves.observe (moves_script he i _) w) fun result w' _ => ?_
      cases result with
      | ok value => exact .refl w' rfl
      | error end_ =>
        dsimp only
        split <;> exact .refl w' rfl
  · exact .wrongArgs _

/-! ### Interpreters -/

theorem moves_info (i : InterpId) (args : List String) : Exec.Moves R (info i args) := by
  unfold info
  split
  · exact .bind (moves_lookupVar i _) fun _ => .pure _
  · exact .wrongArgs _
  · exact .bind (.lift (moves_getInterp i)) fun _ => .pure _
  · exact .bind (.lift (moves_getInterp i)) fun _ => .pure _
  · exact .bind (.lift (moves_getInterp i)) fun _ => .pure _
  · exact .bind (.lift (moves_getInterp i)) fun _ => .pure _
  · exact .fail _
  · exact .fail _
  · exact .wrongArgs _

theorem moves_childNamed (i : InterpId) (name : String) : Exec.Moves R (childNamed i name) := by
  refine .bind (.lift (moves_getInterp i)) fun r => ?_
  split
  · exact .pure _
  · exact .fail _

theorem moves_makeChild (i : InterpId) (name : String) (safe : Bool) :
    Exec.Moves R (makeChild i name safe) :=
  .get_bind fun w => .set_bind (Follows.createChild w i name safe) (.refl _ rfl)

theorem covers_generateName (w : World) (i : InterpId) :
    R w (w.modifyInterp i fun _ => (w.interp i).generateName.2) := by
  rw [w.modifyInterp_const i fun r => r.generateName.2]
  exact Follows.edit .generateName w i

theorem moves_createNamed (i : InterpId) (args : List String) :
    Exec.Moves R (createNamed i args) := by
  rw [createNamed]
  dsimp only
  split
  · exact .bind (.pure _) fun _ => .bind (moves_makeChild i _ _) fun _ => .pure _
  · intro w
    have hname : (updateInterp i fun _ => (w.interp i).generateName.2).MovesFrom R w :=
      .of_rel (covers_generateName w i)
    refine movesFrom_lift_getInterp_bind (.bind (.lift hname) fun _ w' _ => ?_)
    have hmake (name : String) : Exec.Moves R (makeChild i name (args.contains "-safe")) :=
      moves_makeChild i name _
    exact Exec.Moves.bind (.pure _) (fun name => .bind (hmake name) fun _ => .pure _) w'

theorem moves_deleteNamed (i : InterpId) (names : List String) :
    Exec.Moves R (deleteNamed i names) := by
  induction names with
  | nil => exact .pure _
  | cons name rest ih =>
    exact .bind (moves_childNamed i name) fun child =>
      .bind (.modify fun w => Follows.delete w child) fun _ => ih

theorem moves_interp (he : e.Moves R) (i : InterpId) (args : List String) :
    Exec.Moves R (interp e i args) := by
  unfold interp
  split
  · exact .wrongArgs _
  · exact moves_createNamed i _
  · exact moves_deleteNamed i _
  · split
    · refine .bind (moves_childNamed i _) fun child => ?_
      refine .bind (.observe (.ofAct (moves_evalFrom he child _))) fun result => ?_
      cases result with
      | ok value => exact .pure _
      | error end_ => exact .fail _
    · exact .wrongArgs _
  · split
    · exact .bind (.lift (moves_getInterp i)) fun _ => .pure _
    · exact .wrongArgs _
  · split
    · exact .bind (.lift (moves_getInterp i)) fun _ => .pure _
    · exact .bind (moves_childNamed i _) fun child =>
        .bind (.lift (moves_getInterp child)) fun _ => .pure _
  · exact .bind (.lift (moves_getInterp i)) fun _ => .pure _
  · exact .fail _

end Command

end ScriptHost
