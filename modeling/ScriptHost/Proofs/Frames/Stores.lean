import ScriptHost.Proofs.Frames.Nonempty

/-!
# Code that sets variables

Commands that set a variable look at the world first and then change one interpreter: they set the
variable once, to the value that they answer. If they fail they have changed nothing.
-/

namespace ScriptHost

/-! ### Looking and changing once -/

namespace Exec

variable {α β : Type} {i : InterpId} {change : String → Interpreter → Interpreter}

/-- Code leaves the world as it is. -/
def Looks (code : Exec α) : Prop :=
  ∀ w, code.run.after w = w

/-- Code that comes to a good end has changed an interpreter once, by the value that it answers.
Otherwise it has done nothing. -/
def Stores (i : InterpId) (change : String → Interpreter → Interpreter) (code : Exec String) : Prop :=
  ∀ w, match code.run w with
    | .ok (.ok value) w' => w' = w.modifyInterp i (change value)
    | .ok (.error _) w' => w' = w
    | .error _ w' => w' = w

/-- What is done after code that leaves the world as it is. -/
theorem Looks.cases {code : Exec α} (hcode : code.Looks) (f : α → Exec β) (w : World) :
    (∃ a, code.run w = .ok (.ok a) w ∧ (code >>= f).run w = (f a).run w) ∨
    (∃ end_, (code >>= f).run w = .ok (.error end_) w) ∨
    ∃ halt, (code >>= f).run w = .error halt w := by
  have hw := hcode w
  have hbind : (code >>= f).run = code.run >>= ExceptT.bindCont f := rfl
  rw [hbind]
  cases hrun : code.run w with
  | error halt u =>
    rw [Act.after_of_error hrun] at hw
    subst hw
    exact .inr (.inr ⟨halt, Act.bind_of_error hrun _⟩)
  | ok result u =>
    rw [Act.after_of_ok hrun] at hw
    subst hw
    cases result with
    | error end_ => exact .inr (.inl ⟨end_, Act.bind_of_ok hrun _⟩)
    | ok a => exact .inl ⟨a, rfl, Act.bind_of_ok hrun _⟩

theorem Looks.bind {code : Exec α} {f : α → Exec β} (hcode : code.Looks) (hf : ∀ a, (f a).Looks) :
    (code >>= f).Looks := by
  intro w
  obtain ⟨a, -, hrun⟩ | ⟨end_, hrun⟩ | ⟨halt, hrun⟩ := hcode.cases f w
  · rw [Act.after, hrun]
    exact hf a w
  · exact Act.after_of_ok hrun
  · exact Act.after_of_error hrun

theorem Stores.bind {code : Exec α} {f : α → Exec String} (hcode : code.Looks)
    (hf : ∀ a, (f a).Stores i change) : (code >>= f).Stores i change := by
  intro w
  obtain ⟨a, -, hrun⟩ | ⟨end_, hrun⟩ | ⟨halt, hrun⟩ := hcode.cases f w
  · rw [hrun]
    exact hf a w
  · rw [hrun]
  · rw [hrun]

theorem Looks.stores_update {code : Exec α} (hcode : code.Looks)
    (change : String → Interpreter → Interpreter) (value : String) :
    (do let _ ← code; updateInterp i (change value); return value : Exec String).Stores i change :=
  .bind hcode fun _ _ => rfl

theorem Stores.fail (message : String) : (Exec.fail message : Exec String).Stores i change :=
  fun _ => rfl

theorem Looks.pure (a : α) : (Pure.pure a : Exec α).Looks :=
  fun _ => rfl

theorem looks_ofExcept (result : Except Abrupt α) : (ofExcept result).Looks :=
  fun _ => rfl

theorem looks_getFramed (i : InterpId) (name : String) :
    (liftM (getFramed i name) : Exec Interpreter).Looks := by
  intro w
  have hlift : (liftM (getFramed i name) : Exec Interpreter).run = Except.ok <$> getFramed i name := rfl
  rw [hlift, Act.after_map]
  by_cases hframes : (w.interp i).frames = []
  · rw [Act.after, getFramed_of_eq_nil hframes]
    rfl
  · rw [Act.after, getFramed_of_ne_nil hframes]

end Exec

namespace Command

open Exec

variable {i : InterpId} {name : String}

/-- The change that sets a variable. -/
abbrev setting (name value : String) (r : Interpreter) : Interpreter :=
  r.setVar name value

theorem looks_lookupVar (i : InterpId) (name : String) : (lookupVar i name).Looks :=
  (looks_getFramed i name).bind fun _ => .pure _

theorem looks_intArg (text : String) : (intArg text).Looks := by
  rw [intArg]
  split <;> exact fun _ => rfl

theorem stores_writeVar (i : InterpId) (name value : String) :
    (writeVar i name value).Stores i (setting name) :=
  (looks_getFramed i name).stores_update (setting name) value

theorem stores_incrBy (i : InterpId) (name : String) (n : Int64) :
    (incrBy i name n).Stores i (setting name) := by
  refine .bind (looks_lookupVar i name) fun found => ?_
  cases found with
  | some text => exact .bind (looks_intArg text) fun _ => stores_writeVar i name _
  | none => exact .bind (.pure 0) fun _ => stores_writeVar i name _

theorem stores_incr (i : InterpId) (name : String) (args : List String) :
    (incr i (name :: args)).Stores i (setting name) := by
  match args with
  | [] => exact stores_incrBy i name 1
  | [text] => exact .bind (looks_intArg text) fun n => stores_incrBy i name n
  | _ :: _ :: _ => exact .fail _

theorem stores_append (i : InterpId) (name : String) (pieces : List String) :
    (append i (name :: pieces)).Stores i (setting name) :=
  .bind (looks_lookupVar i name) fun _ => stores_writeVar i name _

theorem stores_lappend (i : InterpId) (name : String) (words : List String) :
    (lappend i (name :: words)).Stores i (setting name) := by
  refine .bind (looks_lookupVar i name) fun found => ?_
  cases found with
  | some text => exact .bind (looks_ofExcept _) fun _ => stores_writeVar i name _
  | none => exact .bind (.pure []) fun _ => stores_writeVar i name _

theorem looks_checkLive (i : InterpId) : (checkLive i).Looks := by
  intro w
  rw [Act.after, run_checkLive]
  by_cases hgone : (w.interp i).deleted = true
  · rw [if_pos hgone]
  · rw [if_neg hgone]

theorem stores_setGlobal (i : InterpId) (name value : String) :
    (setGlobal i name value).Stores i (fun value r => r.setGlobal name value) :=
  .bind (looks_checkLive i) fun _ =>
    (looks_getFramed i "::").stores_update (fun value r => r.setGlobal name value) value

/-- The variables of a loop, each with the value that it is set to. -/
def assignments : List String → List String → List (String × String)
  | [], _ => []
  | name :: names, values => (name, values.headD "") :: assignments names values.tail

theorem eq_of_writeVar {value value' : String} {w w' : World}
    (h : (writeVar i name value).run w = .ok (.ok value') w') :
    w' = w.modifyInterp i (setting name value) := by
  have hwrite : writeVar i name value =
      ((liftM (getFramed i name) : Exec Interpreter) >>= fun _ => do
        updateInterp i (setting name value)
        return value) := rfl
  rw [hwrite] at h
  obtain ⟨a, -, hrun⟩ | ⟨end_, hrun⟩ | ⟨halt, hrun⟩ := (looks_getFramed i name).cases _ w
  · rw [hrun] at h
    cases h
    rfl
  · rw [hrun] at h
    cases h
  · rw [hrun] at h
    cases h

/-- Each variable of a loop is set once. -/
theorem eq_of_assign {names values : List String} {w w' : World}
    (h : (assign i names values).run w = .ok (.ok ()) w') :
    w' = (assignments names values).foldl
      (fun w entry => w.modifyInterp i (setting entry.1 entry.2)) w := by
  induction names generalizing values w with
  | nil =>
    cases h
    rfl
  | cons name names ih =>
    obtain ⟨result, u, hwrite, hrest⟩ := Act.exists_of_bind_ok h
    cases result with
    | error end_ => cases hrest
    | ok value =>
      obtain rfl := eq_of_writeVar hwrite
      exact ih hrest

/-- What a script completes with is kept in a variable, which is set once. -/
theorem eq_of_catchCode {e : Engine} {script value : String} {w w' : World}
    (h : (catchCode e i [script, name]).run w = .ok (.ok value) w') :
    ∃ (completion : Completion) (u : World), (e.script i script).run w = .ok completion u ∧
      w' = u.modifyInterp i (setting name completion.value) := by
  obtain ⟨seen, u, hobserve, hrest⟩ := Act.exists_of_bind_ok h
  obtain ⟨completion, v, hscript, hseen⟩ := Act.exists_of_bind_ok hobserve
  cases hseen
  obtain ⟨result, v, hwrite, hdone⟩ := Act.exists_of_bind_ok hrest
  cases result with
  | error end_ => cases hdone
  | ok value' =>
    cases hdone
    exact ⟨completion, u, hscript, eq_of_writeVar hwrite⟩

/-- Whatever sets a variable of an interpreter sets it once. -/
structure SetsOnce (i : InterpId) : Prop where
  set : ∀ name value, (set i [name, value]).Stores i (setting name)
  incr : ∀ name args, (incr i (name :: args)).Stores i (setting name)
  append : ∀ name args, (append i (name :: args)).Stores i (setting name)
  lappend : ∀ name args, (lappend i (name :: args)).Stores i (setting name)
  forEach : ∀ {names values w w'}, (assign i names values).run w = .ok (.ok ()) w' →
    w' = (assignments names values).foldl
      (fun w entry => w.modifyInterp i (setting entry.1 entry.2)) w
  catchCode : ∀ {e : Engine} {script name value : String} {w w' : World},
    (catchCode e i [script, name]).run w = .ok (.ok value) w' →
      ∃ (completion : Completion) (u : World), (e.script i script).run w = .ok completion u ∧
        w' = u.modifyInterp i (setting name completion.value)
  host : ∀ name value, (setGlobal i name value).Stores i fun value r => r.setGlobal name value

theorem setsOnce (i : InterpId) : SetsOnce i where
  set name value := stores_writeVar i name value
  incr := stores_incr i
  append := stores_append i
  lappend := stores_lappend i
  forEach := eq_of_assign
  catchCode := eq_of_catchCode
  host := stores_setGlobal i

end Command

end ScriptHost
