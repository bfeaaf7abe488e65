import ScriptHost.Proofs.Frames.Nonempty
import ScriptHost.Proofs.Frames.Tallies
import ScriptHost.Proofs.Handle.Scope
import ScriptHost.Proofs.Number.Numeral

/-!
# Commands that read and set variables

What reading a variable answers and what setting one does to a world, within a command and as a whole
command.
-/

namespace ScriptHost

open Interpreter Number

variable {e : Engine} {w w' : World} {i : InterpId} {name value : String}

/-! ### Variables of an interpreter -/

namespace Interpreter

variable {r : Interpreter}

theorem refersGlobal_modifyFrameOf {f : Frame → Frame} (hf : ∀ frame, (f frame).globals = frame.globals)
    (name other : String) :
    (r.modifyFrameOf name f).refersGlobal other = r.refersGlobal other := by
  have hglobal : (r.modifyGlobal f).refersGlobal other = r.refersGlobal other := by
    unfold refersGlobal modifyGlobal
    match hframes : r.frames with
    | [] | [_] => rfl
    | [_, _] | _ :: _ :: _ :: _ => rfl
  have htop : (r.modifyTop f).refersGlobal other = r.refersGlobal other := by
    unfold refersGlobal modifyTop
    match hframes : r.frames with
    | [] | [_] => rfl
    | top :: _ :: _ =>
      dsimp only
      rw [hf top]
  rw [modifyFrameOf]
  split
  · exact hglobal
  · exact htop

theorem refersGlobal_setVar (r : Interpreter) (name value other : String) :
    (r.setVar name value).refersGlobal other = r.refersGlobal other := by
  have hwritten := refersGlobal_modifyFrameOf (r := r)
    (f := fun frame => { frame with vars := frame.vars.insert (globalName name) value })
    (fun _ => rfl) name other
  rw [setVar]
  split
  · exact hwritten
  · exact hwritten

theorem var?_of_refersGlobal (hglobal : r.refersGlobal name = true) :
    r.var? name = r.global? name := by
  rw [var?, frameOf?, if_pos hglobal]
  rfl

theorem frames_ne_nil_of_var? (hvar : r.var? name = some value) : r.frames ≠ [] := by
  intro hnil
  rw [var?, frameOf?, globalFrame?, hnil] at hvar
  simp at hvar

theorem frames_setVar_ne_nil (hframes : r.frames ≠ []) (name value : String) :
    (r.setVar name value).frames ≠ [] := by
  rw [← List.length_pos_iff] at hframes ⊢
  rwa [(onlyVars_setVar r name value).length_frames]

/-- A variable has the value that it was set to. -/
theorem var?_setVar (hframes : r.frames ≠ []) (name value : String) :
    (r.setVar name value).var? name = some value := by
  have hrefers := r.refersGlobal_setVar name value name
  by_cases hglobal : r.refersGlobal name = true
  · rw [var?_of_refersGlobal (hrefers.trans hglobal), setVar_of_global hglobal,
      global?_setGlobal hframes, if_pos rfl]
  · rw [Bool.not_eq_true] at hglobal
    obtain ⟨top, next, rest, hcalls, -⟩ := exists_frames_of_local hglobal
    have hset : (r.setVar name value).frames.head? =
        some { top with vars := top.vars.insert (globalName name) value } := by
      simp [setVar, hglobal, modifyFrameOf, modifyTop, hcalls]
    rw [var?, frameOf?, if_neg (by simp [hrefers, hglobal]), hset, Option.bind_some,
      Table.get?_insert, if_pos rfl]

/-- Setting a variable changes neither the commands nor the depth nor whether the interpreter is live. -/
theorem setVar_keeps (r : Interpreter) (name value : String) :
    (r.setVar name value).commands = r.commands ∧ (r.setVar name value).deleted = r.deleted ∧
      (r.setVar name value).depth = r.depth := by
  obtain ⟨frames, writes, -, heq⟩ := onlyVars_setVar r name value
  rw [heq]
  exact ⟨rfl, rfl, rfl⟩

theorem setVar_setDepth (r : Interpreter) (name value : String) (depth : Nat) :
    { ({ r with depth }.setVar name value) with depth := r.depth } = r.setVar name value := by
  have hglobal : ({ r with depth } : Interpreter).refersGlobal name = r.refersGlobal name := rfl
  simp only [setVar, modifyFrameOf, hglobal]
  split <;> rfl

end Interpreter

/-! ### Reading and writing within a command -/

theorem World.modifyInterp_modifyInterp (w : World) (i : InterpId)
    (f g : Interpreter → Interpreter) :
    (w.modifyInterp i f).modifyInterp i g = w.modifyInterp i fun r => g (f r) := by
  simp only [modifyInterp, Table.modify_modify]

theorem run_getFramed_bind {α : Type} (hframes : (w.interp i).frames ≠ []) (f : Interpreter → Exec α) :
    ((getFramed i name : Exec Interpreter) >>= f).run w = (f (w.interp i)).run w := by
  have hlift : (liftM (getFramed i name) : Exec Interpreter).run w = .ok (.ok (w.interp i)) w :=
    (Act.bind_of_ok (getFramed_of_ne_nil hframes name) _).trans rfl
  exact Exec.run_bind_of_ok hlift f

theorem run_lookupVar_bind {α : Type} (hframes : (w.interp i).frames ≠ []) (f : Option String → Exec α) :
    (lookupVar i name >>= f).run w = (f ((w.interp i).var? name)).run w := by
  rw [lookupVar, bind_assoc, run_getFramed_bind hframes, pure_bind]

/-- A variable that exists is read. -/
theorem run_readVar_bind {α : Type} (hvar : (w.interp i).var? name = some value) (f : String → Exec α) :
    (readVar i name >>= f).run w = (f value).run w := by
  rw [readVar, bind_assoc, run_lookupVar_bind (frames_ne_nil_of_var? hvar), hvar]
  rfl

theorem run_writeVar (hframes : (w.interp i).frames ≠ []) (name value : String) :
    (writeVar i name value).run w =
      .ok (.ok value) (w.modifyInterp i fun r => r.setVar name value) := by
  rw [writeVar]
  exact run_getFramed_bind hframes _

/-! ### Integer arguments -/

theorem intArg_integerText {n : Int64} (hn : n ≠ Int64.minValue) :
    Command.intArg (integerText n) = pure n := by
  rw [Command.intArg, trimBlanks_integerText, integer?_integerText hn]

/-- The decimal text of the least word is refused. -/
theorem intArg_integerText_minValue : Command.intArg (integerText Int64.minValue) =
    Exec.fail "expected integer but got \"-9223372036854775808\"" := by
  rw [Command.intArg, trimBlanks_integerText, integer?_integerText_minValue]
  rfl

/-! ### Whole commands -/

/-- A command that ends, normally or not, leaves the interpreter as deep as it was. -/
theorem run_invokeWords_of_ends {args : List String} {command : Command} {completion : Completion}
    (hlive : (w.interp i).deleted = false)
    (hcommand : (w.interp i).commands.get? name = some command)
    (hdepth : (w.interp i).depth < maxDepth)
    (hrun : (command.run e i name args).run (w.beginCommand i name command (w.interp i).depth) =
      .ok completion w') :
    (invokeWords e i (name :: args)).run w =
      .ok completion (w'.modifyInterp i fun r => { r with depth := (w.interp i).depth }) := by
  have hensuring : (Act.ensuring (command.run e i name args) fun w' =>
      w'.modifyInterp i fun r => { r with depth := (w.interp i).depth })
        (w.beginCommand i name command (w.interp i).depth) =
      .ok completion (w'.modifyInterp i fun r => { r with depth := (w.interp i).depth }) := by
    rw [Act.ensuring, show command.run e i name args _ = _ from hrun]
  rw [run_invokeWords hlive hcommand hdepth]
  exact hensuring

theorem interp_beginCommand (hlive : (w.interp i).deleted = false) (name : String) (command : Command)
    (depth : Nat) :
    (w.beginCommand i name command depth).interp i = { w.interp i with depth := depth + 1 } :=
  World.interp_modifyInterp_of_live (w := w.record (.invoked i name command)) hlive _

theorem frames_beginCommand (hlive : (w.interp i).deleted = false) (name : String) (command : Command)
    (depth : Nat) : ((w.beginCommand i name command depth).interp i).frames = (w.interp i).frames := by
  rw [interp_beginCommand hlive]

/-- A command sees the variables that were there before it began. -/
theorem var?_beginCommand (hlive : (w.interp i).deleted = false) (name : String) (command : Command)
    (depth : Nat) (var : String) :
    ((w.beginCommand i name command depth).interp i).var? var = (w.interp i).var? var := by
  rw [interp_beginCommand hlive]
  rfl

/-- Nothing is left of a command that begins and ends but the note of it. -/
theorem World.leave_beginCommand (w : World) (i : InterpId) (name : String) (command : Command) :
    (w.beginCommand i name command (w.interp i).depth).modifyInterp i
      (fun r => { r with depth := (w.interp i).depth }) = w.record (.invoked i name command) := by
  have hinterps : w.interps.modify i (fun r => { r with depth := (w.interp i).depth }) = w.interps := by
    apply Table.modify_eq_self
    intro r hr
    rw [World.interp_of_get? hr]
  rw [World.beginCommand, World.modifyInterp_modifyInterp, World.modifyInterp]
  exact congrArg (fun interps => { w.record (.invoked i name command) with interps }) hinterps

/-- A command that fails before it has done anything does nothing. -/
theorem run_invokeWords_of_fails {args : List String} {command : Command} {failure : Abrupt}
    (hlive : (w.interp i).deleted = false)
    (hcommand : (w.interp i).commands.get? name = some command)
    (hdepth : (w.interp i).depth < maxDepth)
    (hrun : (command.run e i name args).run (w.beginCommand i name command (w.interp i).depth) =
      .ok (.error failure) (w.beginCommand i name command (w.interp i).depth)) :
    (invokeWords e i (name :: args)).run w =
      .ok (.error failure) (w.record (.invoked i name command)) := by
  rw [run_invokeWords_of_ends hlive hcommand hdepth hrun, World.leave_beginCommand]

/-- A command that sets a variable and does nothing else. It sees the interpreter one level deeper. -/
theorem run_invokeWords_of_writes {args : List String} {command : Command} {result var : String}
    (hlive : (w.interp i).deleted = false)
    (hcommand : (w.interp i).commands.get? name = some command)
    (hdepth : (w.interp i).depth < maxDepth)
    (hrun : (command.run e i name args).run (w.beginCommand i name command (w.interp i).depth) =
      .ok (.ok result) ((w.beginCommand i name command (w.interp i).depth).modifyInterp i
        fun r => r.setVar var value)) :
    (invokeWords e i (name :: args)).run w = .ok (.ok result)
      ((w.record (.invoked i name command)).modifyInterp i fun r => r.setVar var value) := by
  rw [run_invokeWords_of_ends hlive hcommand hdepth hrun, World.beginCommand,
    World.modifyInterp_modifyInterp, World.modifyInterp_modifyInterp]
  refine congrArg _ (World.modifyInterp_congr fun r hr => ?_)
  have hinterp : w.interp i = r := World.interp_of_get? hr
  rw [hinterp]
  exact r.setVar_setDepth var value (r.depth + 1)

end ScriptHost
