import Std.Data.String.ToNat
import ScriptHost.Proofs.Frames.Discipline

/-!
# The scope in which queued commands run

A scheduled script runs with the frames of all procedures put aside. A command that another thread
hands over is executed in the frames that are there when the owning thread serves it, which may be
inside of procedures. So it runs at global scope exactly if no procedure is running. Otherwise the
innermost procedure answers for it and has its variables changed, and only the procedures around
that one are left alone.
-/

namespace ScriptHost

variable {e : Engine} {w : World} {i : InterpId} {h : HandleId}

open Interpreter

/-- What an action answers, or what cuts it short. -/
def Act.result {α : Type} (act : Act α) (w : World) : Except Halt α :=
  match act w with
  | .ok a _ => .ok a
  | .error halt _ => .error halt

/-! ### A command that tells its scope -/

theorem run_checkLive_bind {α : Type} (hlive : (w.interp i).deleted = false)
    (f : PUnit → Exec α) : (checkLive i >>= f).run w = (f ()).run w := by
  have hcheck : (checkLive i).run w = .ok (.ok ()) w := by
    rw [run_checkLive, hlive]
    rfl
  exact Exec.run_bind_of_ok hcheck f

theorem run_getInterp_bind {α : Type} (f : Interpreter → Exec α) :
    ((getInterp i : Exec Interpreter) >>= f).run w = (f (w.interp i)).run w := rfl

/-- In a live interpreter that is not nested too deeply a command that is there is run. -/
theorem run_invokeWords {name : String} {args : List String} {command : Command}
    (hlive : (w.interp i).deleted = false)
    (hcommand : (w.interp i).commands.get? name = some command)
    (hdepth : (w.interp i).depth < maxDepth) :
    (invokeWords e i (name :: args)).run w =
      (command.runDeeper e i name args (w.interp i).depth).run w := by
  rw [invokeWords, run_checkLive_bind hlive, run_getInterp_bind, hcommand]
  simp only [Nat.not_le.2 hdepth, if_false]

theorem run_invokeWords_level (hlive : (w.interp i).deleted = false)
    (hinfo : (w.interp i).commands.get? "info" = some (.builtin .info))
    (hdepth : (w.interp i).depth < maxDepth) :
    (invokeWords e i ["info", "level"]).run w =
      .ok (.ok (toString (w.interp i).level))
        ((w.beginCommand i "info" (.builtin .info) (w.interp i).depth).modifyInterp i
          fun r => { r with depth := (w.interp i).depth }) := by
  have hlevel : ((w.beginCommand i "info" (.builtin .info) (w.interp i).depth).interp i).level =
      (w.interp i).level := by
    have hrecord : ((w.record (.invoked i "info" (.builtin .info))).interp i).deleted = false := hlive
    rw [World.beginCommand, World.interp_modifyInterp_of_live hrecord]
    rfl
  rw [run_invokeWords hlive hinfo hdepth, ← hlevel]
  rfl

namespace Handle

theorem result_executeQueued_of_ok {work : Work} {envelope : Envelope} {w' : World}
    (hi : w.interpOf? h = some i) (hwork : execute e i work w = .ok envelope w') :
    (executeQueued e h work).result w = .ok (envelope, none) := by
  have hrun : executeQueued e h work w = .ok (envelope, none) w' := by
    have hattempt := Act.attempt_of_ok hwork
    unfold executeQueued
    rw [Act.get_bind]
    simp only [hi]
    rw [Act.bind_of_ok hattempt]
    rfl
  rw [Act.result, hrun]

/-- Asked for its level as a queued command, an interpreter tells the number of procedures that are
running. -/
theorem result_executeQueued_level (hi : w.interpOf? h = some i)
    (hlive : (w.interp i).deleted = false)
    (hinfo : (w.interp i).commands.get? "info" = some (.builtin .info))
    (hdepth : (w.interp i).depth < maxDepth) :
    (executeQueued engine h (.invoke ["info", "level"])).result w =
      .ok (.ok (.text (toString (w.interp i).level)), none) := by
  obtain ⟨w', hwords⟩ : ∃ w', engine.call (.words i ["info", "level"]) w =
      .ok (.ok (toString (w.interp i).level)) w' :=
    ⟨_, run_invokeWords_level hlive hinfo hdepth⟩
  have hfinish : invokeFrom engine i ["info", "level"] w =
      .ok (.ok (toString (w.interp i).level)) w' := by
    rw [invokeFrom, Act.bind_of_ok hwords, finish]
    have hget (f : Interpreter → Act Completion) :
        (getInterp i >>= f) w' = f (w'.interp i) w' := rfl
    rw [hget]
    split <;> rfl
  have hwork : execute engine i (.invoke ["info", "level"]) w =
      .ok (.ok (.text (toString (w.interp i).level))) w' := by
    rw [execute, Act.bind_of_ok hfinish]
    rfl
  exact result_executeQueued_of_ok hi hwork

/-! ### Running at global scope -/

/-- Queued work of a handle with an interpreter has the answer and the effect on the global variables
that it would have with the global frame only, and it leaves the frames of procedure calls alone. -/
structure RunsGlobally (h : HandleId) (i : InterpId) (work : Work) (w : World) : Prop where
  result : (executeQueued engine h work).result w =
    (executeQueued engine h work).result (w.modifyInterp i Interpreter.dropCalls)
  globals : (((executeQueued engine h work).after w).interp i).globalFrame? =
    (((executeQueued engine h work).after
      (w.modifyInterp i Interpreter.dropCalls)).interp i).globalFrame?
  calls : (((executeQueued engine h work).after w).interp i).callFrames = (w.interp i).callFrames

theorem callFrames_eq_nil_iff {r : Interpreter} : r.callFrames = [] ↔ r.frames.length ≤ 1 := by
  rw [callFrames, ← List.length_eq_zero_iff, List.length_dropLast]
  omega

theorem dropCalls_of_callFrames_eq_nil {r : Interpreter} (h : r.callFrames = []) :
    r.dropCalls = r := by
  have hframes : r.frames.getLast?.toList = r.frames := by
    have hlength := callFrames_eq_nil_iff.1 h
    generalize r.frames = frames at hlength ⊢
    rcases frames with _ | ⟨base, _ | ⟨_, _⟩⟩
    · rfl
    · rfl
    · simp at hlength
  rw [dropCalls, hframes]

theorem runsGlobally_of_callFrames_eq_nil (hw : w.Tidy) (hlive : (w.interp i).deleted = false)
    (hcalls : (w.interp i).callFrames = []) (work : Work) : RunsGlobally h i work w := by
  have hsame : w.modifyInterp i dropCalls = w := by
    unfold World.modifyInterp
    rw [Table.modify_eq_self fun r hr => dropCalls_of_callFrames_eq_nil ?_]
    rwa [← World.interp_of_get? hr]
  refine ⟨by rw [hsame], by rw [hsame], ?_⟩
  have hlength := ((moves_executeQueued leads_engine h work w hw).leads.stays hw hlive).length_le
  have hone := callFrames_eq_nil_iff.1 hcalls
  rw [hcalls, callFrames_eq_nil_iff]
  omega

theorem callFrames_eq_nil_of_runsGlobally (hi : w.interpOf? h = some i)
    (hlive : (w.interp i).deleted = false)
    (hinfo : (w.interp i).commands.get? "info" = some (.builtin .info))
    (hdepth : (w.interp i).depth < maxDepth)
    (hruns : RunsGlobally h i (.invoke ["info", "level"]) w) : (w.interp i).callFrames = [] := by
  have hdropped := World.interp_modifyInterp_of_live hlive Interpreter.dropCalls
  have hresult := hruns.result
  rw [result_executeQueued_level hi hlive hinfo hdepth,
    result_executeQueued_level (i := i) (w := w.modifyInterp i dropCalls) hi
      (by rw [hdropped]; exact hlive) (by rw [hdropped]; exact hinfo)
      (by rw [hdropped]; exact hdepth), hdropped] at hresult
  have hzero : (w.interp i).dropCalls.level = 0 := by
    simp only [level, dropCalls]
    cases (w.interp i).frames.getLast? <;> rfl
  have hlevel : (w.interp i).level = 0 := by
    refine Nat.repr_inj.1 ?_
    simpa [hzero, toString] using hresult
  rw [callFrames_eq_nil_iff]
  rw [level] at hlevel
  omega

/-- A command that another thread hands over runs at global scope exactly if no procedure is running
when it is served. Whatever is running then, the frames of all procedures but the innermost one are
left as they are. -/
theorem runsGlobally_iff (hw : w.Tidy) (hi : w.interpOf? h = some i)
    (hlive : (w.interp i).deleted = false)
    (hinfo : (w.interp i).commands.get? "info" = some (.builtin .info))
    (hdepth : (w.interp i).depth < maxDepth) :
    (((∀ source, RunsGlobally h i (.eval source) w) ∧
      ∀ words, RunsGlobally h i (.invoke words) w) ↔ (w.interp i).callFrames = []) ∧
    ∀ work, (((executeQueued engine h work).after w).interp i).deleted = false →
      ∀ top middle base, (w.interp i).frames = top :: (middle ++ [base]) →
        ∃ top' base', (((executeQueued engine h work).after w).interp i).frames =
          top' :: (middle ++ [base']) := by
  refine ⟨⟨fun hruns => ?_, fun hcalls => ?_⟩, fun work hstill top middle base hframes => ?_⟩
  · exact callFrames_eq_nil_of_runsGlobally hi hlive hinfo hdepth (hruns.2 _)
  · exact ⟨fun _ => runsGlobally_of_callFrames_eq_nil hw hlive hcalls _,
      fun _ => runsGlobally_of_callFrames_eq_nil hw hlive hcalls _⟩
  · have hstays := (moves_executeQueued leads_engine h work w hw).leads.stays hw hlive
    exact (hstays.keeps hstill).exists_cons hframes

/-- A world with the handle of one interpreter. -/
def atRest : World :=
  ((({} : World).newInterp "" false none).2.adopt 0 {}).2.hold 1

theorem tidy_atRest : atRest.Tidy :=
  have hadopt : ((({} : World).newInterp "" false none).2.adopt 0 {}).2.Tidy :=
    ((Run.Leads.create {} "" false none).trans (World.leads_adopt _ 0 {})).tidy
      (World.tidy_of_no_interps rfl)
  hadopt.of_interpreters_eq rfl

theorem runsGlobally_atRest :
    atRest.Tidy ∧ atRest.interpOf? 1 = some 0 ∧ (atRest.interp 0).deleted = false ∧
      (atRest.interp 0).commands.get? "info" = some (.builtin .info) ∧
      (atRest.interp 0).depth < maxDepth ∧
      ∀ source, RunsGlobally 1 0 (.eval source) atRest :=
  ⟨tidy_atRest, rfl, rfl, rfl, by decide,
    ((runsGlobally_iff tidy_atRest rfl rfl rfl (by decide)).1.2 rfl).1⟩

/-- The same world while a procedure with a variable is running, and a script waits in the mailbox
that sets a variable of this name. -/
def inProcedure : World :=
  ((atRest.submit 1 (.eval "set x hacked") none).2).modifyInterp 0 fun r =>
    r.enterCall ⟨[("x", "local")]⟩

/-- The queued script sets the variable of the procedure and not the global one. -/
theorem not_runsGlobally_inProcedure :
    ¬RunsGlobally 1 0 (.eval "set x hacked") inProcedure ∧
      (inProcedure.interp 0).var? "x" = some "local" ∧
      (((serveOne engine 1).after inProcedure).interp 0).var? "x" = some "hacked" ∧
      (((serveOne engine 1).after inProcedure).interp 0).global? "x" = none := by
  refine ⟨fun hruns => ?_, ?_⟩
  · have hlocal := congrArg (fun frames => (frames.head?.bind fun frame => frame.vars.get? "x"))
      hruns.calls
    revert hlocal
    decide +kernel
  · decide +kernel

end Handle

end ScriptHost
