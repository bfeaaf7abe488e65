import ScriptHost.Proofs.Frames.Busy
import ScriptHost.Proofs.Handle.Scope
import ScriptHost.Proofs.Run.Enclosed

/-!
# Completions in the background

A scheduled script and the command that evaluates in a child show a completion as it is if the
interpreter is busy, and as an outermost one if it is idle. Whether it is busy is decided after the
evaluation, but no code changes that for the code around it, so it is decided by who is serving. The
two agree exactly for the completions that look the same either way: normal ends and errors, and
codes for a loop whose value is the complaint about them.
-/

namespace ScriptHost

namespace Completion

/-- What an evaluation from outside makes of a completion. -/
def seen (busy : Bool) (completion : Completion) : Completion :=
  if busy then completion else completion.outermost

/-- The message that a scheduled script reports when it ends so. -/
def complaint : Completion → Option String
  | .ok _ => none
  | .error end_ => some end_.value

/-- How the command that evaluates in a child ends when the script ends so. -/
def relayed : Completion → Completion
  | .ok value => .ok value
  | .error end_ => .fail end_.value

/-- A completion that looks the same as an outermost one. -/
def Plain : Completion → Prop
  | .ok _ => True
  | .error end_ =>
    end_.code = .error ∨
      (end_.code = .breaking ∨ end_.code = .continuing) ∧
        end_.value = (Abrupt.outsideLoop end_.code).value

theorem complaint_eq_iff (raw : Completion) :
    raw.complaint = raw.outermost.complaint ↔ raw.Plain := by
  rcases raw with ⟨code, value⟩ | value
  · cases code <;> simp [outermost, complaint, Plain, Abrupt.outsideLoop]
  · simp [outermost, complaint, Plain]

theorem relayed_eq_iff (raw : Completion) : raw.relayed = raw.outermost.relayed ↔ raw.Plain := by
  rcases raw with ⟨code, value⟩ | value
  · cases code <;> simp [outermost, relayed, Plain, Abrupt.outsideLoop, fail, Abrupt.error]
  · simp [outermost, relayed, Plain]

end Completion

variable {e : Engine} {w w' : World} {i : InterpId}

/-! ### Who is busy -/

namespace Run

/-- Every piece of code leaves each interpreter as deep in commands as it was. -/
theorem Leads.depth_eq (h : Leads w w') (hw : w.Tidy) (i : InterpId) :
    (w'.interp i).depth = (w.interp i).depth := by
  induction h with
  | rest h => rw [World.interp_eq_of_interpreters_eq h]
  | edit hf w j => exact World.keeps_modifyInterp (·.depth) hf.depth_eq w j i
  | create w name safe parent => exact World.depth_newInterp hw.known name safe parent i
  | delete w j => exact (World.prunes_delete w j).depth i
  | trans h _ ih ih' => exact (ih' (h.tidy hw)).trans (ih hw)
  | @call w w' j vars _ _ ih =>
    have henter := World.keeps_modifyInterp (·.depth) (f := fun r => r.enterCall vars)
      (fun r => rfl) w j i
    have hleave := World.keeps_modifyInterp (·.depth) (f := Interpreter.leaveCall)
      (fun r => rfl) w' j i
    exact hleave.trans ((ih (hw.modifyInterp fun r hr => hr)).trans henter)
  | @aside w w' j _ _ ih =>
    have henter := World.keeps_modifyInterp (·.depth) (f := Interpreter.dropCalls)
      (fun r => rfl) w j i
    have hleave := World.keeps_modifyInterp (·.depth)
      (f := fun r => r.restoreCalls (w.interp j).callFrames) (fun r => rfl) w' j i
    exact hleave.trans ((ih (hw.modifyInterp fun r hr => hr)).trans henter)
  | @command w w' j hlive hdepth h ih =>
    by_cases hj : j = i
    · subst hj
      have hbegun : (w.modifyInterp j fun r =>
          { r with depth := (w.interp j).depth + 1 }).interps.get? j =
          some { w.interp j with depth := (w.interp j).depth + 1 } := by
        rw [World.get?_modifyInterp, if_pos rfl, World.get?_of_live hlive]
        rfl
      obtain ⟨r, hr, -⟩ := h.exists_stays (hw.modifyInterp fun r _ => hdepth) hbegun
      rw [World.interp_modifyInterp_self (by rw [hr]; rfl)]
    · rw [World.interp_modifyInterp_of_ne hj, ih (hw.modifyInterp fun r _ => hdepth),
        World.interp_modifyInterp_of_ne hj]

end Run

theorem isBusy_of_moves {α : Type} {act : Act α} (hact : act.Moves Run.Leads) (hw : w.Tidy)
    (i : InterpId) : ((act.after w).interp i).isBusy = (w.interp i).isBusy := by
  rw [Interpreter.isBusy, Interpreter.isBusy, (hact w hw).leads.depth_eq hw i]

/-! ### What is shown of a completion -/

/-- Evaluate a script with the global frame only and report its completion as it is. -/
def rawAtGlobal (e : Engine) (i : InterpId) (source : String) : Act Completion := do
  let r ← getInterp i
  if r.frames.isEmpty then
    Act.panic "\x60at\x60 split index (is 1) should be <= len (is 0)"
  else
    updateInterp i Interpreter.dropCalls
    (e.call (.script i source)).ensuring (restoreFrames i r.callFrames)

/-- Evaluate a scheduled script and tell what it complains about, if anything. -/
def complaintOfAfter (e : Engine) (i : InterpId) (id script : String) : Act (Option String) := do
  modify fun w => (w.takeAfter i id).2
  if (← getInterp i).deleted then return none
  return (← evalAtGlobal e i script).complaint

/-- Hand a complaint to the command for background errors, if there is one. -/
def reportComplaint (e : Engine) (i : InterpId) : Option String → Act Unit
  | none => return
  | some message => do
    if (← getInterp i).commands.contains "bgerror" then
      let _ ← invokeFrom e i ["bgerror", message]

theorem getInterp_bind {α : Type} (f : Interpreter → Act α) (w : World) :
    (getInterp i >>= f) w = f (w.interp i) w := rfl

/-- A scheduled script reports what it complains about and nothing else. -/
theorem runAfter_eq (e : Engine) (i : InterpId) (id script : String) :
    runAfter e i id script = complaintOfAfter e i id script >>= reportComplaint e i := by
  funext w
  rw [runAfter, complaintOfAfter]
  simp only [bind_assoc, Act.modify_bind]
  rw [getInterp_bind, getInterp_bind]
  split
  · rfl
  · simp only [bind_assoc, pure_bind]
    refine congrFun (bind_congr fun completion => ?_) _
    cases completion <;> rfl

theorem evalFrom_eq (he : e.Moves Run.Leads) (hw : w.Tidy) (i : InterpId) (source : String) :
    evalFrom e i source w =
      (Completion.seen (w.interp i).isBusy <$> e.call (.script i source)) w := by
  cases hrun : e.call (.script i source) w with
  | ok raw w' =>
    have hbusy := isBusy_of_moves (he (.script i source)) hw i
    rw [Act.after_of_ok hrun] at hbusy
    rw [evalFrom, Act.bind_of_ok hrun, finish_eq, Act.map_of_ok hrun, ← hbusy]
    rfl
  | error halt w' =>
    rw [evalFrom, Act.bind_of_error hrun, map_eq_pure_bind, Act.bind_of_error hrun]

theorem ensuring_eq_map {α β : Type} {act : Act α} {act' : Act β} {f : β → α}
    (h : act w = (f <$> act') w) (g : World → World) :
    act.ensuring g w = (f <$> act'.ensuring g) w := by
  rw [Act.ensuring, h, map_eq_pure_bind, map_eq_pure_bind]
  simp only [Bind.bind, EStateM.bind, Act.ensuring]
  cases act' w <;> rfl

theorem evalAtGlobal_eq (he : e.Moves Run.Leads) (hw : w.Tidy) (i : InterpId) (source : String) :
    evalAtGlobal e i source w =
      (Completion.seen (w.interp i).isBusy <$> rawAtGlobal e i source) w := by
  have haside : ((w.modifyInterp i Interpreter.dropCalls).interp i).isBusy =
      (w.interp i).isBusy :=
    World.keeps_modifyInterp Interpreter.isBusy (f := Interpreter.dropCalls) (fun r => rfl) w i i
  have htidy : (w.modifyInterp i Interpreter.dropCalls).Tidy := hw.modifyInterp fun r hr => hr
  rw [evalAtGlobal, rawAtGlobal, map_eq_pure_bind, bind_assoc, getInterp_bind, getInterp_bind]
  split
  · rfl
  · rw [← haside, bind_assoc, updateInterp, Act.modify_bind, Act.modify_bind,
      ensuring_eq_map (evalFrom_eq he htidy i source), map_eq_pure_bind]

theorem result_of_map_eq {α β : Type} {act : Act α} {act' : Act β} {f : β → α} {b : β}
    (h : act w = (f <$> act') w) (hresult : act'.result w = .ok b) : act.result w = .ok (f b) := by
  rw [Act.result, h, map_eq_pure_bind]
  rw [Act.result] at hresult
  cases hact : act' w with
  | ok b' w' =>
    rw [hact] at hresult
    cases hresult
    rw [Act.bind_of_ok hact]
    rfl
  | error halt w' =>
    rw [hact] at hresult
    cases hresult

/-- The script scheduled under an id in a live interpreter is evaluated to a completion. -/
structure Fires (e : Engine) (i : InterpId) (id script : String) (raw : Completion) (w : World) :
    Prop where
  tidy : w.Tidy
  live : (w.interp i).deleted = false
  ends : (rawAtGlobal e i script).result (w.takeAfter i id).2 = .ok raw

/-- A script is evaluated to a completion in the child that an interpreter knows by a name. -/
structure EvaluatesIn (e : Engine) (p : InterpId) (name : String) (c : InterpId) (script : String)
    (raw : Completion) (w : World) : Prop where
  tidy : w.Tidy
  child : (w.interp p).children.get? name = some c
  ends : (e.call (.script c script)).result w = .ok raw

theorem Fires.result_complaintOfAfter {id script : String} {raw : Completion}
    (h : Fires e i id script raw w) (he : e.Moves Run.Leads) :
    (complaintOfAfter e i id script).result w =
      .ok (raw.seen (w.interp i).isBusy).complaint := by
  have hbusy : ((w.takeAfter i id).2.interp i).isBusy = (w.interp i).isBusy :=
    World.keeps_modifyInterp Interpreter.isBusy
      (f := fun r => { r with afters := r.afters.erase id }) (fun r => rfl) w i i
  have hlive : ((w.takeAfter i id).2.interp i).deleted = false :=
    (World.keeps_modifyInterp Interpreter.deleted
      (f := fun r => { r with afters := r.afters.erase id }) (fun r => rfl) w i i).trans h.live
  have htidy : (w.takeAfter i id).2.Tidy := h.tidy.modifyInterp fun r hr => hr
  have heval := result_of_map_eq (evalAtGlobal_eq he htidy i script) h.ends
  have hafter : (complaintOfAfter e i id script).result w =
      (Completion.complaint <$> evalAtGlobal e i script).result (w.takeAfter i id).2 := by
    rw [complaintOfAfter, Act.result, Act.modify_bind, getInterp_bind, hlive, map_eq_pure_bind]
    rfl
  rw [hafter, ← hbusy]
  exact result_of_map_eq rfl heval

theorem run_interp_eval {p c : InterpId} {name script : String}
    (hchild : (w.interp p).children.get? name = some c) :
    (Command.interp e p ["eval", name, script]).run w =
      (Completion.relayed <$> evalFrom e c script) w := by
  have hjoin : Command.joinWords [script] = script := by simp [Command.joinWords]
  simp only [Command.interp, hjoin]
  rw [Command.run_childNamed_bind hchild, map_eq_pure_bind]
  cases hrun : evalFrom e c script w with
  | ok completion w' =>
    have hobserve : (Exec.ofAct (evalFrom e c script)).observe.run w = .ok (.ok completion) w' :=
      Act.bind_of_ok hrun _
    rw [Act.bind_of_ok hrun]
    exact (Act.bind_of_ok hobserve _).trans (by cases completion <;> rfl)
  | error halt w' =>
    have hobserve : (Exec.ofAct (evalFrom e c script)).observe.run w = .error halt w' :=
      Act.bind_of_error hrun _
    rw [Act.bind_of_error hrun]
    exact Act.bind_of_error hobserve _

theorem EvaluatesIn.result_interp_eval {p c : InterpId} {name script : String} {raw : Completion}
    (h : EvaluatesIn e p name c script raw w) (he : e.Moves Run.Leads) :
    Act.result (Command.interp e p ["eval", name, script]).run w =
      .ok (raw.seen (w.interp c).isBusy).relayed := by
  have heval := result_of_map_eq (evalFrom_eq he h.tidy c script) h.ends
  exact result_of_map_eq (run_interp_eval h.child) heval

/-! ### Busy and idle -/

/-- When a script has the same completion as it is in a busy and in an idle interpreter, a handler
for it reports the same, and the command that evaluates in a child ends in the same way, exactly if
that completion looks the same as an outermost one. A handler has no other effect after the
evaluation than to report. -/
theorem background_agrees_iff (fuel fuel' : Nat) {i : InterpId} {raw : Completion}
    {busy idle : World} (hbusy : (busy.interp i).isBusy = true)
    (hidle : (idle.interp i).isBusy = false) :
    let e : Engine := ⟨fuel, runWithin fuel⟩
    let e' : Engine := ⟨fuel', runWithin fuel'⟩
    (∀ id id' script, Fires e i id script raw busy → Fires e' i id' script raw idle →
      (complaintOfAfter e i id script).result busy = .ok raw.complaint ∧
      (complaintOfAfter e' i id' script).result idle = .ok raw.outermost.complaint ∧
      (raw.complaint = raw.outermost.complaint ↔ raw.Plain)) ∧
    (∀ p p' name name' script, EvaluatesIn e p name i script raw busy →
      EvaluatesIn e' p' name' i script raw idle →
      Act.result (Command.interp e p ["eval", name, script]).run busy = .ok raw.relayed ∧
      Act.result (Command.interp e' p' ["eval", name', script]).run idle =
        .ok raw.outermost.relayed ∧
      (raw.relayed = raw.outermost.relayed ↔ raw.Plain)) ∧
    ∀ id script, runAfter e i id script =
      complaintOfAfter e i id script >>= reportComplaint e i := by
  have hseen : raw.seen true = raw ∧ raw.seen false = raw.outermost := ⟨rfl, rfl⟩
  refine ⟨fun id id' script h h' => ⟨?_, ?_, raw.complaint_eq_iff⟩,
    fun p p' name name' script h h' => ⟨?_, ?_, raw.relayed_eq_iff⟩, runAfter_eq _ i⟩
  · rw [h.result_complaintOfAfter (moves_runWithin fuel), hbusy, hseen.1]
  · rw [h'.result_complaintOfAfter (moves_runWithin fuel'), hidle, hseen.2]
  · rw [h.result_interp_eval (moves_runWithin fuel), hbusy, hseen.1]
  · rw [h'.result_interp_eval (moves_runWithin fuel'), hidle, hseen.2]

/-- A world with an interpreter and its child, both idle. -/
def family : World :=
  ((({} : World).newInterp "" false none).2.createChild 0 "c" false).2

/-- The same with the child in the middle of a command. -/
def familyAtWork : World :=
  family.modifyInterp 1 fun r => { r with depth := 1 }

theorem tidy_family : family.Tidy :=
  (World.leads_createChild _ 0 "c" false).tidy
    ((World.tidy_of_no_interps (w := {}) rfl).newInterp "" false none)

theorem tidy_familyAtWork : familyAtWork.Tidy :=
  tidy_family.modifyInterp fun _ _ => show 1 ≤ Interpreter.maxDepth by decide

theorem background_agrees_family :
    (complaintOfAfter engine 1 "after#0" "error no").result familyAtWork = .ok (some "no") ∧
    (complaintOfAfter engine 1 "after#0" "error no").result family = .ok (some "no") ∧
    Act.result (Command.interp engine 0 ["eval", "c", "error no"]).run familyAtWork =
      .ok (Completion.fail "no") ∧
    Act.result (Command.interp engine 0 ["eval", "c", "error no"]).run family =
      .ok (Completion.fail "no") := by
  obtain ⟨hafter, heval, -⟩ := @background_agrees_iff ampleFuel ampleFuel 1 (Completion.fail "no")
    familyAtWork family (by decide +kernel) (by decide +kernel)
  obtain ⟨hbusy, hidle, -⟩ := hafter "after#0" "after#0" "error no"
    ⟨tidy_familyAtWork, by decide +kernel, by decide +kernel⟩
    ⟨tidy_family, by decide +kernel, by decide +kernel⟩
  obtain ⟨hbusy', hidle', -⟩ := heval 0 0 "c" "c" "error no"
    ⟨tidy_familyAtWork, by decide +kernel, by decide +kernel⟩
    ⟨tidy_family, by decide +kernel, by decide +kernel⟩
  exact ⟨hbusy, hidle, hbusy', hidle'⟩

/-- A handler whose script ends in a return reports an error if `update` serves it inside of a
script, and none if it is served afterwards. In a child a return is an error while the child is in
the middle of a command, and a normal end otherwise. -/
theorem return_seen_by_busy :
    let scheduled := Act.after (evalFrom engine 0
      "proc bgerror m \x7bset ::told $m\x7d; after idle \x7breturn x\x7d") family
    ((Act.after (evalFrom engine 0 "update") scheduled).interp 0).global? "told" = some "x" ∧
    ((Act.after (engine.call (.event .all)) scheduled).interp 0).global? "told" = none ∧
    Act.result (Command.interp engine 0 ["eval", "c", "return x"]).run familyAtWork =
      .ok (Completion.fail "x") ∧
    Act.result (Command.interp engine 0 ["eval", "c", "return x"]).run family = .ok (.ok "x") ∧
    (complaintOfAfter engine 1 "after#0" "break").result familyAtWork = .ok (some "") ∧
    (complaintOfAfter engine 1 "after#0" "break").result family =
      .ok (some "invoked \"break\" outside of a loop") := by
  decide +kernel

end ScriptHost
