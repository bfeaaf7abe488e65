import ScriptHost.Proofs.Run.Session

/-!
# Interpreters without frames

Every access to a variable needs a frame. An interpreter has one at every moment of every run
unless it was deleted from within one of its own procedures: the deletion leaves a single frame, and
the return of the procedure takes this one away. From then on every access to its variables panics.
-/

namespace ScriptHost

open Run

variable {i : InterpId} {w : World}

/-! ### Access to frames -/

theorem getFramed_of_ne_nil (h : (w.interp i).frames ≠ []) (name : String) :
    getFramed i name w = .ok (w.interp i) w := by
  have hframes : (w.interp i).frames.isEmpty = false := by simpa using h
  have hget : getFramed i name w =
      (if (w.interp i).frames.isEmpty then noFrame name else return w.interp i : Act _) w := rfl
  rw [hget, hframes]
  rfl

theorem getFramed_of_eq_nil (h : (w.interp i).frames = []) (name : String) :
    getFramed i name w = noFrame name w := by
  have hget : getFramed i name w =
      (if (w.interp i).frames.isEmpty then noFrame name else return w.interp i : Act _) w := rfl
  rw [hget, h]
  rfl

theorem evalAtGlobal_of_ne_nil (h : (w.interp i).frames ≠ []) (e : Engine) (source : String) :
    evalAtGlobal e i source w =
      (evalFrom e i source).ensuring (restoreFrames i (w.interp i).callFrames)
        (w.modifyInterp i Interpreter.dropCalls) := by
  have hframes : (w.interp i).frames.isEmpty = false := by simpa using h
  have heval : evalAtGlobal e i source w =
      (if (w.interp i).frames.isEmpty then
        Act.panic "\x60at\x60 split index (is 1) should be <= len (is 0)"
      else do
        updateInterp i Interpreter.dropCalls
        (evalFrom e i source).ensuring (restoreFrames i (w.interp i).callFrames) : Act _) w := rfl
  rw [heval, hframes]
  rfl

/-! ### Every moment of every run -/

namespace Run

variable {c : Config}

/-- Outside of the procedures from within which it was deleted an interpreter has a frame. -/
theorem frames_ne_nil_of_not_mem_cut (hc : Reachable c) (hi : i ∉ c.cut) :
    (c.world.interp i).frames ≠ [] := by
  cases hr : c.world.interps.get? i with
  | none => simp [World.interp, Table.getD, hr]
  | some r =>
    have hlen := (hc.sound.fits i r hr).1 hi
    rw [World.interp_of_get? hr, ← List.length_pos_iff, hlen]
    exact Nat.succ_pos _

theorem deleted_of_mem_cut (hc : Reachable c) (hi : i ∈ c.cut) :
    (c.world.interp i).deleted = true := by
  obtain ⟨r, hr⟩ := hc.sound.ofCut i hi
  rw [World.interp_of_get? hr]
  exact ((hc.sound.fits i r hr).2 hi).1

/-- An interpreter that was deleted from within a procedure has no frame when the last call since
its frames were put aside has returned. -/
theorem frames_eq_nil_of_mem_cut (hc : Reachable c) (hi : i ∈ c.cut)
    (hcalls : openCalls i c.brackets = 0) : (c.world.interp i).frames = [] := by
  obtain ⟨r, hr⟩ := hc.sound.ofCut i hi
  have hlen := ((hc.sound.fits i r hr).2 hi).2
  rw [hcalls] at hlen
  rw [World.interp_of_get? hr, ← List.length_eq_zero_iff]
  exact Nat.le_zero.1 hlen

open Session in
/-- The frames of an interpreter run out exactly if it is deleted while a procedure of it is
running. Otherwise it has a frame at every moment, so that no access to a variable and no event
handler panics. Whatever the engine does for a task and whatever a session does in a step consists
of moments of this kind. -/
theorem frames_ne_nil_unless_cut {w : World} (hw : w.interps = .empty)
    (hc : Steps ⟨w, [], ∅⟩ c) :
    (∀ i, i ∉ c.cut → (c.world.interp i).frames ≠ [] ∧
      (∀ name, getFramed i name c.world = .ok (c.world.interp i) c.world) ∧
      ∀ e source, evalAtGlobal e i source c.world =
        (evalFrom e i source).ensuring (restoreFrames i (c.world.interp i).callFrames)
          (c.world.modifyInterp i Interpreter.dropCalls)) ∧
    (∀ i ∈ c.cut, (c.world.interp i).deleted = true ∧
      (openCalls i c.brackets = 0 → (c.world.interp i).frames = [] ∧
        ∀ name, getFramed i name c.world = noFrame name c.world)) ∧
    (∀ i, i ∈ c.cut ↔ ∃ u u', Steps ⟨w, [], ∅⟩ u ∧ Step u u' ∧ Steps u' c ∧
      (u.world.interp i).deleted = false ∧ (u.world.interp i).callFrames ≠ [] ∧
      (u'.world.interp i).deleted = true) ∧
    (∀ {α : Type} (task : Task α), ∃ cut,
      Steps c ⟨(engine.call task).after c.world, c.brackets, cut⟩) ∧
    (∀ (step : HostStep) (session : HostSession), ∃ cut,
      Steps c ⟨(step.run session c.world).2.2, c.brackets, cut⟩) ∧
    ∀ (step : ScriptStep) (session : ScriptSession), ∃ cut,
      Steps c ⟨(step.run session c.world).2.2, c.brackets, cut⟩ := by
  have hreach : Reachable c := ⟨w, hw, hc⟩
  refine ⟨fun i hi => ?_, fun i hi => ?_, fun i => mem_cut_iff hc, fun task => ?_,
    fun step session => ?_, fun step session => ?_⟩
  · have hframes := frames_ne_nil_of_not_mem_cut hreach hi
    exact ⟨hframes, getFramed_of_ne_nil hframes, evalAtGlobal_of_ne_nil hframes⟩
  · refine ⟨deleted_of_mem_cut hreach hi, fun hcalls => ?_⟩
    have hframes := frames_eq_nil_of_mem_cut hreach hi hcalls
    exact ⟨hframes, getFramed_of_eq_nil hframes⟩
  · exact (leads_engine task c.world hreach.tidy).leads.steps c.brackets c.cut
  · exact (step.leads_run session hreach.tidy).steps c.brackets c.cut
  · exact (step.leads_run session hreach.tidy).steps c.brackets c.cut

/-- A world with one interpreter, which is in a procedure call. -/
def inCall : World :=
  (({} : World).newInterp "" true none).2.modifyInterp 0 fun r => r.enterCall .empty

/-- The moment when the interpreter was deleted from within the call and the call returned. -/
def afterCut : Config :=
  ⟨(inCall.delete 0).modifyInterp 0 Interpreter.leaveCall, [],
    ∅ ∪ cutBetween inCall (inCall.delete 0)⟩

theorem frames_afterCut : 0 ∈ afterCut.cut ∧ (afterCut.world.interp 0).frames = [] := by
  have hsteps : Steps ⟨{}, [], ∅⟩ afterCut :=
    .head (.create "" true none) <| .head (.enterCall .empty rfl) <|
      .head (.delete 0) <| .single .leaveCall
  have hcalls : (inCall.interp 0).callFrames.isEmpty = false := by decide +kernel
  have hcut : 0 ∈ afterCut.cut := .inr ⟨rfl, by simpa using hcalls, by decide +kernel⟩
  exact ⟨hcut, (((frames_ne_nil_unless_cut rfl hsteps).2.1 0 hcut).2 rfl).1⟩

end Run

/-- A world with one interpreter, which has a command that deletes it. -/
def selfDeleting : World :=
  (({} : World).newInterp "" true none).2.defineCommand 0 "del" (.host .delete)

/-- A script deletes its interpreter from within a procedure. After that no variable of the
interpreter can be looked at. -/
theorem frames_eq_nil_of_delete_in_procedure :
    let w := (engine.call (.script 0 "proc p \x7b\x7d del; p")).after selfDeleting
    (∃ cut, Reachable ⟨w, [], cut⟩) ∧ (w.interp 0).frames = [] ∧
      getGlobal 0 "x" w =
        .error (.panic (.text "index out of bounds: the len is 0 but the index is 0")) w := by
  intro w
  have hframes : (w.interp 0).frames = [] := by
    have hempty : (w.interp 0).frames.isEmpty = true := by decide +kernel
    simpa using hempty
  refine ⟨?_, hframes, ?_⟩
  · have hdeleting : Reachable ⟨selfDeleting, [], ∅⟩ :=
      ⟨{}, rfl, .head (.create "" true none) (.single (.edit 0 (.define _ _)))⟩
    obtain ⟨cut, h⟩ := (leads_engine (.script 0 _) selfDeleting hdeleting.tidy).leads.steps [] ∅
    exact ⟨cut, hdeleting.steps h⟩
  · have hget : getGlobal 0 "x" w = (getFramed 0 "::" >>= fun r => return r.global? "x" : Act _) w :=
      rfl
    rw [hget]
    simp only [Bind.bind, EStateM.bind, getFramed_of_eq_nil hframes]
    rfl

end ScriptHost
