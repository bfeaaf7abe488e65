import ScriptHost.Proofs.Run.Session

/-!
# What an evaluation leaves of the frames

Code works in the innermost frame and in the global one. Whatever it calls has frames of its own,
which are gone afterwards, and an event handler finds the frames of the calls around it put aside.
So in an interpreter that is not deleted all frames but these two are the same after an evaluation,
however it ends, and the depth is what it was.
-/

namespace ScriptHost

namespace Interpreter

variable {r r' r'' : Interpreter}

/-- The number of frames, the frames between the innermost and the global one, and the depth are
the same. -/
structure KeepsCalls (r r' : Interpreter) : Prop where
  length : r'.frames.length = r.frames.length
  middle : r'.frames.dropLast.tail = r.frames.dropLast.tail
  depth : r'.depth = r.depth

theorem KeepsCalls.refl (r : Interpreter) : KeepsCalls r r :=
  ⟨rfl, rfl, rfl⟩

theorem KeepsCalls.trans (h : KeepsCalls r r') (h' : KeepsCalls r' r'') : KeepsCalls r r'' :=
  ⟨h'.length.trans h.length, h'.middle.trans h.middle, h'.depth.trans h.depth⟩

theorem KeepsCalls.of_frames_eq (hframes : r'.frames = r.frames) (hdepth : r'.depth = r.depth) :
    KeepsCalls r r' :=
  ⟨by rw [hframes], by rw [hframes], hdepth⟩

/-! ### Changes of variables -/

theorem dropLast_modifyLast {α : Type} (f : α → α) (as : List α) :
    (modifyLast f as).dropLast = as.dropLast := by
  fun_induction modifyLast f as with
  | case1 => rfl
  | case2 => rfl
  | case3 a as h ih =>
    have hne : modifyLast f as ≠ [] := by
      rw [← List.length_pos_iff, length_modifyLast, List.length_pos_iff]
      exact h
    rw [List.dropLast_cons_of_ne_nil hne, List.dropLast_cons_of_ne_nil h, ih]

theorem keepsCalls_modifyGlobal (r : Interpreter) (f : Frame → Frame) :
    KeepsCalls r (r.modifyGlobal f) :=
  ⟨length_modifyLast f r.frames, congrArg List.tail (dropLast_modifyLast f r.frames), rfl⟩

theorem keepsCalls_modifyTop (r : Interpreter) (f : Frame → Frame) :
    KeepsCalls r (r.modifyTop f) := by
  refine ⟨(onlyVars_modifyTop r f).length_frames, ?_, rfl⟩
  rw [modifyTop]
  cases r.frames with
  | nil => rfl
  | cons top rest => cases rest <;> rfl

theorem keepsCalls_modifyFrameOf (r : Interpreter) (name : String) (f : Frame → Frame) :
    KeepsCalls r (r.modifyFrameOf name f) := by
  rw [modifyFrameOf]
  split
  · exact keepsCalls_modifyGlobal r f
  · exact keepsCalls_modifyTop r f

theorem keepsCalls_linkGlobal (r : Interpreter) (name : String) :
    KeepsCalls r (r.linkGlobal name) := by
  have hvars := onlyVars_linkGlobal r name
  refine ⟨hvars.length_frames, ?_, hvars.keeps depth fun _ _ => rfl⟩
  rw [linkGlobal]
  split
  · next h => rw [h]; rfl
  · rfl

theorem Edit.keepsCalls {f : Interpreter → Interpreter} (hf : Edit f) (r : Interpreter) :
    KeepsCalls r (f r) := by
  cases hf with
  | setVar name value =>
    dsimp only [Interpreter.setVar]
    split
    · exact (keepsCalls_modifyFrameOf r name _).trans (.of_frames_eq rfl rfl)
    · exact keepsCalls_modifyFrameOf r name _
  | unsetVar name => exact keepsCalls_modifyFrameOf r name _
  | setGlobal name value =>
    exact (keepsCalls_modifyGlobal r _).trans (.of_frames_eq rfl rfl)
  | unsetGlobal name => exact keepsCalls_modifyGlobal r _
  | linkGlobals names =>
    induction names generalizing r with
    | nil => exact .refl r
    | cons name names ih => exact (keepsCalls_linkGlobal r name).trans (ih _)
  | define name command =>
    dsimp only
    split
    · exact .refl r
    · exact .of_frames_eq rfl rfl
  | undefine | generateName | addChild | schedule | unschedule | onDelete | onChild =>
    exact .of_frames_eq rfl rfl

/-! ### Brackets -/

theorem KeepsCalls.call {vars : Table String String} (h : KeepsCalls (r.enterCall vars) r') :
    KeepsCalls r r'.leaveCall := by
  have hlength : r'.frames.length = r.frames.length + 1 := h.length
  have hmiddle : r'.frames.dropLast.tail = r.frames.dropLast := by
    rw [h.middle, List.tail_dropLast]
    rfl
  refine ⟨?_, ?_, h.depth⟩
  · simp only [leaveCall, List.length_tail]
    omega
  · simp only [leaveCall]
    rw [← List.tail_dropLast, hmiddle]

theorem KeepsCalls.aside (h : KeepsCalls r.dropCalls r') :
    KeepsCalls r (r'.restoreCalls r.callFrames) := by
  have hlength : r'.frames.length = r.frames.getLast?.toList.length := h.length
  cases hframes : r.frames.getLast? with
  | none =>
    have hnil : r.frames = [] := List.getLast?_eq_none_iff.1 hframes
    rw [hframes] at hlength
    have hnil' : r'.frames = [] := List.length_eq_zero_iff.1 hlength
    exact ⟨by simp [restoreCalls, callFrames, hnil, hnil'],
      by simp [restoreCalls, callFrames, hnil, hnil'], h.depth⟩
  | some base =>
    rw [hframes] at hlength
    obtain ⟨base', hbase⟩ := List.length_eq_one_iff.1 hlength
    have hne : r.frames ≠ [] := by
      rintro hnil
      simp [hnil] at hframes
    refine ⟨?_, ?_, h.depth⟩
    · simp only [restoreCalls, callFrames, hbase, List.length_append, List.length_dropLast,
        List.length_singleton]
      have := List.length_pos_iff.2 hne
      omega
    · simp only [restoreCalls, callFrames, hbase, List.dropLast_concat]

/-! ### The shape of the stack -/

theorem KeepsCalls.exists_singleton {base : Frame} (h : KeepsCalls r r')
    (hr : r.frames = [base]) : ∃ base', r'.frames = [base'] := by
  have hlength := h.length
  rw [hr] at hlength
  exact List.length_eq_one_iff.1 hlength

theorem KeepsCalls.exists_cons {top base : Frame} {middle : List Frame} (h : KeepsCalls r r')
    (hr : r.frames = top :: (middle ++ [base])) :
    ∃ top' base', r'.frames = top' :: (middle ++ [base']) := by
  obtain ⟨hlength, hmiddle, -⟩ := h
  rw [hr] at hlength hmiddle
  obtain ⟨top', rest, hframes⟩ : ∃ top' rest, r'.frames = top' :: rest :=
    List.exists_cons_of_length_pos (by rw [hlength]; simp)
  rw [hframes] at hlength hmiddle ⊢
  have hne : rest ≠ [] := by
    rintro rfl
    simp at hlength
  refine ⟨top', rest.getLast hne, ?_⟩
  rw [List.tail_dropLast, List.tail_dropLast, List.tail_cons, List.tail_cons,
    List.dropLast_concat] at hmiddle
  rw [← hmiddle, List.dropLast_concat_getLast]

end Interpreter

namespace Run

open Interpreter

variable {w w' : World} {i : InterpId}

/-! ### Whole pieces of code -/

/-- What some code leaves of an interpreter: if it was deleted before, it still is; unless it is
deleted afterwards, its calls are kept; and it has not got more frames, but for the one that a
deletion leaves. -/
structure Stays (r r' : Interpreter) : Prop where
  deleted : r.deleted = true → r'.deleted = true
  keeps : r'.deleted = false → KeepsCalls r r'
  length_le : r'.frames.length ≤ max 1 r.frames.length

section

variable {r r' r'' : Interpreter}

theorem Stays.of_keepsCalls (hdeleted : r'.deleted = r.deleted) (h : KeepsCalls r r') :
    Stays r r' :=
  ⟨fun hgone => hdeleted.trans hgone, fun _ => h, h.length ▸ Nat.le_max_right _ _⟩

theorem Stays.refl (r : Interpreter) : Stays r r :=
  .of_keepsCalls rfl (.refl r)

theorem Stays.trans (h : Stays r r') (h' : Stays r' r'') : Stays r r'' := by
  refine ⟨fun hr => h'.deleted (h.deleted hr), fun hlive => ?_, ?_⟩
  · have hlive' : r'.deleted = false := by
      by_contra hr'
      simp [h'.deleted (by simpa using hr')] at hlive
    exact (h.keeps hlive').trans (h'.keeps hlive)
  · have := h.length_le
    have := h'.length_le
    omega

theorem stays_of_pruned (h : World.Pruned r r') : Stays r r' := by
  obtain ⟨hdepth, ⟨hframes, hdeleted⟩ | ⟨-, hdeleted, hframes⟩⟩ := h
  · exact .of_keepsCalls hdeleted (.of_frames_eq hframes hdepth)
  · refine ⟨fun _ => hdeleted, fun hlive => by simp [hdeleted] at hlive, ?_⟩
    rw [hframes]
    exact Nat.le_max_left _ _

theorem Stays.call {vars : Table String String} (h : Stays (r.enterCall vars) r') :
    Stays r r'.leaveCall := by
  refine ⟨h.deleted, fun hlive => (h.keeps hlive).call, ?_⟩
  have hlength : r'.frames.length ≤ max 1 (r.frames.length + 1) := h.length_le
  simp only [leaveCall, List.length_tail]
  omega

theorem Stays.aside (h : Stays r.dropCalls r') : Stays r (r'.restoreCalls r.callFrames) := by
  refine ⟨h.deleted, fun hlive => (h.keeps hlive).aside, ?_⟩
  have hlength : r'.frames.length ≤ max 1 r.frames.getLast?.toList.length := h.length_le
  have hone : r.frames.getLast?.toList.length ≤ 1 := by cases r.frames.getLast? <;> simp
  simp only [restoreCalls, callFrames, List.length_append, List.length_dropLast]
  omega

theorem Stays.command {depth : Nat} (h : Stays { r with depth } r') :
    Stays r { r' with depth := r.depth } :=
  ⟨h.deleted, fun hlive => ⟨(h.keeps hlive).length, (h.keeps hlive).middle, rfl⟩, h.length_le⟩

end

/-- Code in a bracket keeps what is around the bracket if it keeps what is inside. -/
theorem exists_stays_bracket {j : InterpId} {r : Interpreter}
    {enter leave : Interpreter → Interpreter} (hr : w.interps.get? j = some r)
    (h : ∀ r, (w.modifyInterp i enter).interps.get? j = some r →
      ∃ r', w'.interps.get? j = some r' ∧ Stays r r')
    (hbracket : ∀ r', i = j → Stays (enter r) r' → Stays r (leave r')) :
    ∃ r', (w'.modifyInterp i leave).interps.get? j = some r' ∧ Stays r r' := by
  simp only [World.get?_modifyInterp, hr, Option.map_some] at h ⊢
  by_cases hij : i = j
  · rw [if_pos hij] at h ⊢
    obtain ⟨r', hr', hstays⟩ := h _ rfl
    exact ⟨leave r', by rw [hr']; rfl, hbracket r' hij hstays⟩
  · rw [if_neg hij] at h ⊢
    exact h r rfl

/-- Every piece of code leaves each interpreter in its place. -/
theorem Leads.exists_stays (h : Leads w w') (hw : w.Tidy) {r : Interpreter}
    (hr : w.interps.get? i = some r) : ∃ r', w'.interps.get? i = some r' ∧ Stays r r' := by
  induction h generalizing r with
  | rest h =>
    obtain ⟨hi, -⟩ := Prod.mk.inj h
    exact ⟨r, by rw [hi, hr], .refl r⟩
  | edit hf w j =>
    rw [World.get?_modifyInterp, hr]
    split
    · exact ⟨_, rfl, .of_keepsCalls (hf.deleted_eq r) (hf.keepsCalls r)⟩
    · exact ⟨r, rfl, .refl r⟩
  | create w name safe parent =>
    rw [World.get?_newInterp, if_neg (Nat.ne_of_gt (hw.known i r hr)), hr]
    exact ⟨r, rfl, .refl r⟩
  | delete w j =>
    have hpruned := (World.prunes_delete w j).each i
    rw [hr] at hpruned
    generalize (w.delete j).interps.get? i = found at hpruned ⊢
    obtain ⟨hpruned⟩ | - := hpruned
    exact ⟨_, rfl, stays_of_pruned hpruned⟩
  | trans h _ ih ih' =>
    obtain ⟨r', hr', hstays⟩ := ih hw hr
    obtain ⟨r'', hr'', hstays'⟩ := ih' (h.tidy hw) hr'
    exact ⟨r'', hr'', hstays.trans hstays'⟩
  | call _ _ ih =>
    refine exists_stays_bracket hr (fun r => ih (hw.modifyInterp fun r hr => hr)) fun r' _ h => ?_
    exact h.call
  | aside _ _ ih =>
    refine exists_stays_bracket hr (fun r => ih (hw.modifyInterp fun r hr => hr)) fun r' hj h => ?_
    rw [hj, World.interp_of_get? hr]
    exact h.aside
  | command _ hdepth _ ih =>
    refine exists_stays_bracket hr (fun r => ih (hw.modifyInterp fun r _ => hdepth))
      fun r' hj h => ?_
    rw [hj, World.interp_of_get? hr] at h ⊢
    exact h.command

theorem Leads.stays (h : Leads w w') (hw : w.Tidy) (hlive : (w.interp i).deleted = false) :
    Stays (w.interp i) (w'.interp i) := by
  obtain ⟨r', hr', hstays⟩ := h.exists_stays hw (World.get?_of_live hlive)
  rw [World.interp_of_get? hr']
  exact hstays

end Run

/-! ### Evaluations -/

/-- A way to evaluate something in an interpreter. -/
inductive Evaluation
  | eval (source : String)
  | evalRaw (source : String)
  | invoke (words : List String)
deriving DecidableEq, Repr

/-- Evaluate something with the engine of the host. -/
def Evaluation.run (i : InterpId) : Evaluation → Act Completion
  | .eval source => evalFrom engine i source
  | .evalRaw source => engine.call (.script i source)
  | .invoke words => invokeFrom engine i words

theorem Evaluation.leads_run (i : InterpId) (ev : Evaluation) : (ev.run i).Moves Run.Leads := by
  cases ev with
  | eval source => exact moves_evalFrom moves_engine i source
  | evalRaw source => exact moves_engine _
  | invoke words => exact moves_invokeFrom moves_engine i words

open Run in
/-- An evaluation leaves every interpreter that is live before and after it with as many frames as
before, all of them the same but the innermost and the global one, and with the same depth, however
the evaluation ends. It consists of moments of the machine, at none of which an interpreter is
nested too deeply. And of the engine that performs nested tasks it asks nothing in a world in which
one is: what the engine does in such worlds does not matter. -/
theorem Evaluation.frames_kept (ev : Evaluation) (i : InterpId) {w : World} (hw : w.Tidy) :
    (∀ j, (w.interp j).deleted = false → (((ev.run i).after w).interp j).deleted = false →
      (∀ base, (w.interp j).frames = [base] →
        ∃ base', (((ev.run i).after w).interp j).frames = [base']) ∧
      (∀ top middle base, (w.interp j).frames = top :: (middle ++ [base]) →
        ∃ top' base', (((ev.run i).after w).interp j).frames = top' :: (middle ++ [base'])) ∧
      (((ev.run i).after w).interp j).depth = (w.interp j).depth) ∧
    (∃ cut, Steps ⟨w, [], ∅⟩ ⟨(ev.run i).after w, [], cut⟩) ∧
    (∀ c, Steps ⟨w, [], ∅⟩ c → ∀ j, (c.world.interp j).depth ≤ Interpreter.maxDepth) ∧
    ∀ e : Engine,
      (∀ {α : Type} (task : Task α) (u : World), u.Tidy → Leads u ((e.call task).after u)) →
      ∀ {α : Type} (task : Task α), Leads w ((perform e task).after w) := by
  have hleads := (ev.leads_run i w hw).leads
  refine ⟨fun j hlive hstill => ?_, hleads.steps [] ∅, fun c hc j => ?_, fun e he _ task => ?_⟩
  · have hkeeps := (hleads.stays hw hlive).keeps hstill
    exact ⟨fun base => hkeeps.exists_singleton, fun top middle base => hkeeps.exists_cons,
      hkeeps.depth⟩
  · exact ((Shallow.steps ⟨hw, by simp⟩ hc).tidy).interp_depth_le j
  · exact (moves_perform (R := Leads) (fun task => .of_leads (he task)) task w hw).leads

/-- A world with one interpreter, in a call within a call that has a variable. -/
def inNestedCall : World :=
  (({} : World).newInterp "" true none).2.modifyInterp 0 fun r =>
    (r.enterCall ⟨[("x", "1")]⟩).enterCall .empty

/-- A script that calls a procedure, fails in a nested evaluation and sets variables. -/
theorem frames_kept_inNestedCall :
    inNestedCall.Tidy ∧ ∃ top' base',
      ((((Evaluation.eval "proc p \x7b\x7d \x7bset x 2; error no\x7d; set x 3; set ::x 4; p").run
        0).after inNestedCall).interp 0).frames =
          top' :: ([{ vars := ⟨[("x", "1")]⟩ }] ++ [base']) := by
  have htidy : inNestedCall.Tidy := by
    refine World.Tidy.modifyInterp ?_ fun r hr => hr
    exact (World.tidy_of_no_interps (w := {}) rfl).newInterp "" true none
  have hkept := (Evaluation.eval
    "proc p \x7b\x7d \x7bset x 2; error no\x7d; set x 3; set ::x 4; p").frames_kept 0 htidy
  exact ⟨htidy, (hkept.1 0 rfl (by decide +kernel)).2.1 {} _ Interpreter.initialFrame rfl⟩

end ScriptHost
