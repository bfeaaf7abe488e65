import ScriptHost.Proofs.Frames.Discipline
import ScriptHost.Proofs.Handle.Agreement
import ScriptHost.Proofs.World.DeleteHooks

/-!
# Confinement of safe interpreters

Whatever scripts do, and whatever a host does with its interpreters, handles and threads, safe
interpreters and all that is below them stay without the commands that reach the system: these are in
none of their tables, and none of them ever begins there, not even in a run that does not come to an
end.
-/

namespace ScriptHost

namespace Run

variable {w u w' : World}

/-- Code keeps safe interpreters confined, and interpreters stay as safe as they are. -/
structure Confines (w w' : World) : Prop where
  leads : Leads w w'
  confined : w.Confined → w'.Confined
  next : w.nextInterp ≤ w'.nextInterp
  safe : ∀ i, i < w.nextInterp → (w'.interp i).safe = (w.interp i).safe

theorem Confines.of_loses (hleads : Leads w w') (h : w.Loses w') : Confines w w' where
  leads := hleads
  confined hw := hw.loses h
  next := Nat.le_of_eq h.next.symm
  safe i _ := (h.interp i).safe

theorem Confines.of_interpreters_eq (h : w'.interpreters = w.interpreters) (hsilent : w.Silent w') :
    Confines w w' :=
  .of_loses (.rest h) (.of_interpreters_eq h hsilent)

theorem Confines.trans (h : Confines w u) (h' : Confines u w') : Confines w w' where
  leads := h.leads.trans h'.leads
  confined hw := h'.confined (h.confined hw)
  next := Nat.le_trans h.next h'.next
  safe i hi := (h'.safe i (Nat.lt_of_lt_of_le hi h.next)).trans (h.safe i hi)

/-- Code in a bracket confines if all that it finds and leaves behind is weaker for the bracket. -/
theorem Confines.bracket {v : World} (hleads : Leads w w') (henter : w.Loses u) (h : Confines u v)
    (hleave : v.Loses w') : Confines w w' where
  leads := hleads
  confined hw := (h.confined (hw.loses henter)).loses hleave
  next := by rw [hleave.next, ← henter.next]; exact h.next
  safe i hi := by
    rw [(hleave.interp i).safe, h.safe i (henter.next ▸ hi), (henter.interp i).safe]

theorem Confines.createChild (w : World) (p : InterpId) (name : String) (safe : Bool) :
    Confines w (w.createChild p name safe).2 := by
  have hleads := w.leads_createChild p name safe
  have hrefl : Confines w w := .of_interpreters_eq rfl (.of_trace_eq rfl)
  revert hleads
  rw [World.createChild]
  dsimp only
  split
  · exact fun _ => hrefl
  · next hlive =>
    split
    · exact fun _ => hrefl
    · split
      · exact fun _ => hrefl
      · intro hleads
        rw [Bool.not_eq_true] at hlive
        have hborn := World.Loses.foldl (World.loses_runChildHook w.nextInterp)
          (w.interp p).childHooks (w.bear p name (safe || (w.interp p).safe))
        refine ⟨hleads, fun hw => (hw.bear hlive name safe).loses hborn, ?_, fun i hi => ?_⟩
        · exact Nat.le_of_lt (Nat.lt_of_lt_of_eq (Nat.lt_succ_self _) hborn.next.symm)
        · exact (hborn.interp i).safe.trans (w.safe_bear p name _ hi)

theorem Confines.newInterp (w : World) (safe : Bool) :
    Confines w (w.newInterp "" safe none).2 where
  leads := .create w "" safe none
  confined hw := hw.newInterp "" safe
  next := Nat.le_succ _
  safe i hi := by rw [World.interp_newInterp, if_neg (Nat.ne_of_gt hi)]

theorem Confines.scheduleAfter (w : World) (i : InterpId) (delay : Option Nat) (script : String) :
    Confines w (w.scheduleAfter i delay script).2 := by
  have hentry (w : World) (id : String) (token : AfterToken) : w.Loses (w.modifyInterp i fun r =>
      { r with nextAfter := r.nextAfter + 1, afters := r.afters.insert id token }) := by
    refine World.loses_modifyInterp_of_eq (fun _ => ?_) w i
    exact ⟨rfl, rfl, rfl⟩
  have hagenda (a : Agenda Event Handler) : w.Loses (w.setAgenda a) :=
    .of_interpreters_eq rfl (.of_trace_eq rfl)
  refine .of_loses (w.leads_scheduleAfter i delay script) ?_
  cases delay <;> exact (hagenda _).trans (hentry _ _ _)

theorem Confines.unschedule (w : World) (i : InterpId) (id : String) :
    Confines w (w.unschedule i id) := by
  have htake : w.Loses (w.takeAfter i id).2 := by
    refine World.loses_modifyInterp_of_eq (fun _ => ?_) w i
    exact ⟨rfl, rfl, rfl⟩
  refine .of_loses (w.leads_unschedule i id) (htake.trans ?_)
  rw [World.unschedule]
  cases (w.takeAfter i id).1 with
  | none => exact .refl _
  | some token => exact World.loses_cancelAfter _ token

/-- The last holder of a handle goes, and its work is served. -/
theorem Confines.served {w₁ : World} {h : HandleId}
    (hdropped : ((w.unhold h).unregister h).Rests w₁)
    (hstill : ((w.unhold h).unregister h).Still w₁) (hserved : Confines w₁ w') : Confines w w' := by
  have hgo : Confines w ((w.unhold h).unregister h) := .of_interpreters_eq rfl (.of_trace_eq rfl)
  exact (hgo.trans (.of_interpreters_eq hdropped.interpreters hstill.silent)).trans hserved

theorem Confines.giveUp (w : World) (h : HandleId) : Confines w (w.giveUp h) :=
  .of_loses (w.leads_giveUp h) (w.loses_giveUp h)

theorem Confines.takeOff (w : World) (a : Agenda Event Handler) : Confines w (w.takeOff a) :=
  .of_interpreters_eq rfl (.of_trace_eq rfl)

theorem Confines.takeAfter (w : World) (i : InterpId) (id : String) :
    Confines w (w.takeAfter i id).2 := by
  refine .of_loses (.edit (.unschedule id) w i) (World.loses_modifyInterp_of_eq (fun _ => ?_) w i)
  exact ⟨rfl, rfl, rfl⟩

instance (l : LoopId) : Tends Confines l where
  arm w := .of_interpreters_eq (w.rests_ensureArmed l).interpreters (w.retains_ensureArmed l).silent
  stop w :=
    .of_interpreters_eq (w.rests_stopKeepalive l).interpreters (w.retains_stopKeepalive l).silent
  setPhase _ _ := .of_interpreters_eq rfl (.of_trace_eq rfl)

instance : Patient Confines where
  stall _ hdropped hstill hserved := .served hdropped hstill hserved

instance : Spans Confines where
  rest h hstill := .of_interpreters_eq h.interpreters hstill.silent
  edit hf w i := by
    refine .of_loses (.edit hf.edit w i) (World.loses_modifyInterp (fun r => ?_) w i)
    exact (hf.weakens r).loses (congrArg Prod.fst (hf.station r))
  schedule {w i} _ := .scheduleAfter w i
  unschedule := .unschedule
  delete w i := .of_loses (.delete w i) (w.loses_delete i)
  serve {w _ _ a} _ _ := .takeOff w a
  fire {w _ _ a i id} _ _ := (Confines.takeOff w a).trans (.takeAfter _ i id)
  rearm {w _ _ a l} _ _ := (Confines.takeOff w a).trans (.of_interpreters_eq
    (World.rests_armKeepalive _ l).interpreters (World.retains_armKeepalive _ l).silent)
  newLoop _ _ := .of_interpreters_eq rfl (.of_trace_eq rfl)
  putOff {w i a} _ := (Confines.takeOff w a).trans (.of_loses (.delete _ i) (World.loses_delete _ i))
  trans h h' := h.trans h'
  call {w w' i vars} hlive h := by
    refine .bracket (.call hlive h.leads) ?_ h ?_
    · refine World.loses_modifyInterp_of_eq (fun _ => ?_) w i
      exact ⟨rfl, rfl, rfl⟩
    · refine World.loses_modifyInterp_of_eq (fun _ => ?_) w' i
      exact ⟨rfl, rfl, rfl⟩
  aside {w w' i} hlive h := by
    refine .bracket (.aside hlive h.leads) ?_ h ?_
    · refine World.loses_modifyInterp_of_eq (fun _ => ?_) w i
      exact ⟨rfl, rfl, rfl⟩
    · refine World.loses_modifyInterp_of_eq (fun _ => ?_) w' i
      exact ⟨rfl, rfl, rfl⟩
  command {w w' i name command} hlive hdepth hentry h := by
    have hbegin : (w.record (.invoked i name command)).Loses
        (w.beginCommand i name command (w.interp i).depth) := by
      refine World.loses_modifyInterp_of_eq (fun _ => ?_) _ i
      exact ⟨rfl, rfl, rfl⟩
    have hend : w'.Loses (w'.modifyInterp i fun r => { r with depth := (w.interp i).depth }) := by
      refine World.loses_modifyInterp_of_eq (fun _ => ?_) w' i
      exact ⟨rfl, rfl, rfl⟩
    refine ⟨Follows.command hlive hdepth hentry h.leads, fun hw => ?_, ?_, fun j hj => ?_⟩
    · exact (h.confined ((hw.record hlive hentry).loses hbegin)).loses hend
    · rw [hend.next]
      exact h.next
    · rw [(hend.interp j).safe, h.safe j hj]
      exact (hbegin.interp j).safe
  createChild := .createChild
  found w config := by
    have hmade := Confines.newInterp w config.safe
    have hadopt := World.loses_adopt (w.newInterp "" config.safe none).2 w.nextInterp config
    have hadopted := hmade.trans (.of_loses (World.leads_adopt _ _ _) hadopt)
    exact hadopted.trans (.of_interpreters_eq rfl (.of_trace_eq rfl))
  hold _ := .of_interpreters_eq rfl (.of_trace_eq rfl)
  takeOver _ _ := .of_interpreters_eq rfl (.of_trace_eq rfl)
  deleteHandle w h := .of_loses (w.leads_deleteHandle h) (w.loses_deleteHandle h)
  unhold _ := .of_interpreters_eq rfl (.of_trace_eq rfl)
  release _ hdropped hstill hserved := (Confines.served hdropped hstill hserved).trans (.giveUp _ _)
  foreign _ h := h
  all h := h
  leads h := h.leads
  patient h := h
  coarse hL hR _ := absurd hL hR
  stands h hstill := .of_interpreters_eq h.interpreters hstill.silent
  modifyThread _ _ _ := .of_interpreters_eq rfl (.of_trace_eq rfl)
  startLoop _ _ _ := .of_interpreters_eq rfl (.of_trace_eq rfl)
  tends _ _ := .inl inferInstance
  visit {w _ t} _ h := by
    have henter : Confines w { w with current := t, engaged := t :: w.engaged } :=
      .of_interpreters_eq rfl (.of_trace_eq rfl)
    exact (henter.trans h).trans (.of_interpreters_eq rfl (.of_trace_eq rfl))
  newThread _ := .of_interpreters_eq rfl (.of_trace_eq rfl)
  endThread w t := .of_loses (w.leads_endThread t) (w.loses_endThread t)
  letGo _ hdropped hstill t pending := .served hdropped hstill
    (.of_interpreters_eq (World.interpreters_post _ t _) (World.still_post _ t _).silent)
  takeRelease {w a _ _} _ := .takeOff w a
  serveRelease {w _ a _ _} _ hserved := ((Confines.takeOff w a).trans hserved).trans (.giveUp _ _)
  serveDelete {w a _} _ := (Confines.takeOff w a).trans (.giveUp _ _)

instance (e : Engine) : Records e Confines where
  cut _ hdropped hstill hserved _ := .served hdropped hstill hserved

end Run

open Run

/-! ### Calls of a host -/

/-- What a host may do with its interpreters, handles and threads. -/
inductive ApiCall
  /-- Make an interpreter without a parent. -/
  | create (safe : Bool)
  | createChild (parent : InterpId) (name : String) (safe : Bool)
  | evaluate (i : InterpId) (ev : Evaluation)
  /-- Register a command of the host. -/
  | register (i : InterpId) (name : String) (behaviour : Behaviour)
  | unregister (i : InterpId) (name : String)
  | setGlobal (i : InterpId) (name value : String)
  | unsetGlobal (i : InterpId) (name : String)
  | callWhenDeleted (i : InterpId) (hook : DeleteHook)
  | callWhenChildCreated (i : InterpId) (hook : ChildHook)
  | delete (i : InterpId)
  /-- Make, call, clone, keep or drop a handle, serve what is pending, or run a loop. -/
  | operate (op : Operation)
  /-- Start a thread with an interpreter and a loop of its own, which goes on whenever others wait. -/
  | spawn (config : HandleConfig)

namespace ApiCall

/-- Make a call. -/
def run : ApiCall → Act Unit
  | .create safe => modify fun w => (w.newInterp "" safe none).2
  | .createChild parent name safe => modify fun w => (w.createChild parent name safe).2
  | .evaluate i ev => do
    let _ ← ev.run i
  | .register i name behaviour => modify fun w => w.defineCommand i name (.host behaviour)
  | .unregister i name => updateInterp i fun r => { r with commands := r.commands.erase name }
  | .setGlobal i name value => do
    let _ ← (ScriptHost.setGlobal i name value).run
  | .unsetGlobal i name => do
    let _ ← ScriptHost.unsetGlobal i name
  | .callWhenDeleted i hook => modify fun w => w.callWhenDeleted i hook
  | .callWhenChildCreated i hook =>
    updateInterp i fun r => { r with childHooks := r.childHooks ++ [hook] }
  | .delete i => modify fun w => w.delete i
  | .operate op => op.run
  | .spawn config => do
    let _ ← Worker.spawn config

/-- The world after some calls. A call may be cut short, or wait without end. -/
def runAll (calls : List ApiCall) (w : World) : World :=
  calls.foldl (fun w call => call.run.after w) w

section

variable {L : World → World → Prop} [Roams L] [∀ fuel, Notes ⟨fuel, runWithin fuel⟩ L]
  [∀ l, Tends L l]

/-- A call is what code may do, apart from making an interpreter that has no handle and from adding to
what is to happen when an interpreter is deleted. -/
theorem moves_run (hcreate : ∀ w safe, L w (w.newInterp "" safe none).2)
    (hhook : ∀ w i hook, L w (w.callWhenDeleted i hook)) (call : ApiCall) : call.run.Moves L := by
  cases call with
  | create safe => exact .modify fun w => hcreate w safe
  | createChild parent name safe => exact .modify fun w => Follows.createChild w parent name safe
  | evaluate i ev =>
    refine .bind ?_ fun _ => .pure _
    cases ev with
    | eval source => exact moves_evalFrom moves_engine i source
    | evalRaw source => exact moves_engine _
    | invoke words => exact moves_invokeFrom moves_engine i words
  | register i name behaviour =>
    refine .modify fun w => Follows.edit (.define name fun b => ?_) w i
    exact nofun
  | unregister i name => exact moves_updateInterp (.undefine name) i
  | setGlobal i name value => exact .bind (moves_setGlobal i name value) fun _ => .pure _
  | unsetGlobal i name => exact .bind (moves_unsetGlobal i name) fun _ => .pure _
  | callWhenDeleted i hook => exact .modify fun w => hhook w i hook
  | callWhenChildCreated i hook => exact moves_updateInterp (.onChild hook) i
  | delete i => exact .modify fun w => Follows.delete w i
  | operate op =>
    by_cases hop : ∀ h work wait, op ≠ .submit h work wait
    · exact op.moves_run hop
    · simp only [not_forall, not_not] at hop
      obtain ⟨h, work, wait, rfl⟩ := hop
      have hsubmit (w : World) (reply : Option ReplyId) : L w (w.submit h work reply).2 :=
        Roams.stands (w.stands_submit h work reply) (w.still_submit h work reply)
          (w.attends_submit h work reply)
      intro w
      cases wait with
      | true =>
        have hreply : L w w.newReply.2 :=
          Tracks.settle (.of_tables_eq rfl) (.of_scenery_eq rfl) w.attends_newReply
        exact .of_rel (Follows.trans hreply (hsubmit w.newReply.2 (some w.newReply.1)))
      | false => exact .of_rel (hsubmit w none)
  | spawn config => exact .bind (Worker.moves_spawn config) fun _ => .pure _

theorem rel_runAll [Patient L] (hcreate : ∀ w safe, L w (w.newInterp "" safe none).2)
    (hhook : ∀ w i hook, L w (w.callWhenDeleted i hook)) {w : World} (hw : w.Tidy)
    (calls : List ApiCall) : L w (runAll calls w) := by
  induction calls generalizing w with
  | nil => exact Tracks.refl w
  | cons call calls ih =>
    have hfirst := (moves_run hcreate hhook call w hw).rel .of_patient
    exact Follows.trans hfirst (ih ((Follows.leads hfirst).tidy hw))

end

theorem confines_runAll {w : World} (hw : w.Tidy) (calls : List ApiCall) :
    Confines w (runAll calls w) :=
  rel_runAll .newInterp (fun w i hook => .of_loses (w.leads_callWhenDeleted i hook)
    (w.loses_runDeleteHook i _)) hw calls

end ApiCall

namespace World

variable {w : World} {i j c : InterpId} {name : String}

/-- All that is below a safe interpreter is safe. -/
theorem Confined.safe_of_beneath (hw : w.Confined) (hsafe : (w.interp i).safe = true)
    (h : w.Beneath i j) : (w.interp j).safe = true := by
  induction h with
  | refl => exact hsafe
  | tail _ hchild ih => exact hw.inherits _ _ hchild ih

end World

/-- A host starts without interpreters. After any calls take an interpreter that is safe. Whatever
calls follow, to this interpreter, to what is below it or to any other: it is still safe, and so is
all that is below it, including every interpreter that a script finds by a name. No table of commands
there maps a name to a restricted built-in command, and none of these commands ever began there, in
whatever evaluation, event handler or thread. -/
theorem ApiCall.safe_confined (files : Machine.Files) (globalTimerMs : Nat)
    (before later : List ApiCall) {i : InterpId}
    (hsafe : ((runAll before (World.fresh files globalTimerMs)).interp i).safe = true) :
    let w := runAll later (runAll before (World.fresh files globalTimerMs))
    (∀ j, w.Beneath i j → (w.interp j).safe = true ∧
      (∀ name c, (w.interp j).children.get? name = some c → (w.interp c).safe = true) ∧
      ∀ name b, (w.interp j).commands.get? name = some (.builtin b) → b.isRestricted = false) ∧
    ∀ incident ∈ w.trace, ∀ j name b, incident.what = .invoked j name (.builtin b) →
      w.Beneath i j → b.isRestricted = false := by
  intro w
  have hfresh := World.tidy_fresh files globalTimerMs
  have hbefore := confines_runAll hfresh before
  have hlater := confines_runAll (hbefore.leads.tidy hfresh) later
  have hformer := hbefore.confined (World.confined_of_no_interps rfl rfl)
  have hw : w.Confined := hlater.confined hformer
  have hstill : (w.interp i).safe = true :=
    (hlater.safe i (World.lt_of_safe hformer.numbered hsafe)).trans hsafe
  refine ⟨fun j hj => ?_, fun incident hmem j name b hwhat hj => ?_⟩
  · have hjsafe := hw.safe_of_beneath hstill hj
    exact ⟨hjsafe, fun name c hc => hw.inherits c j (hw.listed j name c hc) hjsafe,
      fun name b => hw.barred j hjsafe name b⟩
  · have hjsafe := hw.safe_of_beneath hstill hj
    exact (hw.begun incident hmem j name _ hwhat).2 hjsafe b rfl

/-- A safe interpreter makes a child that is not asked to be safe and runs a file in it. -/
theorem ApiCall.safe_confined_offspring :
    let made := runAll [.create true] (World.fresh .empty 0)
    let script := "proc source {} {}; interp create c; interp eval c {source /etc/rc; exec ls}"
    let w := runAll [.evaluate 0 (.eval script)] made
    (made.interp 0).safe = true ∧
      (∀ j, w.Beneath 0 j → (w.interp j).safe = true ∧
        (∀ name c, (w.interp j).children.get? name = some c → (w.interp c).safe = true) ∧
        ∀ name b, (w.interp j).commands.get? name = some (.builtin b) → b.isRestricted = false) ∧
      ∀ incident ∈ w.trace, ∀ j name b, incident.what = .invoked j name (.builtin b) →
        w.Beneath 0 j → b.isRestricted = false := by
  intro made script w
  have hsafe : (made.interp 0).safe = true := rfl
  exact ⟨hsafe, safe_confined .empty 0 [.create true] [.evaluate 0 (.eval script)] hsafe⟩

end ScriptHost
