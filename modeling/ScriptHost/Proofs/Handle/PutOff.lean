import ScriptHost.Proofs.Frames.Busy
import ScriptHost.Proofs.Handle.Outlived

/-!
# Deletions that are put off

An interpreter in which a command is running is not deleted when its handle gives it up. The deletion
is left to an idle handler, which asks no more whether a command is running. So it finishes the
running command first only if no loop that this command runs serves the handler.
-/

namespace ScriptHost

open World

namespace Run

variable {c : Config} {h : HandleId} {i : InterpId}

/-- Whether some command of an interpreter has begun and not ended yet. -/
def Running (c : Config) (i : InterpId) : Prop :=
  ∃ depth, .command i depth ∈ c.brackets

theorem interps_giveUp_of_isBusy {w : World} (hi : w.interpOf? h = some i)
    (hbusy : (w.interp i).isBusy = true) : (w.giveUp h).interpreters = w.interpreters := by
  have hbusy' : ((w.takeInterp h).2.interp i).isBusy = true := hbusy
  rw [giveUp_eq, hi]
  change ((w.takeInterp h).2.deleteInterp i).interpreters = w.interpreters
  rw [deleteInterp, if_pos hbusy']
  rfl

theorem giveUp_of_not_isBusy {w : World} (hi : w.interpOf? h = some i)
    (hidle : (w.interp i).isBusy = false) : w.giveUp h = (w.takeInterp h).2.delete i := by
  have hidle' : ¬((w.takeInterp h).2.interp i).isBusy = true := by
    rw [Bool.not_eq_true]
    exact hidle
  rw [giveUp_eq, hi]
  change (w.takeInterp h).2.deleteInterp i = _
  rw [deleteInterp, if_neg hidle']

/-- Serving a deletion that was put off deletes the interpreter without a further question. -/
theorem serveReady_of_delete {e : Engine} {flags : EventFlags} {w : World}
    {a : Agenda Event Handler}
    (hnext : w.agenda.next? flags w.clock = some (.idle (.delete i), a)) :
    serveReady e flags w = .ok true ((w.takeOff a).delete i) := by
  rw [serveReady, Act.get_bind, hnext]
  rfl

/-- **When the deletion of an interpreter that is given up hits a running command.**

At every moment of a run in which a handle gives its interpreter up, the interpreter is deleted at
once if none of its commands is running; otherwise it stays as it is, and its deletion is put off. At
every moment at which a deletion that was put off is served, the interpreter is deleted, and a
command of it is running there if and only if it is one of the open commands around the loop that
serves the deletion. -/
theorem deletion_hits_iff (hc : Reachable c) (i : InterpId) :
    (∀ h, c.world.interpOf? h = some i →
      (Running c i → (c.world.giveUp h).interpreters = c.world.interpreters ∧
        ((c.world.threads.get? c.world.current).isSome = true → (c.world.giveUp h).PutOff i)) ∧
      (¬Running c i → c.world.giveUp h = (c.world.takeInterp h).2.delete i ∧
        ((c.world.takeInterp h).2.interp i).isBusy = false)) ∧
    ∀ e flags a, c.world.agenda.next? flags c.world.clock = some (.idle (.delete i), a) →
      serveReady e flags c.world = .ok true ((c.world.takeOff a).delete i) ∧
      (((c.world.takeOff a).interp i).isBusy = false ↔ ¬Running c i) := by
  have hbusy : (c.world.interp i).isBusy = true ↔ Running c i := hc.isBusy_iff
  have hidle : (c.world.interp i).isBusy = false ↔ ¬Running c i := by
    rw [← hbusy, Bool.not_eq_true]
  refine ⟨fun h hi => ⟨fun hrunning => ?_, fun hnot => ?_⟩, fun e flags a hnext => ?_⟩
  · refine ⟨interps_giveUp_of_isBusy hi (hbusy.2 hrunning), ?_⟩
    exact (Handle.givenUp_giveUp c.world h).putOff i hi (hbusy.2 hrunning)
  · exact ⟨giveUp_of_not_isBusy hi (hidle.2 hnot), hidle.2 hnot⟩
  · exact ⟨serveReady_of_delete hnext, hidle⟩

/-! ### A script that deletes its interpreter and goes on -/

/-- A world with the handle of one interpreter, for which a closure is registered that deletes it. -/
def deleting : World :=
  let w := ((({} : World).newInterp "" false none).2.adopt 0 {}).2.hold 1
  { w.modifyHandle 1 fun handle =>
      { handle with callbacks := (handle.callbacks.register (.delete "main")).2 } with
    names := w.names.insert "main" 1 }

/-- The moment when a command of the interpreter has just given the interpreter up. -/
def givingUp : World :=
  (deleting.modifyInterp 0 fun r => { r with depth := (deleting.interp 0).depth + 1 }).giveUp 1

theorem exists_reachable_givingUp : ∃ cut, Reachable ⟨givingUp, [.command 0 0], cut⟩ := by
  have hmade : Reachable ⟨(({} : World).newInterp "" false none).2, [], ∅⟩ :=
    ⟨{}, rfl, .single (.create "" false none)⟩
  obtain ⟨cut, hadopted⟩ := (leads_adopt (({} : World).newInterp "" false none).2 0 {}).steps [] ∅
  have hdeleting : Reachable ⟨deleting, [], cut⟩ := (hmade.steps hadopted).step (.rest rfl)
  have hentered := hdeleting.step (.enterCommand (i := 0) rfl (by decide +kernel))
  exact ⟨cut, hentered.step (.rest (interps_giveUp_of_isBusy (i := 0) rfl rfl))⟩

theorem deletion_hits_givingUp :
    ∃ a, givingUp.agenda.next? .all givingUp.clock = some (.idle (.delete 0), a) ∧
      ((givingUp.takeOff a).interp 0).isBusy = true := by
  obtain ⟨cut, hc⟩ := exists_reachable_givingUp
  obtain ⟨-, hserve⟩ := deletion_hits_iff hc 0
  obtain ⟨a, hnext⟩ : ∃ a, givingUp.agenda.next? .all givingUp.clock = some (.idle (.delete 0), a) :=
    ⟨_, rfl⟩
  refine ⟨a, hnext, Bool.eq_true_of_not_eq_false fun hidle => ?_⟩
  exact (hserve engine .all a hnext).2.1 hidle ⟨0, List.mem_cons_self⟩

/-- A command of an interpreter deletes it, and another command of the same script that serves what
is pending runs the deletion: the script is not finished. Without the second command it is. -/
theorem deletion_hits_running_script :
    (Handle.evaluate engine 1 "host_callback cb1; set x 1").value? deleting = some (.ok "1") ∧
    (Handle.evaluate engine 1 "host_callback cb1; update; set x 1").value? deleting =
      some (.error (.eval "attempt to call eval in deleted interpreter")) ∧
    (givingUp.interp 0).isBusy = true ∧ (givingUp.interp 0).deleted = false ∧
    (((serveReady engine .all).after givingUp).interp 0).isBusy = true ∧
    (((serveReady engine .all).after givingUp).interp 0).deleted = true := by
  decide +kernel

end Run

end ScriptHost
