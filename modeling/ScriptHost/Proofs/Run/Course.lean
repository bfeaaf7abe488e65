import ScriptHost.Proofs.Run.World
import ScriptHost.Proofs.World.Confined
import ScriptHost.Proofs.World.Scripts

/-!
# Code of a host that acts on one thread

As long as one thread acts, the ledger changes in few ways: handles are made together with their
interpreters, holders come and go, and a handle is deleted or let go. When the last holder of a
handle goes, its work is served and its interpreter given up, unless that is cut short.
-/

namespace ScriptHost

/-! ### Changes of an interpreter -/

namespace Interpreter

/-- Whether an interpreter is deleted, what is to happen then, and the scripts that it scheduled. -/
def plans (r : Interpreter) : Bool × List DeleteHook × Table String AfterToken :=
  (r.deleted, r.deleteHooks, r.afters)

/-- A change of an interpreter that schedules nothing and keeps what is to happen when the
interpreter is deleted. -/
structure Tame (f : Interpreter → Interpreter) : Prop where
  edit : Edit f
  hooks : ∀ r, r.deleteHooks ⊆ (f r).deleteHooks
  afters : ∀ r, (f r).afters.values ⊆ r.afters.values

variable {f : Interpreter → Interpreter}

namespace Tame

theorem of_plans_eq (hf : Edit f) (h : ∀ r, (f r).plans = r.plans) : Tame f := by
  refine ⟨hf, fun r => ?_, fun r => ?_⟩
  · rw [show (f r).deleteHooks = r.deleteHooks from congrArg (·.2.1) (h r)]
    exact List.Subset.refl _
  · rw [show (f r).afters = r.afters from congrArg (·.2.2) (h r)]
    exact List.Subset.refl _

/-- A change of variables. -/
theorem of_onlyVars (hf : Edit f) (h : ∀ r, OnlyVars r (f r)) : Tame f :=
  .of_plans_eq hf fun r => (h r).keeps plans fun _ _ => rfl

theorem setVar (name value : String) : Tame fun r => r.setVar name value :=
  .of_onlyVars (.setVar name value) fun r => onlyVars_setVar r name value

theorem unsetVar (name : String) : Tame fun r => r.unsetVar name :=
  .of_onlyVars (.unsetVar name) fun r => onlyVars_unsetVar r name

theorem setGlobal (name value : String) : Tame fun r => r.setGlobal name value :=
  .of_onlyVars (.setGlobal name value) fun r => onlyVars_setGlobal r name value

theorem unsetGlobal (name : String) : Tame fun r => r.unsetGlobal name :=
  .of_onlyVars (.unsetGlobal name) fun r => onlyVars_unsetGlobal r name

theorem linkGlobals (names : List String) :
    Tame fun r => names.foldl (fun r name => r.linkGlobal name) r :=
  .of_onlyVars (.linkGlobals names) fun r => onlyVars_linkGlobals r names

theorem define (name : String) (command : Command) :
    Tame fun r => if r.deleted then r else { r with commands := r.commands.insert name command } := by
  refine .of_plans_eq (.define name command) fun r => ?_
  split <;> rfl

theorem undefine (name : String) : Tame fun r => { r with commands := r.commands.erase name } :=
  .of_plans_eq (.undefine name) fun _ => rfl

theorem generateName : Tame fun r => r.generateName.2 :=
  .of_plans_eq .generateName fun _ => rfl

theorem unschedule (id : String) : Tame fun r => { r with afters := r.afters.erase id } :=
  ⟨.unschedule id, fun _ => List.Subset.refl _, fun _ => List.map_subset _ List.filter_sublist.subset⟩

theorem onDelete (hook : DeleteHook) :
    Tame fun r => { r with deleteHooks := r.deleteHooks ++ [hook] } :=
  ⟨.onDelete hook, fun _ => List.subset_append_left _ _, fun _ => List.Subset.refl _⟩

theorem onChild (hook : ChildHook) :
    Tame fun r => { r with childHooks := r.childHooks ++ [hook] } :=
  .of_plans_eq (.onChild hook) fun _ => rfl

end Tame

/-- The family of an interpreter, and what is to happen when it is deleted. -/
def station (r : Interpreter) : (Option InterpId × String × Bool × Table String InterpId) ×
    List DeleteHook :=
  (r.family, r.deleteHooks)

/-- Whether an interpreter is deleted, the scripts that it scheduled and the number of the next
one. -/
def timetable (r : Interpreter) : Bool × Table String AfterToken × Nat :=
  (r.deleted, r.afters, r.nextAfter)

/-- How safe an interpreter is, and its commands. -/
def rights (r : Interpreter) : Bool × Table String Command :=
  (r.safe, r.commands)

theorem weakens_of_rights_eq {r r' : Interpreter} (h : r'.rights = r.rights) : Weakens r r' :=
  .of_commands_eq (congrArg Prod.fst h) (congrArg Prod.snd h)

/-- A tame change that besides leaves the family, all hooks and all scheduled scripts alone and adds
no built-in command. -/
structure Mild (f : Interpreter → Interpreter) : Prop extends Tame f where
  station : ∀ r, (f r).station = r.station
  timetable : ∀ r, (f r).timetable = r.timetable
  weakens : ∀ r, Weakens r (f r)

namespace Mild

/-- A change of variables. -/
theorem of_onlyVars (hf : Edit f) (h : ∀ r, OnlyVars r (f r)) : Mild f :=
  ⟨.of_onlyVars hf h, fun r => (h r).keeps Interpreter.station fun _ _ => rfl,
    fun r => (h r).keeps Interpreter.timetable fun _ _ => rfl,
    fun r => weakens_of_rights_eq ((h r).keeps rights fun _ _ => rfl)⟩

theorem setVar (name value : String) : Mild fun r => r.setVar name value :=
  .of_onlyVars (.setVar name value) fun r => onlyVars_setVar r name value

theorem unsetVar (name : String) : Mild fun r => r.unsetVar name :=
  .of_onlyVars (.unsetVar name) fun r => onlyVars_unsetVar r name

theorem setGlobal (name value : String) : Mild fun r => r.setGlobal name value :=
  .of_onlyVars (.setGlobal name value) fun r => onlyVars_setGlobal r name value

theorem unsetGlobal (name : String) : Mild fun r => r.unsetGlobal name :=
  .of_onlyVars (.unsetGlobal name) fun r => onlyVars_unsetGlobal r name

theorem linkGlobals (names : List String) :
    Mild fun r => names.foldl (fun r name => r.linkGlobal name) r :=
  .of_onlyVars (.linkGlobals names) fun r => onlyVars_linkGlobals r names

theorem define (name : String) {command : Command} (hcommand : ∀ b, command ≠ .builtin b) :
    Mild fun r => if r.deleted then r else { r with commands := r.commands.insert name command } := by
  refine ⟨.define name command, fun r => ?_, fun r => ?_, fun r => ?_⟩
  · split <;> rfl
  · split <;> rfl
  · split
    · exact .of_commands_eq rfl rfl
    · exact r.weakens_insert name hcommand

theorem undefine (name : String) : Mild fun r => { r with commands := r.commands.erase name } :=
  ⟨.undefine name, fun _ => rfl, fun _ => rfl, fun r => r.weakens_erase name⟩

theorem generateName : Mild fun r => r.generateName.2 :=
  ⟨.generateName, fun _ => rfl, fun _ => rfl, fun _ => .of_commands_eq rfl rfl⟩

theorem onChild (hook : ChildHook) :
    Mild fun r => { r with childHooks := r.childHooks ++ [hook] } :=
  ⟨.onChild hook, fun _ => rfl, fun _ => rfl, fun _ => .of_commands_eq rfl rfl⟩

end Mild

end Interpreter

/-! ### Changes of the ledger -/

namespace World

/-- One thread acts: it is there, all handles belong to it, and all threads are passive. -/
structure Solo (w : World) : Prop where
  here : (w.threads.get? w.current).isSome = true
  owner : ∀ h s, w.standing? h = some s → s.owner = w.current
  passive : w.Passive

/-- Make an interpreter and a handle for whoever asked for it. -/
def found (w : World) (config : HandleConfig) : HandleId × World :=
  let made := w.newInterp "" config.safe none
  let adopted := made.2.adopt made.1 config
  (adopted.1, adopted.2.hold adopted.1)

/-- Take a handle that the owning thread holds over from it. -/
def takeOver (w : World) (h : HandleId) : World :=
  (w.modifyHandle h fun handle => { handle with pinned := false }).hold h

/-- Somebody holds a handle. -/
def Held (w : World) (h : HandleId) : Prop :=
  ∃ s, w.standing? h = some s ∧ s.held = true

/-- A handle that nobody holds any more. -/
def Gone (w : World) (h : HandleId) : Prop :=
  ∃ s, w.standing? h = some s ∧ s.held = false

/-- Take work off the agenda, at the cost of a tick of the clock. -/
def takeOff (w : World) (a : Agenda Event Handler) : World :=
  { w.setAgenda a with clock := w.clock + 1 }

/-- A new thread gets a loop for its handle. -/
def startLoop (w : World) (h : HandleId) (t : ThreadId) : World :=
  ((w.newLoop (.handle h)).2.setPhase w.nextLoop .running).modifyThread t fun thread =>
    { thread with role := .looping h w.nextLoop }

end World

/-- The loop whose timer a handler is. -/
def Handler.loop? : Handler → Option LoopId
  | .keepalive l => some l
  | _ => none

/-- The loop that a thread runs by itself. -/
def Role.loop? : Role → Option LoopId
  | .looping _ l => some l
  | _ => none

/-- The loop whose timer some work is. -/
def Agenda.Work.loop? : Agenda.Work Event Handler → Option LoopId
  | .event _ => none
  | .timer handler | .idle handler => handler.loop?

/-- Work of which nothing more is to be said when it is taken off: it tells of the end of no handle,
and it is no deletion that was put off, no scheduled script and not the timer of a loop. -/
structure Agenda.Work.Plain (work : Agenda.Work Event Handler) : Prop where
  foreign : work.isForeign = false
  putOff : work.isPutOff = false
  script : work.script? = none
  loop : work.loop? = none

namespace Agenda.Work

variable {work : Agenda.Work Event Handler}

theorem isForeign_of_script {i : InterpId} {id : String} (h : work.script? = some (i, id)) :
    work.isForeign = false := by
  cases work with
  | event => cases h
  | timer | idle => rfl

theorem isForeign_of_loop {l : LoopId} (h : work.loop? = some l) : work.isForeign = false := by
  cases work with
  | event => cases h
  | timer | idle => rfl

theorem script_of_loop {l : LoopId} (h : work.loop? = some l) : work.script? = none := by
  cases work with
  | event => rfl
  | timer handler | idle handler => cases handler <;> first | rfl | cases h

theorem isPutOff_of_script {i : InterpId} {id : String} (h : work.script? = some (i, id)) :
    work.isPutOff = false := by
  cases work with
  | event | timer => rfl
  | idle handler => cases handler <;> first | rfl | cases h

theorem isPutOff_of_loop {l : LoopId} (h : work.loop? = some l) : work.isPutOff = false := by
  cases work with
  | event | timer => rfl
  | idle handler => cases handler <;> first | rfl | cases h

end Agenda.Work

theorem World.rests_takeOff {w : World} {a : Agenda Event Handler} (ha : w.agenda.Rests a) :
    w.Rests (w.takeOff a) :=
  (rests_setAgenda ha).trans (.of_tables_eq rfl)

/-- Work is taken off that has nothing to do with the end of a handle. -/
theorem World.retains_takeOff {w : World} {work : Agenda.Work Event Handler}
    {a : Agenda Event Handler} {flags : EventFlags} (hwork : work.isForeign = false)
    (hnext : w.agenda.next? flags w.clock = some (work, a)) : w.Retains (w.takeOff a) := by
  have hset : w.Retains (w.setAgenda a) := retains_setAgenda fun event hevent hmem =>
    Agenda.mem_events_of_next_of_not_foreign hnext hwork hevent hmem
  exact hset.trans (.of_threads_eq rfl rfl rfl)

namespace Run

/-- What a piece of code may do as long as one thread acts. The set consists of the handles that were
let go for good while a fatal signal cut the work short that was left in their mailboxes. -/
inductive Course : Set HandleId → World → World → Prop
  | rest {w w' : World} (h : w.Rests w') : Course ∅ w w'
  | edit {f : Interpreter → Interpreter} (hf : Interpreter.Tame f) (w : World) (i : InterpId) :
      Course ∅ w (w.modifyInterp i f)
  | schedule (w : World) (i : InterpId) (delay : Option Nat) (script : String) :
      Course ∅ w (w.scheduleAfter i delay script).2
  | unschedule (w : World) (i : InterpId) (id : String) : Course ∅ w (w.unschedule i id)
  | delete (w : World) (i : InterpId) : Course ∅ w (w.delete i)
  /-- A deletion that was put off is served. -/
  | putOff {w : World} {i : InterpId} {a : Agenda Event Handler}
      (hpop : w.agenda.popIdle? = some (.idle (.delete i), a)) :
      Course ∅ w ((w.takeOff a).delete i)
  | trans {lost lost' : Set HandleId} {w w' w'' : World} (h : Course lost w w')
      (h' : Course lost' w' w'') : Course (lost ∪ lost') w w''
  | call {lost : Set HandleId} {w w' : World} {i : InterpId} {vars : Table String String}
      (hlive : (w.interp i).deleted = false)
      (h : Course lost (w.modifyInterp i fun r => r.enterCall vars) w') :
      Course lost w (w'.modifyInterp i Interpreter.leaveCall)
  | aside {lost : Set HandleId} {w w' : World} {i : InterpId} (hlive : (w.interp i).deleted = false)
      (h : Course lost (w.modifyInterp i Interpreter.dropCalls) w') :
      Course lost w (w'.modifyInterp i fun r => r.restoreCalls (w.interp i).callFrames)
  | command {lost : Set HandleId} {w w' : World} {i : InterpId}
      (hlive : (w.interp i).deleted = false)
      (hdepth : (w.interp i).depth < Interpreter.maxDepth)
      (h : Course lost (w.modifyInterp i fun r => { r with depth := (w.interp i).depth + 1 }) w') :
      Course lost w (w'.modifyInterp i fun r => { r with depth := (w.interp i).depth })
  | createChild (w : World) (parent : InterpId) (name : String) (safe : Bool) :
      Course ∅ w (w.createChild parent name safe).2
  | found (w : World) (config : HandleConfig) : Course ∅ w (w.found config).2
  | hold {w : World} {h : HandleId} (hheld : w.Held h) : Course ∅ w (w.hold h)
  | takeOver {w : World} {h : HandleId} {handle : Handle} (hmem : (h, handle) ∈ w.handles.entries)
      (hpinned : handle.pinned = true) : Course ∅ w (w.takeOver h)
  | deleteHandle (w : World) (h : HandleId) : Course ∅ w (w.deleteHandle h)
  /-- A holder goes who is not the last one, or whose handle is deleted. -/
  | unhold {w : World} {h : HandleId}
      (hstays : ∀ s, (w.unhold h).standing? h = some s → s.held = true ∨ s.deleted = true) :
      Course ∅ w (w.unhold h)
  /-- The last holder goes: nobody finds the handle any more, its work is served, and its interpreter
  is given up. -/
  | release {lost : Set HandleId} {w w₁ w₂ : World} {h : HandleId}
      (hgone : (w.unhold h).Gone h) (hdropped : ((w.unhold h).unregister h).Rests w₁)
      (hserved : Course lost w₁ w₂) : Course lost w (w₂.giveUp h)
  /-- The last holder goes, and a fatal signal cuts the work of the handle short. -/
  | cut {lost : Set HandleId} {w w₁ w₂ : World} {fuel : Nat} {h : HandleId} {signal : FatalSignal}
      (hgone : (w.unhold h).Gone h) (hdropped : ((w.unhold h).unregister h).Rests w₁)
      (hserved : Course lost w₁ w₂)
      (hcut : Handle.release ⟨fuel, runWithin fuel⟩ h w = .error (.unwind signal) w₂) :
      Course (insert h lost) w w₂
  /-- When other threads act, nothing is said about the ledger. -/
  | foreign {w w' : World} (hw : ¬w.Solo) (h : Leads w w') : Course ∅ w w'

variable {lost : Set HandleId} {w w' w'' : World}

theorem leads_putOff (w : World) (a : Agenda Event Handler) (i : InterpId) :
    Leads w ((w.takeOff a).delete i) := by
  have htake : Leads w (w.takeOff a) := .rest rfl
  exact htake.trans (.delete _ i)

theorem leads_found (w : World) (config : HandleConfig) : Leads w (w.found config).2 := by
  have hcreate := Leads.create w "" config.safe none
  have hadopt := World.leads_adopt (w.newInterp "" config.safe none).2 w.nextInterp config
  exact (hcreate.trans hadopt).trans (.rest rfl)

theorem Leads.release {w₁ w₂ : World} {h : HandleId}
    (hdropped : ((w.unhold h).unregister h).Rests w₁) (hserved : Leads w₁ w₂) : Leads w w₂ := by
  have hgo : Leads w ((w.unhold h).unregister h) := .rest rfl
  exact (hgo.trans (.rest hdropped.interpreters)).trans hserved

theorem Course.leads (h : Course lost w w') : Leads w w' := by
  induction h with
  | rest h => exact .rest h.interpreters
  | edit hf w i => exact .edit hf.edit w i
  | schedule w i delay script => exact w.leads_scheduleAfter i delay script
  | unschedule w i id => exact w.leads_unschedule i id
  | delete w i => exact .delete w i
  | putOff _ => exact leads_putOff _ _ _
  | trans _ _ ih ih' => exact ih.trans ih'
  | call hlive _ ih => exact .call hlive ih
  | aside hlive _ ih => exact .aside hlive ih
  | command hlive hdepth _ ih => exact .command hlive hdepth ih
  | createChild w parent name safe => exact w.leads_createChild parent name safe
  | found w config => exact leads_found w config
  | hold _ => exact .rest rfl
  | takeOver _ _ => exact .rest rfl
  | deleteHandle w h => exact w.leads_deleteHandle h
  | unhold _ => exact .rest rfl
  | release _ hdropped _ ih => exact .release hdropped (ih.trans (World.leads_giveUp _ _))
  | cut _ hdropped _ _ ih => exact .release hdropped ih
  | foreign _ h => exact h

/-- What a piece of code may do as long as one thread acts, whether or not the work of some handles was
cut short. -/
def Proceeds (w w' : World) : Prop :=
  ∃ lost, Course lost w w'

end Run

end ScriptHost
