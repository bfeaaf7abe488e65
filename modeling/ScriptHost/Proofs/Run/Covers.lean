import ScriptHost.Proofs.Run.Course
import ScriptHost.Proofs.World.Attends

/-!
# Relations that cover what code does

Whatever the code of a host does is one step after the other, and a relation between worlds covers it
if it covers these steps. Most relations look at interpreters, at handles as far as the ledger tells of
them, and at agendas as far as timers and idle handlers go. Others look at mailboxes, posted events and
replies, too: they need to know besides that these are attended to.
-/

namespace ScriptHost

namespace Run

variable {lost : Set HandleId} {w w' w'' : World}

/-- A relation also covers what code did that waits without end for something that cannot come, while
it serves the work of a handle that was let go. -/
class Patient (R : World → World → Prop) : Prop where
  stall {w w₁ w₂ : World} {h : HandleId} (hgone : (w.unhold h).Gone h)
    (hdropped : ((w.unhold h).unregister h).Rests w₁)
    (hstill : ((w.unhold h).unregister h).Still w₁) (hserved : R w₁ w₂) : R w w₂

/-- What code does to interpreters and loops, and what it makes and deletes: between two worlds of which
one comes from the other in this way, `R` holds. When other threads act it is enough that they are related
by `L`. -/
class Follows (L : outParam (World → World → Prop)) (R : World → World → Prop) : Prop where
  edit {f : Interpreter → Interpreter} (hf : Interpreter.Mild f) (w : World) (i : InterpId) :
    R w (w.modifyInterp i f)
  schedule {w : World} {i : InterpId} (hlive : (w.interp i).deleted = false)
    (delay : Option Nat) (script : String) : R w (w.scheduleAfter i delay script).2
  unschedule (w : World) (i : InterpId) (id : String) : R w (w.unschedule i id)
  delete (w : World) (i : InterpId) : R w (w.delete i)
  /-- A scheduled script is taken off, and its interpreter forgets it. -/
  fire {w : World} {flags : EventFlags} {work : Agenda.Work Event Handler}
    {a : Agenda Event Handler} {i : InterpId} {id : String}
    (hnext : w.agenda.next? flags w.clock = some (work, a)) (hscript : work.script? = some (i, id)) :
    R w ((w.takeOff a).takeAfter i id).2
  /-- The timer of a loop is taken off, and armed again. -/
  rearm {w : World} {flags : EventFlags} {work : Agenda.Work Event Handler}
    {a : Agenda Event Handler} {l : LoopId}
    (hnext : w.agenda.next? flags w.clock = some (work, a)) (hloop : work.loop? = some l) :
    R w ((w.takeOff a).armKeepalive l)
  newLoop (w : World) (interval : Interval) : R w (w.newLoop interval).2
  putOff {w : World} {i : InterpId} {a : Agenda Event Handler}
    (hpop : w.agenda.popIdle? = some (.idle (.delete i), a)) : R w ((w.takeOff a).delete i)
  trans {w w' w'' : World} (h : R w w') (h' : R w' w'') : R w w''
  call {w w' : World} {i : InterpId} {vars : Table String String}
    (hlive : (w.interp i).deleted = false) (h : R (w.modifyInterp i fun r => r.enterCall vars) w') :
    R w (w'.modifyInterp i Interpreter.leaveCall)
  aside {w w' : World} {i : InterpId} (hlive : (w.interp i).deleted = false)
    (h : R (w.modifyInterp i Interpreter.dropCalls) w') :
    R w (w'.modifyInterp i fun r => r.restoreCalls (w.interp i).callFrames)
  command {w w' : World} {i : InterpId} {name : String} {command : Command}
    (hlive : (w.interp i).deleted = false) (hdepth : (w.interp i).depth < Interpreter.maxDepth)
    (hentry : (w.interp i).commands.get? name = some command)
    (h : R (w.beginCommand i name command (w.interp i).depth) w') :
    R w (w'.modifyInterp i fun r => { r with depth := (w.interp i).depth })
  createChild (w : World) (parent : InterpId) (name : String) (safe : Bool) :
    R w (w.createChild parent name safe).2
  found (w : World) (config : HandleConfig) : R w (w.found config).2
  hold {w : World} {h : HandleId} (hheld : w.Held h) : R w (w.hold h)
  takeOver {w : World} {h : HandleId} {handle : Handle} (hmem : (h, handle) ∈ w.handles.entries)
    (hpinned : handle.pinned = true) : R w (w.takeOver h)
  deleteHandle (w : World) (h : HandleId) : R w (w.deleteHandle h)
  unhold {w : World} {h : HandleId}
    (hstays : ∀ s, (w.unhold h).standing? h = some s → s.held = true ∨ s.deleted = true) :
    R w (w.unhold h)
  foreign {w w' : World} (hw : ¬w.Solo) (h : L w w') : R w w'
  all {w w' : World} (h : R w w') : L w w'
  leads {w w' : World} (h : R w w') : Leads w w'
  patient (hR : Patient R) : Patient L
  /-- If only `L` is patient, it says no more than the machine does. -/
  coarse {w w' : World} (hL : Patient L) (hR : ¬Patient R) (h : Leads w w') : L w w'

/-- Whatever the code of a host does between two worlds, they are related by `R`. When other threads
act it is enough that they are related by `L`. -/
class Covers (L : outParam (World → World → Prop)) (R : World → World → Prop) : Prop
    extends Follows L R where
  rest {w w' : World} (h : w.Rests w') (hstill : w.Still w') : R w w'
  serve {w : World} {flags : EventFlags} {work : Agenda.Work Event Handler}
    {a : Agenda Event Handler} (hnext : w.agenda.next? flags w.clock = some (work, a))
    (hplain : work.Plain) : R w (w.takeOff a)
  release {w w₁ w₂ : World} {h : HandleId} (hgone : (w.unhold h).Gone h)
    (hdropped : ((w.unhold h).unregister h).Rests w₁)
    (hstill : ((w.unhold h).unregister h).Still w₁) (hserved : R w₁ w₂) : R w (w₂.giveUp h)

/-- Whatever the code of a host does between two worlds, they are related by `R`, if only agendas,
mailboxes and replies are attended to. -/
class Tracks (L : outParam (World → World → Prop)) (R : World → World → Prop) : Prop
    extends Follows L R where
  settle {w w' : World} (h : w.Rests w') (hstill : w.Still w') (hattends : w.Attends w') : R w w'
  serve {w : World} {flags : EventFlags} {work : Agenda.Work Event Handler}
    {a : Agenda Event Handler} (hnext : w.agenda.next? flags w.clock = some (work, a))
    (hplain : work.Plain) (hattends : w.Attends (w.takeOff a)) : R w (w.takeOff a)
  release {w w₁ w₂ : World} {h : HandleId} (hgone : (w.unhold h).Gone h)
    (hdropped : ((w.unhold h).unregister h).Rests w₁)
    (hstill : ((w.unhold h).unregister h).Still w₁) (hattends : w.Attends w₁) (hserved : R w₁ w₂) :
    R w (w₂.giveUp h)
  /-- The owner of a handle hears of work, takes it out of the mailbox, does it and answers. -/
  attend {w w₁ w₂ : World} {flags : EventFlags} {a : Agenda Event Handler} {h : HandleId}
    {queued : Queued} (hnext : w.agenda.next? flags w.clock = some (.event (.serve h), a))
    (htake : (w.takeOff a).takeWork? h = some (queued, w₁)) (hserved : R w₁ w₂) (failed : Bool)
    (envelope : Envelope) : R w ((w₂.finishWork h failed).answerQueued queued envelope)
  /-- Work that a mailbox held waits without end for something that cannot come. -/
  stall {w w₁ w₂ : World} {flags : EventFlags} {a : Agenda Event Handler} {h : HandleId}
    {queued : Queued} (hR : Patient R)
    (hnext : w.agenda.next? flags w.clock = some (.event (.serve h), a))
    (htake : (w.takeOff a).takeWork? h = some (queued, w₁)) (hserved : R w₁ w₂) : R w w₂

section

variable {L R : World → World → Prop} [Covers L R] {h : HandleId} {queued : Queued}

include L

/-- Work is taken out of a mailbox, and whoever executes it holds the handle. -/
theorem Covers.takeWork? (htake : w.takeWork? h = some (queued, w')) : R w w' := by
  rw [World.takeWork?] at htake
  split at htake
  · cases htake
  · next handle hhandle =>
    split at htake
    · next hexists =>
      obtain ⟨⟨_, mailbox⟩, hpop, hw⟩ := Option.map_eq_some_iff.1 htake
      cases hw
      have htakes := Mailbox.queue_subset_of_pop? hpop
      have htaken : w.Rests (w.modifyHandle h fun r => { r with mailbox }) := by
        apply World.rests_modifyHandle
        intro handle' hhandle'
        rw [hhandle] at hhandle'
        cases hhandle'
        exact ⟨rfl, htakes⟩
      refine Follows.trans (Covers.rest htaken (.of_scenery_eq rfl)) ?_
      refine Follows.hold ⟨handle.standing, ?_, hexists⟩
      rw [htaken.standing, World.standing?_of_get? hhandle]
    · cases htake

/-- Work that waits for its handle is served as the event says that tells of it. -/
theorem Covers.takeServed {flags : EventFlags} {a : Agenda Event Handler}
    (hnext : w.agenda.next? flags w.clock = some (.event (.serve h), a))
    (htake : (w.takeOff a).takeWork? h = some (queued, w')) : R w w' :=
  Follows.trans (Covers.serve hnext ⟨rfl, rfl, rfl, rfl⟩) (Covers.takeWork? htake)

/-- A relation that covers whatever code does need not know what is attended to. -/
instance : Tracks L R where
  settle h hstill _ := Covers.rest h hstill
  serve hnext hplain _ := Covers.serve hnext hplain
  release hgone hdropped hstill _ hserved := Covers.release hgone hdropped hstill hserved
  attend {_ _ w₂ _ _ h queued} hnext htake hserved failed envelope :=
    have hfinish : R w₂ (w₂.finishWork h failed) :=
      Covers.rest (w₂.rests_finishWork h failed) (.of_scenery_eq rfl)
    have hanswer : R (w₂.finishWork h failed) ((w₂.finishWork h failed).answerQueued queued envelope) :=
      Covers.rest (World.rests_answerQueued _ queued envelope) (World.still_answerQueued _ queued envelope)
    Follows.trans (Covers.takeServed hnext htake) (Follows.trans hserved (Follows.trans hfinish hanswer))
  stall _ hnext htake hserved := Follows.trans (Covers.takeServed hnext htake) hserved

end

section

variable {L R : World → World → Prop} [Tracks L R]

include L

theorem Tracks.same (h : (w'.tables, w'.scenery, w'.desk) = (w.tables, w.scenery, w.desk)) : R w w' := by
  simp only [Prod.mk.injEq] at h
  exact Tracks.settle (.of_tables_eq h.1) (.of_scenery_eq h.2.1) (.of_desk_eq h.2.2)

theorem Tracks.refl (w : World) : R w w :=
  Tracks.same rfl

theorem Tracks.record (w : World) {what : Occurrence} (hwhat : what.isCommand = false) :
    R w (w.record what) :=
  Tracks.settle (.of_tables_eq rfl) (w.still_record hwhat) (.of_desk_eq rfl)

/-- A handle may change apart from its entry in the ledger and its mailbox. -/
theorem Tracks.modifyHandle {f : Handle → Handle}
    (hf : ∀ handle, (f handle).standing = handle.standing ∧ (f handle).mailbox = handle.mailbox)
    (w : World) (h : HandleId) : R w (w.modifyHandle h f) := by
  refine Tracks.settle (World.rests_modifyHandle fun handle _ => ⟨(hf handle).1, ?_⟩)
    (.of_scenery_eq rfl) (World.attends_modifyHandle_of_standing_eq hf w h)
  rw [(hf handle).2]
  exact List.Subset.refl _

end

/-- A relation also covers the moments at which a fatal signal cuts the work of a handle short that
was let go. -/
class Records (e : Engine) (R : World → World → Prop) : Prop where
  cut {w w₁ w₂ : World} {h : HandleId} {signal : FatalSignal} (hgone : (w.unhold h).Gone h)
    (hdropped : ((w.unhold h).unregister h).Rests w₁)
    (hstill : ((w.unhold h).unregister h).Still w₁) (hserved : R w₁ w₂)
    (hcut : Handle.release e h w = .error (.unwind signal) w₂) : R w w₂

/-- The same for a relation that knows besides what is attended to. -/
class Notes (e : Engine) (R : World → World → Prop) : Prop where
  cut {w w₁ w₂ : World} {h : HandleId} {signal : FatalSignal} (hgone : (w.unhold h).Gone h)
    (hdropped : ((w.unhold h).unregister h).Rests w₁)
    (hstill : ((w.unhold h).unregister h).Still w₁) (hattends : w.Attends w₁) (hserved : R w₁ w₂)
    (hcut : Handle.release e h w = .error (.unwind signal) w₂) : R w w₂

instance {e : Engine} {R : World → World → Prop} [Records e R] : Notes e R where
  cut hgone hdropped hstill _ hserved hcut := Records.cut hgone hdropped hstill hserved hcut

/-- A relation also covers what is done for a loop: its timer is armed unless it is pending, or stopped
for good, and the loop goes on to another phase. -/
class Tends (R : World → World → Prop) (l : LoopId) : Prop where
  arm (w : World) : R w (w.ensureArmed l)
  stop (w : World) : R w (w.stopKeepalive l)
  setPhase (w : World) (phase : LoopPhase) : R w (w.setPhase l phase)

/-- What several threads do by themselves: a thread may act while another one waits, serve the end of a
handle of which another one told it, begin and end. -/
class Crosses (L : World → World → Prop) : Prop where
  modifyThread {f : Thread → Thread} (hf : ∀ thread, (f thread).agenda = thread.agenda ∧
    (f thread).role.loop? = thread.role.loop?) (w : World) (t : ThreadId) : L w (w.modifyThread t f)
  startLoop (w : World) (h : HandleId) (t : ThreadId) : L w (w.startLoop h t)
  /-- What a thread does for a loop that it runs by itself is covered, or nothing is said about such
  worlds. -/
  tends {w : World} {t : ThreadId} {thread : Thread} {l : LoopId}
    (hthread : w.threads.get? t = some thread) (hrole : thread.role.loop? = some l) :
    Tends L l ∨ ∀ w', Leads w w' → w'.current = w.current → L w w'
  visit {w w' : World} {t : ThreadId} (ht : w.isRegistered t = true)
    (h : L { w with current := t, engaged := t :: w.engaged } w') :
    L w { w' with current := w.current, engaged := w.engaged }
  newThread (w : World) : L w w.newThread.2
  endThread (w : World) (t : ThreadId) : L w (w.endThread t)
  takeRelease {w : World} {a : Agenda Event Handler} {h : HandleId} {pending : List Queued}
    (hpop : w.agenda.popEvent? = some (.event (.release h pending), a)) : L w (w.takeOff a)
  /-- What is left of a handle that another thread let go is served. -/
  serveRelease {w w' : World} {a : Agenda Event Handler} {h : HandleId} {pending : List Queued}
    (hpop : w.agenda.popEvent? = some (.event (.release h pending), a))
    (hserved : L (w.takeOff a) w') : L w (w'.giveUp h)
  serveDelete {w : World} {a : Agenda Event Handler} {h : HandleId}
    (hpop : w.agenda.popEvent? = some (.event (.delete h), a)) : L w ((w.takeOff a).giveUp h)

/-- Whatever several threads do between two worlds, they are related. A thread may put work into the
mailboxes of others, tell them of the end of a handle, act while another one waits, begin and end. -/
class Spans (L : World → World → Prop) : Prop extends Covers L L, Crosses L where
  stands {w w' : World} (h : w.Stands w') (hstill : w.Still w') : L w w'
  /-- The last holder of a handle goes, and the owner is to serve what is left. -/
  letGo {w w₁ : World} {h : HandleId} (hgone : (w.unhold h).Gone h)
    (hdropped : ((w.unhold h).unregister h).Rests w₁)
    (hstill : ((w.unhold h).unregister h).Still w₁) (t : ThreadId) (pending : List Queued) :
    L w (w₁.post t (.release h pending))

/-- The same for a relation that knows besides what is attended to. -/
class Roams (L : World → World → Prop) : Prop extends Tracks L L, Crosses L where
  stands {w w' : World} (h : w.Stands w') (hstill : w.Still w') (hattends : w.Attends w') : L w w'
  /-- The last holder of a handle goes, and the owner is to serve what is left. -/
  letGo {w w₁ : World} {h : HandleId} (hgone : (w.unhold h).Gone h)
    (hdropped : ((w.unhold h).unregister h).Rests w₁)
    (hstill : ((w.unhold h).unregister h).Still w₁) (hattends : w.Attends w₁) (t : ThreadId)
    (pending : List Queued) : L w (w₁.post t (.release h pending))

instance {L : World → World → Prop} [Spans L] : Roams L where
  stands h hstill _ := Spans.stands h hstill
  letGo hgone hdropped hstill _ t pending := Spans.letGo hgone hdropped hstill t pending

theorem leads_visit {t : ThreadId}
    (h : Leads { w with current := t, engaged := t :: w.engaged } w') :
    Leads w { w' with current := w.current, engaged := w.engaged } := by
  have henter : Leads w { w with current := t, engaged := t :: w.engaged } := .rest rfl
  exact (henter.trans h).trans (.rest rfl)

instance : Patient Leads where
  stall _ hdropped _ hserved := .release hdropped hserved

theorem leads_ensureArmed (w : World) (l : LoopId) : Leads w (w.ensureArmed l) :=
  .rest (w.rests_ensureArmed l).interpreters

theorem leads_stopKeepalive (w : World) (l : LoopId) : Leads w (w.stopKeepalive l) :=
  .rest (w.rests_stopKeepalive l).interpreters

instance (l : LoopId) : Tends Leads l where
  arm w := leads_ensureArmed w l
  stop w := leads_stopKeepalive w l
  setPhase _ _ := .rest rfl

instance : Spans Leads where
  rest h _ := .rest h.interpreters
  edit hf w i := .edit hf.edit w i
  schedule _ delay script := World.leads_scheduleAfter _ _ delay script
  unschedule w i id := w.leads_unschedule i id
  delete w i := .delete w i
  serve _ _ := .rest rfl
  fire {w _ _ a i id} _ _ :=
    have htake : Leads w (w.takeOff a) := .rest rfl
    htake.trans (.edit (.unschedule id) _ i)
  rearm {w _ _ a l} _ _ :=
    have htake : Leads w (w.takeOff a) := .rest rfl
    htake.trans (.rest (World.rests_armKeepalive _ l).interpreters)
  newLoop _ _ := .rest rfl
  putOff _ := leads_putOff _ _ _
  trans h h' := h.trans h'
  call hlive h := .call hlive h
  aside hlive h := .aside hlive h
  command {w _ i name command} hlive hdepth _ h :=
    have hbegin : Leads (w.modifyInterp i fun r => { r with depth := (w.interp i).depth + 1 })
        (w.beginCommand i name command (w.interp i).depth) := .rest rfl
    .command hlive hdepth (hbegin.trans h)
  createChild w parent name safe := w.leads_createChild parent name safe
  found w config := leads_found w config
  hold _ := .rest rfl
  takeOver _ _ := .rest rfl
  deleteHandle w h := w.leads_deleteHandle h
  unhold _ := .rest rfl
  release _ hdropped _ hserved := .release hdropped (hserved.trans (World.leads_giveUp _ _))
  foreign _ h := h
  all h := h
  leads h := h
  patient h := h
  coarse _ _ h := h
  stands h _ := .rest h.interpreters
  modifyThread _ _ _ := .rest rfl
  startLoop _ _ _ := .rest rfl
  tends _ _ := .inl inferInstance
  visit _ h := leads_visit h
  newThread _ := .rest rfl
  endThread w t := w.leads_endThread t
  letGo _ hdropped _ _ _ := .release hdropped (.rest rfl)
  takeRelease _ := .rest rfl
  serveRelease {w _ a _ _} _ hserved :=
    have htake : Leads w (w.takeOff a) := .rest rfl
    (htake.trans hserved).trans (World.leads_giveUp _ _)
  serveDelete {w a _} _ :=
    have htake : Leads w (w.takeOff a) := .rest rfl
    htake.trans (World.leads_giveUp _ _)

instance (e : Engine) : Records e Leads where
  cut _ hdropped _ hserved _ := .release hdropped hserved

/-- A scheduled script is taken off, and its interpreter forgets it. -/
theorem Course.fire {flags : EventFlags} {work : Agenda.Work Event Handler}
    {a : Agenda Event Handler} {i : InterpId} {id : String}
    (hnext : w.agenda.next? flags w.clock = some (work, a)) (hscript : work.script? = some (i, id)) :
    Course (∅ ∪ ∅) w ((w.takeOff a).takeAfter i id).2 :=
  have htake : w.Rests (w.takeOff a) :=
    World.rests_takeOff (Agenda.rests_next (Agenda.Work.isPutOff_of_script hscript) hnext)
  (Course.rest htake).trans (.edit (.unschedule id) _ i)

/-- The timer of a loop is taken off, and armed again. -/
theorem Course.rearm {flags : EventFlags} {work : Agenda.Work Event Handler}
    {a : Agenda Event Handler} {l : LoopId}
    (hnext : w.agenda.next? flags w.clock = some (work, a)) (hloop : work.loop? = some l) :
    Course ∅ w ((w.takeOff a).armKeepalive l) :=
  have htake : w.Rests (w.takeOff a) :=
    World.rests_takeOff (Agenda.rests_next (Agenda.Work.isPutOff_of_loop hloop) hnext)
  .rest (htake.trans (World.rests_armKeepalive _ l))

instance : Covers Leads Proceeds where
  rest h _ := ⟨∅, .rest h⟩
  edit hf w i := ⟨∅, .edit hf.toTame w i⟩
  schedule _ delay script := ⟨∅, .schedule _ _ delay script⟩
  unschedule w i id := ⟨∅, .unschedule w i id⟩
  delete w i := ⟨∅, .delete w i⟩
  serve hnext hplain := ⟨∅, .rest (World.rests_takeOff (Agenda.rests_next hplain.putOff hnext))⟩
  fire hnext hscript := ⟨∅ ∪ ∅, .fire hnext hscript⟩
  rearm hnext hloop := ⟨∅, .rearm hnext hloop⟩
  newLoop _ _ := ⟨∅, .rest (.of_tables_eq rfl)⟩
  putOff hpop := ⟨∅, .putOff hpop⟩
  trans := fun ⟨lost, h⟩ ⟨lost', h'⟩ => ⟨lost ∪ lost', h.trans h'⟩
  call hlive := fun ⟨lost, h⟩ => ⟨lost, .call hlive h⟩
  aside hlive := fun ⟨lost, h⟩ => ⟨lost, .aside hlive h⟩
  command {w _ i name command} hlive hdepth _ := fun ⟨lost, h⟩ =>
    have hbegin : Course ∅ (w.modifyInterp i fun r => { r with depth := (w.interp i).depth + 1 })
        (w.beginCommand i name command (w.interp i).depth) := .rest (.of_tables_eq rfl)
    ⟨∅ ∪ lost, .command hlive hdepth (hbegin.trans h)⟩
  createChild w parent name safe := ⟨∅, .createChild w parent name safe⟩
  found w config := ⟨∅, .found w config⟩
  hold hheld := ⟨∅, .hold hheld⟩
  takeOver hmem hpinned := ⟨∅, .takeOver hmem hpinned⟩
  deleteHandle w h := ⟨∅, .deleteHandle w h⟩
  unhold hstays := ⟨∅, .unhold hstays⟩
  release hgone hdropped _ := fun ⟨lost, hserved⟩ => ⟨lost, .release hgone hdropped hserved⟩
  foreign hw h := ⟨∅, .foreign hw h⟩
  all := fun ⟨_, h⟩ => h.leads
  leads := fun ⟨_, h⟩ => h.leads
  patient _ := inferInstance
  coarse _ _ h := h

instance (l : LoopId) : Tends Proceeds l where
  arm w := ⟨∅, .rest (w.rests_ensureArmed l)⟩
  stop w := ⟨∅, .rest (w.rests_stopKeepalive l)⟩
  setPhase _ _ := ⟨∅, .rest (.of_tables_eq rfl)⟩

instance (fuel : Nat) : Records ⟨fuel, runWithin fuel⟩ Proceeds where
  cut hgone hdropped _ := fun ⟨lost, hserved⟩ hcut =>
    ⟨insert _ lost, .cut hgone hdropped hserved hcut⟩

end Run

end ScriptHost
