import ScriptHost.Proofs.Loop.Host

/-!
# Code attends to work

Whatever the code of a host does, on however many threads, attends to mailboxes, posted events and
replies: the owner of a handle hears of all work that is put into its mailbox, and when it takes a piece
of it out, its caller has the answer before the owner goes on.
-/

namespace ScriptHost

namespace World

variable {w w' w₁ w₂ : World} {h k : HandleId} {t : ThreadId} {l : LoopId} {queued : Queued}

/-! ### Interpreters and handles -/

theorem attends_scheduleAfter (w : World) (i : InterpId) (delay : Option Nat) (script : String) :
    w.Attends (w.scheduleAfter i delay script).2 := by
  cases delay with
  | none => exact (attends_addIdle w _).trans (.of_desk_eq rfl)
  | some ms => exact (attends_addTimer w _ _).trans (.of_desk_eq rfl)

theorem attends_unschedule (w : World) (i : InterpId) (id : String) :
    w.Attends (w.unschedule i id) := by
  have hforget : w.Attends (w.takeAfter i id).2 := .of_desk_eq rfl
  rw [unschedule]
  cases (w.takeAfter i id).1 with
  | none => exact hforget
  | some token => exact hforget.trans (attends_cancelAfter _ token)

theorem attends_runDeleteHook {delete : InterpId → World → World}
    (hdelete : ∀ i w, Attends w (delete i w)) (self : InterpId) (hook : DeleteHook) (w : World) :
    w.Attends (runDeleteHook delete self hook w) := by
  induction hook generalizing self w with
  | log label =>
    rw [runDeleteHook]
    exact .of_desk_eq rfl
  | untrack h =>
    rw [runDeleteHook]
    exact attends_untrack w h
  | delete i => exact hdelete i w
  | watch i hook ih =>
    rw [runDeleteHook]
    split
    · exact ih i w
    · exact .of_desk_eq rfl

theorem attends_detach (w : World) (r : Interpreter) : w.Attends (w.detach r) := by
  rw [detach]
  split <;> exact .of_desk_eq rfl

theorem attends_deleteTree (fuel : Nat) (i : InterpId) (w : World) :
    w.Attends (deleteTree fuel i w) := by
  induction fuel generalizing i w with
  | zero => exact .refl w
  | succ fuel ih =>
    rw [deleteTree]
    split
    · exact .refl w
    · have hcondemn : w.Attends (w.modifyInterp i Interpreter.condemn) := .of_desk_eq rfl
      have hcancel (w : World) : w.Attends (w.cancelAfters i) := by
        have hforget : w.Attends (w.modifyInterp i fun r => { r with afters := .empty }) :=
          .of_desk_eq rfl
        exact hforget.trans (.foldl attends_cancelAfter _ _)
      have hhooks (w : World) : w.Attends (runDeleteHooks (deleteTree fuel) i w) := by
        have hforget : w.Attends (w.modifyInterp i fun r =>
            { r with childHooks := [], deleteHooks := [] }) := .of_desk_eq rfl
        exact hforget.trans (.foldl (fun w hook => attends_runDeleteHook ih i hook w) _ _)
      have hwipe (w : World) : w.Attends (w.modifyInterp i Interpreter.wipe) := .of_desk_eq rfl
      have hbelow := hcondemn.trans (.foldl (fun w child => ih child w) (w.interp i).childIds _)
      have hdetached := hbelow.trans (attends_detach _ (w.interp i))
      exact ((hdetached.trans (hcancel _)).trans (hhooks _)).trans (hwipe _)

theorem attends_delete (w : World) (i : InterpId) : w.Attends (w.delete i) :=
  attends_deleteTree _ i w

theorem attends_callWhenDeleted (w : World) (i : InterpId) (hook : DeleteHook) :
    w.Attends (w.callWhenDeleted i hook) :=
  attends_runDeleteHook (fun j w => attends_delete w j) i (.watch i hook) w

theorem attends_deleteInterp (w : World) (i : InterpId) : w.Attends (w.deleteInterp i) := by
  rw [deleteInterp]
  split
  · exact attends_addIdle w _
  · exact attends_delete w i

theorem attends_giveUp (w : World) (h : HandleId) : w.Attends (w.giveUp h) := by
  have htake := attends_takeInterp w h
  rw [giveUp]
  split
  · next i u hu =>
    rw [hu] at htake
    exact htake.trans (attends_deleteInterp u i)
  · next u hu =>
    rwa [hu] at htake

theorem attends_deleteHandle (w : World) (h : HandleId) : w.Attends (w.deleteHandle h) := by
  rw [deleteHandle]
  split
  · exact .refl w
  · next handle _ =>
    split
    · exact .refl w
    · split
      · exact (attends_giveUp w h).trans (attends_markDeleted _ h)
      · exact (attends_markDeleted w h).trans (attends_post _ handle.owner _)

theorem attends_armKeepalive (w : World) (l : LoopId) : w.Attends (w.armKeepalive l) := by
  rcases armKeepalive_cases w l with hforgets | ⟨_, deadline, -, -, hadds⟩
  · rw [hforgets]
    exact .of_desk_eq rfl
  · rw [hadds]
    have hknown : w.Attends (w.modifyLoop l fun loop =>
        { loop with token := some w.agenda.nextToken }) := .of_desk_eq rfl
    exact hknown.trans (attends_addTimer _ deadline _)

theorem attends_ensureArmed (w : World) (l : LoopId) : w.Attends (w.ensureArmed l) := by
  rw [ensureArmed]
  split
  · exact .refl w
  · exact attends_armKeepalive w l

theorem attends_stopKeepalive (w : World) (l : LoopId) : w.Attends (w.stopKeepalive l) := by
  have hforget : w.Attends (w.modifyLoop l fun loop => { loop with active := false, token := none }) :=
    .of_desk_eq rfl
  rcases stopKeepalive_cases w l with hforgets | ⟨_, token, -, -, hcancels⟩
  · rwa [hforgets]
  · rw [hcancels]
    exact hforget.trans (attends_cancelAfter _ (.timer token))

/-- A pinned handle is live unless it is deleted, whoever holds it next. -/
theorem attends_takeOver {handle : Handle} (hmem : (h, handle) ∈ w.handles.entries)
    (hpinned : handle.pinned = true) : w.Attends (w.takeOver h) := by
  intro hw
  have hh := Table.get?_of_mem hw.nodup hmem
  rw [takeOver, hold, modifyHandle_modifyHandle]
  refine attends_modifyHandle (fun handle' hh' => ?_) hw
  cases hh.symm.trans hh'
  refine ⟨rfl, fun hlive => ⟨?_, Nat.le_refl _, fun _ => .inl⟩⟩
  simp only [Handle.live, Handle.exists, hpinned, Bool.and_eq_true, Bool.true_or, true_and] at hlive ⊢
  exact hlive.2

theorem attends_endThread (w : World) (t : ThreadId) : w.Attends (w.endThread t) := by
  have henter : w.Attends { w with current := t } := .of_desk_eq rfl
  have horphans (w : World) : w.Attends (w.deleteOrphans t) := by
    refine .foldl (fun w orphan => ?_) _ w
    exact (attends_takeInterp w orphan.1).trans (attends_delete _ orphan.2)
  have hunpin (w : World) : w.Attends (w.unpinAll t) := by
    refine .foldl (fun w entry => ?_) _ w
    dsimp only
    split
    · exact attends_unpin w entry.1
    · exact .refl w
  have herase (w : World) (current : ThreadId) :
      w.Attends { w with current, threads := w.threads.erase t } :=
    (attends_eraseThread w t).trans (.of_desk_eq rfl)
  exact (((henter.trans (horphans _)).trans (hunpin _)).trans (attends_loseReplies _ _)).trans
    (herase _ _)

/-- No handle was made yet, and nobody waits. -/
theorem issued_fresh (files : Machine.Files) (globalTimerMs : Nat) :
    (fresh files globalTimerMs).Issued := by
  refine ⟨fun t ht => ?_, List.nodup_nil, fun h hh => ?_, fun r hr => ?_⟩
  · obtain ⟨thread, hthread⟩ := Option.isSome_iff_exists.1 ht
    cases List.mem_singleton.1 (Table.mem_of_get? hthread)
    exact Nat.zero_lt_one
  · cases hh
  · cases hr

/-! ### Work is taken out of a mailbox -/

/-- The owner hears of one piece of work less. -/
theorem notices_le_succ_of_next {flags : EventFlags} {now : Time} {work : Agenda.Work Event Handler}
    {a a' : Agenda Event Handler} (hnext : a.next? flags now = some (work, a')) (h : HandleId) :
    a.notices h ≤ a'.notices h + 1 := by
  rcases Agenda.next?_cases hnext with hpop | hpop | hpop
  · obtain ⟨event, rest, hevents, -, rfl⟩ := Agenda.popEvent?_eq_some hpop
    rw [Agenda.notices, hevents, List.countP_cons]
    exact Nat.add_le_add_left (by split <;> decide) _
  · obtain ⟨_, _, -, -, -, rfl⟩ := Agenda.popTimer?_eq_some hpop
    exact Nat.le_succ _
  · obtain ⟨_, _, _, -, -, rfl⟩ := Agenda.popIdle?_eq_some hpop
    exact Nat.le_succ _

/-- The work that is taken out of a mailbox was the first there, and its handle stays alive. -/
theorem eq_some_of_takeWork? (htake : w.takeWork? h = some (queued, w')) :
    ∃ f, w' = w.modifyHandle h f ∧ (∀ k, w'.ownerOf k = w.ownerOf k) ∧
      (∀ k, w'.isLive k = w.isLive k) ∧ w.queueOf h = queued :: w'.queueOf h ∧
      ∀ k, h ≠ k → w'.queueOf k = w.queueOf k := by
  cases hh : w.handles.get? h with
  | none =>
    rw [takeWork?, hh] at htake
    cases htake
  | some handle =>
    have hexists := exists_of_takeWork? hh htake
    obtain ⟨rest, hrest, rfl⟩ := eq_of_takeWork? hh htake
    have hself := get?_modifyHandle_self hh fun u : Handle =>
      { u with mailbox := { handle.mailbox with queue := rest }, holders := u.holders + 1 }
    refine ⟨_, rfl, ownerOf_modifyHandle fun _ _ => rfl, fun k => ?_, ?_, fun k hk =>
      queueOf_modifyHandle_of_ne hk _⟩
    · by_cases hk : h = k
      · subst hk
        rw [isLive_of_get? hself, isLive_of_get? hh, Handle.live, Handle.live, hexists]
        simp [Handle.exists]
      · exact isLive_modifyHandle_of_ne hk _
    · rw [queueOf_of_get? hself, queueOf_of_get? hh, hrest]

section

variable {flags : EventFlags} {a : Agenda Event Handler}

/-- The owner of a handle hears of one piece of work less, and there is one less. -/
theorem untold_takeServed (hnext : w.agenda.next? flags w.clock = some (.event (.serve h), a))
    (htake : (w.takeOff a).takeWork? h = some (queued, w')) (k : HandleId) :
    w'.untold k ≤ w.untold k := by
  obtain ⟨f, rfl, howner, -, hself, hother⟩ := eq_some_of_takeWork? htake
  have howned : ((w.takeOff a).modifyHandle h f).ownerOf k = w.ownerOf k := howner k
  have hagenda : ((w.takeOff a).modifyHandle h f).agendaOf (w.ownerOf k) =
      (w.setAgenda a).agendaOf (w.ownerOf k) := rfl
  by_cases hk : h = k
  · subst hk
    have hnotices := rel_agendaOf_setAgenda (P := fun a a' => a.notices h ≤ a'.notices h + 1)
      (fun _ => Nat.le_succ _) (notices_le_succ_of_next hnext h) (w.ownerOf h)
    have hlength : (w.queueOf h).length = (((w.takeOff a).modifyHandle h f).queueOf h).length + 1 :=
      congrArg List.length hself
    rw [untold, untold, howned, hagenda]
    omega
  · have hother' : (.event (.serve h) : Agenda.Work Event Handler) ≠ .event (.serve k) := by
      intro heq
      cases heq
      exact hk rfl
    refine untold_le (hother k hk) ?_
    rw [howned, hagenda]
    exact rel_agendaOf_setAgenda (P := fun a a' => a.notices k ≤ a'.notices k)
      (fun _ => Nat.le_refl _) (notices_le_of_next hnext hother') _

/-- The owner of a handle hears of work and takes it out of the mailbox, and leaves all other work. -/
theorem minds_takeServed (hw : w.Issued)
    (hnext : w.agenda.next? flags w.clock = some (.event (.serve h), a))
    (htake : (w.takeOff a).takeWork? h = some (queued, w')) :
    w.Minds w' ∧ w'.current = w.current ∧
      ∀ k, ∀ other ∈ w.queueOf k, other = queued ∨ other ∈ w'.queueOf k := by
  have huntold := untold_takeServed hnext htake
  obtain ⟨f, rfl, howner, hlive, hself, hother⟩ := eq_some_of_takeWork? htake
  have hcourse : Agenda.Course w.agenda a := .single (.take hnext)
  refine ⟨.of_same hw rfl (Table.keys_modify _ _ _) (fun _ => rfl) (isRegistered_setAgenda w a) howner
    (rel_agendaOf_setAgenda (fun _ => .refl) hcourse) (fun _ => id) fun k hk =>
      ⟨(hlive k).symm.trans hk, huntold k⟩, rfl, fun k other hmem => ?_⟩
  by_cases hk : h = k
  · subst hk
    exact List.mem_cons.1 (hself ▸ hmem)
  · exact .inr (hother k hk ▸ hmem)

end

/-- Work that was taken out of a mailbox was served, and its caller has the answer. -/
theorem Heeds.of_served (hw : w.Issued) (htaken : w.Minds w₁)
    (hleft : ∀ k, ∀ other ∈ w.queueOf k, other = queued ∨ other ∈ w₁.queueOf k)
    (hserved : w₁.Heeds w') (hanswered : w.Settles w' queued) : w.Heeds w' := by
  have hminds := htaken.trans hw hserved.toMinds
  refine ⟨hminds, fun k hlive other hmem => ?_⟩
  rcases hleft k other hmem with rfl | hrest
  · exact .inr hanswered
  · exact (hserved.settles k hlive other hrest).imp_right fun hsettled r hr hknown =>
      hsettled r hr (htaken.reply r hknown)

end World

/-! ### Whatever a host does -/

namespace Run

open World

variable {w u w' : World} {h : HandleId}

/-- What code does attends to work, and the thread that was running goes on. -/
structure Serves (w w' : World) : Prop where
  leads : Leads w w'
  heeds : w.Issued → w.current < w.nextThread → w'.current = w.current ∧ w.Heeds w'

namespace Serves

theorem of_attends (hleads : Leads w w') (hcurrent : w'.current = w.current) (h : w.Attends w') :
    Serves w w' :=
  ⟨hleads, fun hw _ => ⟨hcurrent, h hw⟩⟩

/-- Nothing happens to what is attended to. -/
theorem of_desk_eq (hleads : Leads w w') (hcurrent : w'.current = w.current)
    (h : w'.desk = w.desk) : Serves w w' :=
  .of_attends hleads hcurrent (.of_desk_eq h)

theorem trans (h : Serves w u) (h' : Serves u w') : Serves w w' := by
  refine ⟨h.leads.trans h'.leads, fun hw hthere => ?_⟩
  obtain ⟨hcurrent, hheeds⟩ := h.heeds hw hthere
  have hthere' : u.current < u.nextThread :=
    hcurrent ▸ Nat.lt_of_lt_of_le hthere hheeds.nextThread
  obtain ⟨hcurrent', hheeds'⟩ := h'.heeds hheeds.issued hthere'
  exact ⟨hcurrent'.trans hcurrent, hheeds.trans hw hheeds'⟩

theorem foldl {α : Type} {f : World → α → World} (hf : ∀ w a, Serves w (f w a)) (as : List α)
    (w : World) : Serves w (as.foldl f w) := by
  induction as generalizing w with
  | nil => exact .of_desk_eq (.refl w) rfl rfl
  | cons a as ih => exact (hf w a).trans (ih (f w a))

/-- What happens between two changes that leave everything alone that is attended to. -/
theorem bracket {v : World} (h : Serves u v) (hopen : (u.desk, u.current) = (w.desk, w.current))
    (hclose : (w'.desk, w'.current) = (v.desk, v.current)) (hleads : Leads w w') : Serves w w' := by
  simp only [Prod.mk.injEq] at hopen hclose
  have henter : w.Attends u := .of_desk_eq hopen.1
  have hleave : v.Attends w' := .of_desk_eq hclose.1
  have hnext : u.nextThread = w.nextThread := congrArg (·.2.2.2.1) hopen.1
  refine ⟨hleads, fun hw hthere => ?_⟩
  have hu := henter hw
  obtain ⟨hcurrent, hheeds⟩ := h.heeds hu.issued (by rw [hopen.2, hnext]; exact hthere)
  have hinside := hu.trans hw hheeds
  exact ⟨hclose.2.trans (hcurrent.trans hopen.2), hinside.trans hw (hleave hheeds.issued)⟩

theorem adopt (w : World) (i : InterpId) (config : HandleConfig) : Serves w (w.adopt i config).2 := by
  refine ⟨w.leads_adopt i config, fun hw hthere => ⟨current_of_scene_eq (scene_adopt w i config), ?_⟩⟩
  have hmade : (w.addHandle i config).2.Attends ((((w.addHandle i config).2.defineCommand i
      "host_callback" (.callback (w.addHandle i config).1)).defineCommand i "host_eval"
      (.evaluator (w.addHandle i config).1)).modifyInterp i fun r =>
        { r with childHooks := r.childHooks ++ [.adopt config] }) := .of_desk_eq rfl
  have hhook := attends_callWhenDeleted ((((w.addHandle i config).2.defineCommand i "host_callback"
    (.callback (w.addHandle i config).1)).defineCommand i "host_eval"
    (.evaluator (w.addHandle i config).1)).modifyInterp i fun r =>
      { r with childHooks := r.childHooks ++ [.adopt config] }) i (.untrack (w.addHandle i config).1)
  have htrack (w : World) (h : HandleId) : w.Attends (w.track h) := .of_desk_eq rfl
  exact ((((attends_addHandle hthere i config).trans hmade).trans hhook).trans (htrack _ _)) hw

/-- A handle that is made comes to life. -/
theorem bring (w : World) (i : InterpId) (config : HandleConfig) {f : Handle → Handle}
    (hf : ∀ handle, (f handle).owner = handle.owner ∧
      (f handle).mailbox.queue = handle.mailbox.queue)
    (hleads : Leads w ((w.adopt i config).2.modifyHandle w.hub.nextHandle f)) :
    Serves w ((w.adopt i config).2.modifyHandle w.hub.nextHandle f) := by
  refine ⟨hleads, fun hw hthere => ?_⟩
  obtain ⟨hcurrent, hheeds⟩ := (adopt w i config).heeds hw hthere
  have hnew : w.hub.nextHandle ∉ w.handles.keys := fun hmem =>
    Nat.lt_irrefl _ (hw.handle _ hmem).1
  exact ⟨hcurrent, hheeds.bring hnew (queueOf_adopt w i config) hf⟩

theorem runChildHook (child : InterpId) (w : World) (hook : ChildHook) :
    Serves w (runChildHook child w hook) := by
  have hleads := World.leads_runChildHook child w hook
  cases hook with
  | log label => exact .of_desk_eq hleads rfl rfl
  | adopt config =>
    refine bring w child _ ?_ hleads
    intro handle
    exact ⟨rfl, rfl⟩

theorem createChild (w : World) (parent : InterpId) (name : String) (safe : Bool) :
    Serves w (w.createChild parent name safe).2 := by
  rw [World.createChild]
  dsimp only
  split
  · exact .of_desk_eq (.refl w) rfl rfl
  · split
    · exact .of_desk_eq (.refl w) rfl rfl
    · split
      · exact .of_desk_eq (.refl w) rfl rfl
      · have hcreate := Leads.create w name (safe || (w.interp parent).safe) (some parent)
        have hmade := hcreate.trans (.edit (.addChild name w.nextInterp) _ parent)
        exact (Serves.of_desk_eq hmade rfl rfl).trans (.foldl (runChildHook _) _ _)

theorem found (w : World) (config : HandleConfig) : Serves w (w.found config).2 := by
  have hmade : Serves w (w.newInterp "" config.safe none).2 :=
    .of_desk_eq (.create w "" config.safe none) rfl rfl
  refine hmade.trans (bring _ w.nextInterp config ?_ ?_)
  · intro handle
    exact ⟨rfl, rfl⟩
  · have hhold (u : World) (h : HandleId) : Leads u (u.hold h) := .rest rfl
    exact (World.leads_adopt _ _ _).trans (hhold _ _)

theorem giveUp (w : World) (h : HandleId) : Serves w (w.giveUp h) :=
  .of_attends (leads_giveUp w h) (current_of_scene_eq (scene_giveUp w h)) (attends_giveUp w h)

theorem takeOff {flags : EventFlags} {work : Agenda.Work Event Handler} {a : Agenda Event Handler}
    (hnext : w.agenda.next? flags w.clock = some (work, a)) (hwork : ∀ h, work ≠ .event (.serve h)) :
    Serves w (w.takeOff a) :=
  .of_attends (.rest rfl) rfl (attends_takeOff_of_ne hnext hwork)

theorem takePosted {event : Event} {a : Agenda Event Handler}
    (hpop : w.agenda.popEvent? = some (.event event, a)) (hevent : ∀ h, event ≠ .serve h) :
    Serves w (w.takeOff a) := by
  refine takeOff ((Agenda.next?_posted w.agenda w.clock).trans hpop) fun h heq => ?_
  cases heq
  exact hevent h rfl

/-- The last holder of a handle goes. -/
theorem dropped (hdropped : ((w.unhold h).unregister h).Rests w') (hattends : w.Attends w') :
    Serves w w' := by
  have hgo : Leads w ((w.unhold h).unregister h) := .rest rfl
  exact .of_attends (hgo.trans (.rest hdropped.interpreters)) hdropped.current hattends

/-- The owner of a handle takes work out of the mailbox, does it and answers. -/
theorem attend {w₁ w₂ : World} {flags : EventFlags} {a : Agenda Event Handler} {queued : Queued}
    (hnext : w.agenda.next? flags w.clock = some (.event (.serve h), a))
    (htake : (w.takeOff a).takeWork? h = some (queued, w₁)) (hserved : Serves w₁ w₂) (failed : Bool)
    (envelope : Envelope) : Serves w ((w₂.finishWork h failed).answerQueued queued envelope) := by
  have htaken : Leads w w₁ := Covers.takeServed hnext htake
  have hdone : Leads w₂ ((w₂.finishWork h failed).answerQueued queued envelope) :=
    .rest (w₂.rests_finishWork h failed |>.trans (rests_answerQueued _ queued envelope)).interpreters
  refine ⟨(htaken.trans hserved.leads).trans hdone, fun hw hthere => ?_⟩
  obtain ⟨hminds, hcurrent, hleft⟩ := minds_takeServed hw hnext htake
  have hthere₁ : w₁.current < w₁.nextThread :=
    hcurrent ▸ Nat.lt_of_lt_of_le hthere hminds.nextThread
  obtain ⟨hcurrent₁, hheeds⟩ := hserved.heeds hminds.issued hthere₁
  have hafter := (attends_finishWork w₂ h failed).trans (attends_answerQueued _ queued envelope)
  refine ⟨?_, .of_served hw hminds hleft (hheeds.trans hminds.issued (hafter hheeds.issued)) ?_⟩
  · refine Eq.trans ?_ (hcurrent₁.trans hcurrent)
    exact (rests_answerQueued _ queued envelope).current
  · intro r hr hknown
    exact settles_answerQueued _ queued envelope r hr (hheeds.reply r (hminds.reply r hknown))

end Serves

theorem not_serves_of_lost {r : ReplyId} (hw : w.Issued) (hthere : w.current < w.nextThread)
    (hknown : w.replies.contains r = true) (hlost : w'.replies.contains r = false) : ¬Serves w w' := by
  intro h
  rw [(h.heeds hw hthere).2.reply r hknown] at hlost
  cases hlost

/-- A host has made an interpreter, and somebody waits for an answer. -/
def awaited : World :=
  ((fresh .empty 0).found {}).2.newReply.2

theorem issued_awaited : awaited.Issued := by
  have hfound := (Serves.found (fresh .empty 0) {}).heeds (issued_fresh .empty 0) (by decide)
  exact (attends_newReply _ hfound.2.issued).issued

/-- What happens to a handle that was let go tells nothing of the callers that wait for other answers. -/
theorem not_patient_serves : ¬Patient Serves := by
  intro hpatient
  have hgone : (awaited.unhold 1).Gone 1 := ⟨_, rfl, rfl⟩
  have hserved (u : World) : Serves u u := .of_desk_eq (.refl u) rfl rfl
  have hlost : ¬Serves awaited { (awaited.unhold 1).unregister 1 with replies := .empty } :=
    not_serves_of_lost (r := 0) issued_awaited (by decide) rfl rfl
  refine hlost (Patient.stall hgone ?_ ?_ (hserved _))
  · exact .of_tables_eq rfl
  · exact .of_scenery_eq rfl

instance (l : LoopId) : Tends Serves l where
  arm w := .of_attends (leads_ensureArmed w l) (current_of_scene_eq (scene_ensureArmed w l))
    (attends_ensureArmed w l)
  stop w := .of_attends (leads_stopKeepalive w l) (current_of_scene_eq (scene_stopKeepalive w l))
    (attends_stopKeepalive w l)
  setPhase _ _ := .of_desk_eq (.rest rfl) rfl rfl

instance : Roams Serves where
  settle h _ hattends := .of_attends (.rest h.interpreters) h.current hattends
  serve _ _ hattends := .of_attends (.rest rfl) rfl hattends
  attend hnext htake hserved failed envelope := .attend hnext htake hserved failed envelope
  stall hR _ _ _ := absurd hR not_patient_serves
  edit hf w i := .of_desk_eq (Follows.edit hf w i) rfl rfl
  schedule hlive delay script := .of_attends (Follows.schedule hlive delay script)
    (current_of_scene_eq (scene_scheduleAfter _ _ delay script)) (attends_scheduleAfter _ _ delay script)
  unschedule w i id := .of_attends (Follows.unschedule w i id)
    (current_of_scene_eq (scene_unschedule w i id)) (attends_unschedule w i id)
  delete w i := .of_attends (.delete w i) (current_of_scene_eq (scene_delete w i)) (attends_delete w i)
  fire {w _ _ a i id} hnext hscript := by
    refine (Serves.takeOff hnext fun h heq => ?_).trans (.of_desk_eq (.edit (.unschedule id) _ i) rfl rfl)
    rw [heq] at hscript
    cases hscript
  rearm {w _ _ a l} hnext hloop := by
    refine (Serves.takeOff hnext fun h heq => ?_).trans (.of_attends
      (.rest (rests_armKeepalive _ l).interpreters) (current_of_scene_eq (scene_armKeepalive _ l))
      (attends_armKeepalive _ l))
    rw [heq] at hloop
    cases hloop
  newLoop w interval := .of_desk_eq (.rest rfl) rfl rfl
  putOff {w i a} hpop := by
    have hnext := (Agenda.next?_idle w.agenda w.clock).trans hpop
    exact (Serves.takeOff hnext nofun).trans (.of_attends (.delete _ i)
      (current_of_scene_eq (scene_delete _ i)) (attends_delete _ i))
  trans h h' := h.trans h'
  call hlive h := h.bracket rfl rfl (Follows.call hlive h.leads)
  aside hlive h := h.bracket rfl rfl (Follows.aside hlive h.leads)
  command hlive hdepth hentry h := h.bracket rfl rfl (Follows.command hlive hdepth hentry h.leads)
  createChild w p name safe := .createChild w p name safe
  found w config := .found w config
  hold {w h} hheld := by
    obtain ⟨s, hstanding, hexists⟩ := hheld
    obtain ⟨handle, hh, rfl⟩ := Option.map_eq_some_iff.1 hstanding
    exact .of_attends (.rest rfl) rfl (attends_hold hh hexists)
  takeOver hmem hpinned := .of_attends (Follows.takeOver hmem hpinned) rfl (attends_takeOver hmem hpinned)
  deleteHandle w h := .of_attends (w.leads_deleteHandle h) (current_of_scene_eq (scene_deleteHandle w h))
    (attends_deleteHandle w h)
  unhold {w h} _ := .of_attends (.rest rfl) rfl (attends_unhold w h)
  release _ hdropped _ hattends hserved :=
    ((Serves.dropped hdropped hattends).trans hserved).trans (.giveUp _ _)
  foreign _ h := h
  all h := h
  leads h := h.leads
  patient h := h
  coarse hL hR _ := absurd hL hR
  stands h _ hattends := .of_attends (.rest h.interpreters) h.current hattends
  modifyThread hf w t := .of_attends (.rest rfl) rfl
    (attends_editThread (fun thread => (hf thread).1) w t)
  startLoop w h t := by
    refine .of_attends (.rest rfl) rfl ?_
    have hmade : w.Attends ((w.newLoop (.handle h)).2.setPhase w.nextLoop .running) := .of_desk_eq rfl
    refine hmade.trans (attends_editThread ?_ _ t)
    intro thread
    rfl
  tends _ _ := .inl inferInstance
  visit {w w' t} ht h := by
    refine ⟨leads_visit h.leads, fun hw hthere => ⟨rfl, ?_⟩⟩
    have henter : w.Attends { w with current := t, engaged := t :: w.engaged } := .of_desk_eq rfl
    have hleave : w'.Attends { w' with current := w.current, engaged := w.engaged } := .of_desk_eq rfl
    have hvisit := (henter hw).trans hw (h.heeds (henter hw).issued (hw.thread t ht)).2
    exact hvisit.trans hw (hleave hvisit.issued)
  newThread w := .of_attends (.rest rfl) rfl (attends_newThread w)
  endThread w t := .of_attends (w.leads_endThread t) rfl (attends_endThread w t)
  letGo _ hdropped _ hattends t pending := (Serves.dropped hdropped hattends).trans
    (.of_attends (.rest (interpreters_post _ t _)) rfl (attends_post _ t _))
  takeRelease hpop := .takePosted hpop nofun
  serveRelease hpop hserved := ((Serves.takePosted hpop nofun).trans hserved).trans (.giveUp _ _)
  serveDelete hpop := (Serves.takePosted hpop nofun).trans (.giveUp _ _)

instance (e : Engine) : Notes e Serves where
  cut _ hdropped _ hattends hserved _ := (Serves.dropped hdropped hattends).trans hserved

end Run

end ScriptHost
