import ScriptHost.Proofs.Handle.Later
import ScriptHost.Proofs.Handle.Outlived

/-!
# Every change has a history

Whatever a change does to interpreters, handles, events and threads: these go on belonging together,
and a history says which hooks were run and which deletions were put off.
-/

namespace ScriptHost

namespace World

open Removal

variable {w u w' : World} {h k : HandleId} {i : InterpId} {t t' : ThreadId} {event posted : Event}
  {f : Standing → Standing} {out : Set HandleId}

/-- Whatever belongs together goes on doing so, and there is a history of what was done. -/
def Accounts (w w' : World) : Prop :=
  w.Orderly ∅ → w'.Orderly ∅ ∧ ∃ ran put, History ran put w w'

theorem Accounts.trans (h' : Accounts w u) (h'' : Accounts u w') : Accounts w w' := by
  intro hw
  obtain ⟨hu, ran, put, hhistory⟩ := h' hw
  obtain ⟨hw', ran', put', hhistory'⟩ := h'' hu
  exact ⟨hw', ran ++ ran', put ∪ put', hhistory.trans hhistory'⟩

theorem Eases.history (h' : Eases out w w') (hw : w.Orderly out) : History [] ∅ w w' :=
  .calm (h'.later hw) fun i hi => (h'.kin i hi).2

theorem Accounts.of_eases (h' : w.Orderly ∅ → Eases ∅ w w') : Accounts w w' :=
  fun hw => ⟨hw.eases (h' hw), [], ∅, (h' hw).history hw⟩

theorem Accounts.of_stands (h' : w.Stands w') (hmail : w.Retains w') : Accounts w w' :=
  .of_eases fun _ => eases_stands h' hmail

theorem Accounts.refl (w : World) : Accounts w w :=
  .of_stands (Rests.refl w).toStands (.refl w)

theorem Accounts.foldl {α : Type} {f : World → α → World} (hf : ∀ w a, Accounts w (f w a))
    (as : List α) (w : World) : Accounts w (as.foldl f w) := by
  induction as generalizing w with
  | nil => exact .refl w
  | cons a as ih => exact (hf w a).trans (ih (f w a))

theorem Accounts.nextThread (h' : Accounts w w') (hw : w.Orderly ∅) :
    w.nextThread ≤ w'.nextThread := by
  obtain ⟨-, ran, put, hhistory⟩ := h' hw
  exact hhistory.later.nextThread

theorem accounts_modifyInterp {g : Interpreter → Interpreter}
    (hg : ∀ r, (g r).station = r.station) (w : World) (i : InterpId) :
    Accounts w (w.modifyInterp i g) :=
  .of_eases fun _ => eases_modifyInterp hg w i

/-- Holders of a handle come and go, and its interpreter stays. -/
theorem accounts_amends (h' : Amends h f w w') (hmail : w.Retains w')
    (hf : ∀ s, w.standing? h = some s → s.Eases (f s)) : Accounts w w' :=
  .of_eases fun _ => eases_amends h' hmail hf

/-! ### Threads and agendas -/

/-- What is on the agendas changes, apart from the events that tell of the end of a handle that is
not out. -/
theorem Eases.of_events (hinterps : w'.interpreters = w.interpreters)
    (hhandles : w'.handles = w.handles) (hnext : w'.hub.nextHandle = w.hub.nextHandle)
    (hregistered : ∀ t, w'.isRegistered t = w.isRegistered t)
    (htold : ∀ h t, h ∉ out → .delete h ∈ (w.agendaOf t).events → .delete h ∈ (w'.agendaOf t).events)
    (hmail : ∀ t, ∀ event ∈ (w'.agendaOf t).events,
      event ∈ (w.agendaOf t).events ∨ event.isLocal = true ∨ w.Sent event)
    (hnextThread : w'.nextThread = w.nextThread) : Eases out w w' := by
  refine .of_interpreters hinterps ?_ hnext (rel_eases_of_eq fun k => ?_) hregistered htold hmail
    hnextThread
  · rw [hhandles]
  · rw [standing?, hhandles, standing?]

theorem Eases.of_events_eq (hinterps : w'.interpreters = w.interpreters)
    (hhandles : w'.handles = w.handles) (hnext : w'.hub.nextHandle = w.hub.nextHandle)
    (hregistered : ∀ t, w'.isRegistered t = w.isRegistered t)
    (hevents : ∀ t, (w'.agendaOf t).events = (w.agendaOf t).events)
    (hnextThread : w'.nextThread = w.nextThread) : Eases out w w' := by
  refine .of_events hinterps hhandles hnext hregistered (fun h t _ hold => ?_)
    (fun t event hevent => .inl ?_) hnextThread
  · rwa [hevents]
  · rwa [hevents] at hevent

theorem eases_cancelAfter (w : World) (token : AfterToken) : Eases out w (w.cancelAfter token) := by
  cases token with
  | timer token =>
    refine .of_events_eq rfl rfl rfl (isRegistered_setAgenda w _) (events_setAgenda ?_) rfl
    rw [Agenda.cancelTimer]
    split <;> rfl
  | idle token =>
    exact .of_events_eq rfl rfl rfl (isRegistered_setAgenda w _) (events_setAgenda rfl) rfl

/-- Events leave the agenda of the thread that is running, but none that tells of the end of a handle
that is not out. -/
theorem eases_takeOff {a : Agenda Event Handler}
    (htold : ∀ h, h ∉ out → .delete h ∈ w.agenda.events → .delete h ∈ a.events)
    (hmail : a.events ⊆ w.agenda.events) : Eases out w (w.takeOff a) := by
  have hagenda (t : ThreadId) : (w.takeOff a).agendaOf t =
      if w.current = t then ((w.threads.get? t).map fun _ => a).getD {} else w.agendaOf t :=
    agendaOf_modifyThread w w.current t _
  refine .of_events rfl rfl rfl (isRegistered_setAgenda w a) (fun h t hh hold => ?_)
    (fun t event hevent => .inl ?_) rfl
  · rw [hagenda]
    split
    · next ht =>
      subst ht
      cases hthread : w.threads.get? w.current with
      | none =>
        rw [agendaOf, hthread] at hold
        exact hold
      | some thread => exact htold h hh hold
    · exact hold
  · rw [hagenda] at hevent
    split at hevent
    · next ht =>
      subst ht
      cases hthread : w.threads.get? w.current with
      | none =>
        rw [hthread] at hevent
        exact absurd hevent List.not_mem_nil
      | some thread =>
        rw [hthread] at hevent
        exact hmail hevent
    · exact hevent

theorem mem_events_post (hposted : event ∈ ((w.post t posted).agendaOf t').events) :
    event ∈ (w.agendaOf t').events ∨ event = posted := by
  rw [post, events_alert, modifyAgenda, agendaOf_modifyThread] at hposted
  split at hposted
  · next ht =>
    subst ht
    rw [agendaOf]
    cases hthread : w.threads.get? t with
    | none =>
      rw [hthread] at hposted
      exact .inl hposted
    | some thread =>
      rw [hthread] at hposted
      exact (List.mem_append.1 hposted).imp_right List.mem_singleton.1
  · exact .inl hposted

/-- An event is posted, and if it tells of the end of a handle, that is ended. -/
theorem eases_post (w : World) (t : ThreadId) (hposted : posted.isLocal = true ∨ w.Sent posted) :
    Eases out w (w.post t posted) := by
  refine .of_events rfl rfl rfl (isRegistered_post w t · posted) (fun h t' _ hold => ?_) (fun t' event hevent => ?_) rfl
  · exact (still_post w t posted).events t' (.delete h) rfl hold
  · rcases mem_events_post hevent with hold | rfl
    · exact .inl hold
    · exact .inr hposted

/-- The owner of a handle is told of its deletion. -/
theorem mem_events_post_self (ht : w.isRegistered t = true) (posted : Event) :
    posted ∈ ((w.post t posted).agendaOf t).events := by
  rw [events_post_self ht]
  exact List.mem_append_right _ List.mem_cons_self

/-! ### Deletions -/

theorem accounts_delete (w : World) (i : InterpId) : Accounts w (w.delete i) := by
  intro hw
  obtain ⟨ran, hruns⟩ := exists_runs_delete w i
  exact ⟨hw.runs hruns, ran, ∅, .delete hw hruns⟩

theorem current_delete (w : World) (i : InterpId) : (w.delete i).current = w.current := by
  obtain ⟨ran, hruns⟩ := exists_runs_delete w i
  exact hruns.quiet.current

/-- A deletion takes the handle of the interpreter off the ledger. -/
theorem Orderly.untracked_of_runs {ran : List HookRun} (hw : w.Orderly out) (hi : w.interpOf? h = some i)
    (hruns : Runs (.tree i) (w.takeInterp h).2 ran w') : takesOff h ran = true := by
  have htaken := hw.takeInterp h
  obtain ⟨s, hs, hinterp⟩ := interpOf?_eq_some_iff.1 hi
  have hhook : .untrack h ∈ ((w.takeInterp h).2.interp i).deleteHooks := hw.watched h s i hs hinterp
  rcases mem_deleteHooks_of_runs hruns hhook with ⟨run, hrun, -, huntrack⟩ | hstays
  · exact takesOff_iff.2 ⟨run, hrun, huntrack⟩
  · rw [(htaken.runs hruns).spent i hruns.deleted] at hstays
    cases hstays

/-- A handle whose interpreter is deleted is a deleted one if anybody holds it. -/
theorem Orderly.settle_runs {ran : List HookRun} (hw : w.Orderly out) (hi : w.interpOf? h = some i)
    (hruns : Runs (.tree i) (w.takeInterp h).2 ran w') : w'.Orderly out := by
  have hstanding := hruns.standing? h
  rw [if_pos (hw.untracked_of_runs hi hruns)] at hstanding
  refine ((hw.takeInterp h).runs hruns).settle (fun s' hs' hheld hlive => ?_) fun s' hs' _ hsome => ?_
  · rw [hstanding] at hs'
    obtain ⟨s, -, rfl⟩ := Option.map_eq_some_iff.1 hs'
    have hheld := Standing.held_of_untracked hheld
    simp [Standing.untracked, hheld] at hlive
  · rw [hstanding] at hs'
    obtain ⟨s, -, rfl⟩ := Option.map_eq_some_iff.1 hs'
    cases hsome

/-- A handle gives up the interpreter that it has. -/
theorem history_giveUp (hw : w.Orderly out) (h : HandleId) :
    ∃ ran put, History ran put w (w.giveUp h) := by
  cases hi : w.interpOf? h with
  | none =>
    have hnone : w.giveUp h = (w.takeInterp h).2 := by rw [giveUp_eq, hi]; rfl
    rw [hnone]
    refine ⟨[], ∅, .calm (later_amends (amends_takeInterp w h) (.of_threads_eq rfl rfl rfl)
      (fun _ _ => ⟨rfl, id, id, .inr rfl⟩) fun s j hs hj => ?_) fun _ _ => rfl⟩
    rw [interpOf?_eq_of_standing hs, hj] at hi
    cases hi
  | some i =>
    cases hbusy : (w.interp i).isBusy with
    | true => exact ⟨[], {i}, .putOff hi hbusy⟩
    | false =>
      have hidle : ¬((w.takeInterp h).2.interp i).isBusy = true := by
        rw [Bool.not_eq_true]
        exact hbusy
      have hdelete : w.giveUp h = (w.takeInterp h).2.delete i := by
        rw [giveUp_eq, hi]
        exact if_neg hidle
      obtain ⟨ran, hruns⟩ := exists_runs_delete (w.takeInterp h).2 i
      rw [hdelete]
      exact ⟨ran, ∅, .giveUp hw hi hruns⟩

theorem current_giveUp (w : World) (h : HandleId) : (w.giveUp h).current = w.current := by
  rw [giveUp_eq]
  cases w.interpOf? h with
  | none => rfl
  | some i =>
    change ((w.takeInterp h).2.deleteInterp i).current = w.current
    rw [deleteInterp]
    split
    · rfl
    · exact current_delete _ i

/-- A handle that nobody finds any more gives its interpreter up. -/
theorem Orderly.giveUp_settle (hw : w.Orderly (insert h ∅)) (hended : w.Ended h ∨ w.Gone h) :
    (w.giveUp h).Orderly ∅ := by
  obtain ⟨ran, put, hhistory⟩ := history_giveUp hw h
  have hripens := hhistory.later.toRipens
  have hout := hw.giveUp h
  rw [Set.insert_eq_of_mem (Set.mem_insert h ∅)] at hout
  exact hout.settle_of_none (Handle.interpOf?_giveUp w h) (hended.imp hripens.ended hripens.gone)

/-- After a step that may put a handle out, which nobody finds any more, the handle gives its
interpreter up. -/
theorem accounts_giveUp_of_eases (h' : Eases (insert h ∅) w u)
    (hended : w.Orderly ∅ → u.Ended h ∨ u.Gone h) : Accounts w (u.giveUp h) := by
  intro hw
  have hmono := hw.mono (Set.empty_subset (insert h ∅))
  have hu := hmono.eases h'
  obtain ⟨ran, put, hhistory⟩ := history_giveUp hu h
  exact ⟨hu.giveUp_settle (hended hw), [] ++ ran, ∅ ∪ put, (h'.history hmono).trans hhistory⟩

theorem accounts_giveUp (hgone : w.Gone h) : Accounts w (w.giveUp h) :=
  accounts_giveUp_of_eases (eases_stands (Rests.refl w).toStands (.refl w)) fun _ => .inr hgone

theorem ended_markDeleted {s : Standing} (hs : w.standing? h = some s) :
    (w.markDeleted h).Ended h := by
  refine ⟨{ s with deleted := true }, ?_, rfl⟩
  rw [(amends_markDeleted w h).standing_self, hs]
  rfl

theorem interpOf?_eq_bind (w : World) (h : HandleId) :
    w.interpOf? h = (w.standing? h).bind (·.interp) := by
  rw [interpOf?, standing?]
  cases w.handles.get? h <;> rfl

theorem interpOf?_markDeleted (w : World) (h : HandleId) :
    (w.markDeleted h).interpOf? h = w.interpOf? h := by
  rw [interpOf?_eq_bind, (amends_markDeleted w h).standing_self, interpOf?_eq_bind]
  cases w.standing? h <;> rfl

theorem later_markDeleted (w : World) (h : HandleId) : Later [] ∅ w (w.markDeleted h) := by
  refine later_amends (amends_markDeleted w h) (still_markDeleted w h).toRetains (fun _ _ => ?_) fun _ _ _ hi => .inl hi
  exact ⟨rfl, fun _ => rfl, id, .inl rfl⟩

theorem history_markDeleted (w : World) (h : HandleId) : History [] ∅ w (w.markDeleted h) := by
  refine .calm (later_markDeleted w h) fun i _ => ?_
  rw [interp_eq_of_interpreters_eq (amends_markDeleted w h).interpreters i]

theorem Orderly.markDeleted (hw : w.Orderly (insert h ∅)) :
    (w.markDeleted h).Orderly (insert h ∅) := by
  have hamend := hw.amend (amends_markDeleted w h) (still_markDeleted w h).toRetains fun _ _ =>
    ⟨rfl, fun _ => rfl, id, .inl rfl⟩
  rwa [Set.insert_eq_of_mem (Set.mem_insert h ∅)] at hamend

/-- On its owning thread a handle gives its interpreter up when it is deleted. -/
theorem accounts_giveUp_markDeleted {s : Standing} (hs : w.standing? h = some s) :
    Accounts w ((w.giveUp h).markDeleted h) := by
  intro hw
  obtain ⟨ran, put, hhistory⟩ := history_giveUp hw h
  obtain ⟨s', hs', -⟩ := hhistory.later.each h s hs
  have hnone : ((w.giveUp h).markDeleted h).interpOf? h = none := by
    rw [interpOf?_markDeleted, Handle.interpOf?_giveUp]
  exact ⟨(hw.giveUp h).markDeleted.settle_of_none hnone (.inl (ended_markDeleted hs')), _, _,
    hhistory.trans (history_markDeleted _ h)⟩

/-- Elsewhere the owner is told of the deletion of a handle. -/
theorem accounts_markDeleted_post {s : Standing} (hs : w.standing? h = some s) :
    Accounts w ((w.markDeleted h).post s.owner (.delete h)) := by
  intro hw
  have hmarked := (hw.mono (Set.empty_subset (insert h ∅))).markDeleted
  have hpost : Eases (insert h ∅) (w.markDeleted h) ((w.markDeleted h).post s.owner (.delete h)) :=
    eases_post _ _ (.inr (ended_markDeleted hs))
  have hself : ((w.markDeleted h).post s.owner (.delete h)).standing? h =
      some { s with deleted := true } := by
    have hself := (amends_markDeleted w h).standing_self
    rw [hs] at hself
    exact hself
  refine ⟨(hmarked.eases hpost).settle (fun s' hs' _ hlive => ?_) fun s' hs' _ _ ht => ?_,
    _, _, (history_markDeleted w h).trans (hpost.history hmarked)⟩
  · cases hself.symm.trans hs'
    cases hlive
  · cases hself.symm.trans hs'
    refine mem_events_post_self ?_ _
    rwa [isRegistered_post] at ht

theorem accounts_deleteHandle (w : World) (h : HandleId) : Accounts w (w.deleteHandle h) := by
  rw [deleteHandle]
  cases hhandle : w.handles.get? h with
  | none => exact .refl w
  | some handle =>
    have hs := standing?_of_get? hhandle
    dsimp only
    split
    · exact .refl w
    · split
      · exact accounts_giveUp_markDeleted hs
      · exact accounts_markDeleted_post hs

theorem current_deleteHandle (w : World) (h : HandleId) : (w.deleteHandle h).current = w.current := by
  rw [deleteHandle]
  cases hhandle : w.handles.get? h with
  | none => rfl
  | some handle =>
    dsimp only
    split
    · rfl
    · split
      · exact (amends_markDeleted _ h).current.trans (current_giveUp w h)
      · exact (amends_markDeleted w h).current

/-! ### Making interpreters -/

theorem nextThread_adopt (hlive : (w.interp i).deleted = false) (config : HandleConfig) :
    (w.adopt i config).2.nextThread = w.nextThread := by
  obtain ⟨interps, hadopt⟩ := adopt_eq_of_live hlive config
  rw [hadopt]
  rfl

/-- A new handle is held. -/
theorem accounts_adopted (hcurrent : w.current < w.nextThread) (hlive : (w.interp i).deleted = false)
    {config : HandleConfig} (h' : Amends w.hub.nextHandle f (w.adopt i config).2 w')
    (hthreads : w'.threads = w.threads) (hnextThread : w'.nextThread = w.nextThread)
    (hinterp : (f (w.newStanding i)).interp = some i)
    (hfresh : (f (w.newStanding i)).deleted = false)
    (howner : (f (w.newStanding i)).owner = w.current) : Accounts w w' := by
  intro hw
  obtain ⟨hlater, hdeleted⟩ := hw.later_adopted hlive h' hthreads hnextThread
  exact ⟨hw.adopted hlive hcurrent h' hthreads hnextThread hinterp hfresh howner, [], ∅,
    .calm hlater fun j _ => hdeleted j⟩

/-- A hook of the parent leaves a new child live, and no thread comes. -/
theorem live_runChildHook (hlive : (w.interp i).deleted = false) (hook : ChildHook) :
    ((runChildHook i w hook).interp i).deleted = false ∧
      (runChildHook i w hook).current = w.current ∧
      (runChildHook i w hook).nextThread = w.nextThread := by
  cases hook with
  | log label => exact ⟨hlive, rfl, rfl⟩
  | adopt config =>
    exact ⟨(deleted_adopt hlive _ i).trans hlive, current_adopt hlive _, nextThread_adopt hlive _⟩

theorem current_foldl_runChildHook (hlive : (w.interp i).deleted = false) (hooks : List ChildHook) :
    (hooks.foldl (runChildHook i) w).current = w.current := by
  induction hooks generalizing w with
  | nil => rfl
  | cons hook hooks ih =>
    obtain ⟨hlive', hsame, -⟩ := live_runChildHook hlive hook
    exact (ih hlive').trans hsame

theorem accounts_runChildHook (hcurrent : w.current < w.nextThread)
    (hlive : (w.interp i).deleted = false) (hook : ChildHook) :
    Accounts w (runChildHook i w hook) := by
  cases hook with
  | log label =>
    have hlog : w.Rests (runChildHook i w (.log label)) := .of_tables_eq rfl
    exact .of_stands hlog.toStands (.of_threads_eq rfl rfl rfl)
  | adopt config =>
    have hpin := amends_pin (w.adopt i { config with safe := (w.interp i).safe }).2 w.hub.nextHandle
    exact accounts_adopted hcurrent hlive hpin (threads_adopt hlive _) (nextThread_adopt hlive _)
      rfl rfl rfl

theorem accounts_foldl_runChildHook (hcurrent : w.current < w.nextThread)
    (hlive : (w.interp i).deleted = false) (hooks : List ChildHook) :
    Accounts w (hooks.foldl (runChildHook i) w) := by
  induction hooks generalizing w with
  | nil => exact .refl w
  | cons hook hooks ih =>
    obtain ⟨hlive', hsame, hnext⟩ := live_runChildHook hlive hook
    exact (accounts_runChildHook hcurrent hlive hook).trans (ih (by rwa [hsame, hnext]) hlive')

/-- Either no child is made, or a live parent bears one and its hooks run. -/
theorem createChild_cases (w : World) (p : InterpId) (name : String) (safe : Bool) :
    (w.createChild p name safe).2 = w ∨
      (w.interp p).deleted = false ∧ (w.interp p).children.get? name = none ∧
      (w.createChild p name safe).2 = (w.interp p).childHooks.foldl (runChildHook w.nextInterp)
        (w.bear p name (safe || (w.interp p).safe)) := by
  rw [createChild]
  dsimp only
  split
  · exact .inl rfl
  · next hdead =>
    split
    · exact .inl rfl
    · split
      · exact .inl rfl
      · next hname =>
        rw [Bool.not_eq_true] at hdead
        rw [Table.contains, Bool.not_eq_true, Option.isSome_eq_false_iff, Option.isNone_iff_eq_none]
          at hname
        exact .inr ⟨hdead, hname, rfl⟩

theorem live_bear (w : World) (p : InterpId) (name : String) (safe : Bool) :
    ((w.bear p name safe).interp w.nextInterp).deleted = false := by
  rw [bear, deleted_modifyInterp fun r => by rfl]
  exact live_newInterp_self w name safe (some p)

theorem current_createChild (w : World) (p : InterpId) (name : String) (safe : Bool) :
    (w.createChild p name safe).2.current = w.current := by
  rcases w.createChild_cases p name safe with hsame | ⟨-, -, hborn⟩
  · rw [hsame]
  · rw [hborn, current_foldl_runChildHook (live_bear w p name _)]
    rfl

theorem accounts_createChild (hcurrent : w.current < w.nextThread) (p : InterpId) (name : String)
    (safe : Bool) : Accounts w (w.createChild p name safe).2 := by
  rcases w.createChild_cases p name safe with hsame | ⟨hlive, hname, hborn⟩
  · rw [hsame]
    exact .refl w
  · rw [hborn]
    have hbear : Accounts w (w.bear p name (safe || (w.interp p).safe)) :=
      .of_eases fun hw => eases_bear hw.numbered hlive hname _
    have hcurrent' : (w.bear p name (safe || (w.interp p).safe)).current <
        (w.bear p name (safe || (w.interp p).safe)).nextThread := hcurrent
    exact hbear.trans (accounts_foldl_runChildHook hcurrent' (live_bear w p name _) _)

theorem current_found (w : World) (config : HandleConfig) :
    (w.found config).2.current = w.current :=
  current_adopt (live_newInterp_self w "" config.safe none) config

theorem accounts_found (hcurrent : w.current < w.nextThread) (config : HandleConfig) :
    Accounts w (w.found config).2 := by
  have hnew : Accounts w (w.newInterp "" config.safe none).2 :=
    .of_eases fun hw => eases_newInterp hw.numbered "" config.safe
  have hlive := live_newInterp_self w "" config.safe none
  have hhold := amends_hold ((w.newInterp "" config.safe none).2.adopt w.nextInterp config).2
    w.hub.nextHandle
  exact hnew.trans (accounts_adopted hcurrent hlive hhold (threads_adopt hlive config)
    (nextThread_adopt hlive config) rfl rfl rfl)

/-! ### The end of a thread -/

theorem interpOf?_takeInterp (w : World) (h k : HandleId) :
    (w.takeInterp h).2.interpOf? k = if h = k then none else w.interpOf? k := by
  rw [interpOf?_eq_bind, (amends_takeInterp w h).standing, interpOf?_eq_bind]
  split
  · cases w.standing? k <;> rfl
  · rfl

theorem interpOf?_of_delete {j : InterpId} (hk : (w.delete i).interpOf? k = some j) :
    w.interpOf? k = some j := by
  obtain ⟨ran, hruns⟩ := exists_runs_delete w i
  rw [interpOf?_eq_bind, hruns.standing?] at hk
  rw [interpOf?_eq_bind]
  split at hk
  · rw [Option.bind_map] at hk
    cases hs : w.standing? k with
    | none => rwa [hs] at hk
    | some s =>
      rw [hs] at hk
      cases hk
  · exact hk

/-- Interpreters are deleted that some handles have, and none of these handles has one any more. -/
theorem interpOf?_of_foldl_deleteOrphan {j : InterpId} (orphans : List (HandleId × InterpId))
    (hk : (orphans.foldl (fun w orphan => ((w.takeInterp orphan.1).2).delete orphan.2) w).interpOf? k =
      some j) : w.interpOf? k = some j ∧ ∀ orphan ∈ orphans, orphan.1 ≠ k := by
  induction orphans generalizing w with
  | nil => exact ⟨hk, nofun⟩
  | cons orphan rest ih =>
    obtain ⟨hfirst, hrest⟩ := ih hk
    have htaken := interpOf?_of_delete hfirst
    rw [interpOf?_takeInterp] at htaken
    split at htaken
    · cases htaken
    · next hne => exact ⟨htaken, List.forall_mem_cons.2 ⟨hne, hrest⟩⟩

/-- An interpreter that a handle may still have is taken away from it and deleted. -/
theorem accounts_deleteOrphan (hi : ∀ j, w.interpOf? h = some j → j = i) :
    Accounts w ((w.takeInterp h).2.delete i) := by
  cases hinterp : w.interpOf? h with
  | none =>
    refine .trans (accounts_amends (amends_takeInterp w h) (.of_threads_eq rfl rfl rfl)
      fun s hs => ⟨rfl, rfl, ?_, id⟩) (accounts_delete _ i)
    rw [← interpOf?_eq_of_standing hs, hinterp]
  | some j =>
    cases hi j hinterp
    intro hw
    obtain ⟨ran, hruns⟩ := exists_runs_delete (w.takeInterp h).2 i
    exact ⟨hw.settle_runs hinterp hruns, ran, ∅, .giveUp hw hinterp hruns⟩

theorem accounts_foldl_deleteOrphan (orphans : List (HandleId × InterpId))
    (h' : ∀ orphan ∈ orphans, ∀ j, w.interpOf? orphan.1 = some j → j = orphan.2) :
    Accounts w (orphans.foldl (fun w orphan => ((w.takeInterp orphan.1).2).delete orphan.2) w) := by
  induction orphans generalizing w with
  | nil => exact .refl w
  | cons orphan rest ih =>
    refine (accounts_deleteOrphan (h' orphan List.mem_cons_self)).trans (ih fun former hmem j hj => ?_)
    refine h' former (List.mem_cons_of_mem _ hmem) j ?_
    exact (interpOf?_of_foldl_deleteOrphan [orphan] hj).1

/-- The handles of a thread with the interpreters that they have. -/
def orphans (w : World) (t : ThreadId) : List (HandleId × InterpId) :=
  w.handles.entries.filterMap fun (h, handle) =>
    if handle.owner = t then handle.interp.map fun i => (h, i) else none

theorem mem_orphans_iff (hkeys : w.handles.keys.Nodup) :
    (h, i) ∈ w.orphans t ↔ ∃ s, w.standing? h = some s ∧ s.owner = t ∧ s.interp = some i := by
  rw [orphans, List.mem_filterMap]
  constructor
  · rintro ⟨⟨h', handle⟩, hmem, hsome⟩
    dsimp only at hsome
    split at hsome
    · next howner =>
      obtain ⟨j, hj, heq⟩ := Option.map_eq_some_iff.1 hsome
      cases heq
      exact ⟨_, standing?_of_get? (Table.get?_of_mem hkeys hmem), howner, hj⟩
    · cases hsome
  · rintro ⟨s, hs, howner, hi⟩
    obtain ⟨handle, hhandle, rfl⟩ := Option.map_eq_some_iff.1 hs
    refine ⟨(h, handle), Table.mem_of_get? hhandle, ?_⟩
    have howner : handle.owner = t := howner
    have hi : handle.interp = some i := hi
    dsimp only
    rw [if_pos howner, hi]
    rfl

theorem accounts_deleteOrphans (w : World) (t : ThreadId) : Accounts w (w.deleteOrphans t) := by
  intro hw
  refine accounts_foldl_deleteOrphan (w.orphans t) (fun orphan hmem j hj => ?_) hw
  obtain ⟨s, hs, -, hi⟩ := (mem_orphans_iff hw.keys).1 hmem
  rw [interpOf?_eq_of_standing hs, hi] at hj
  exact (Option.some.inj hj).symm

/-- No handle of a thread has an interpreter when these are deleted. -/
theorem Orderly.orphaned {s : Standing} (hw : w.Orderly ∅)
    (hs : (w.deleteOrphans t).standing? h = some s) (howner : s.owner = t) : s.interp = none := by
  cases hinterp : s.interp with
  | none => rfl
  | some i =>
    have hi : (w.deleteOrphans t).interpOf? h = some i := by
      rw [interpOf?_eq_of_standing hs, hinterp]
    obtain ⟨hbefore, hnot⟩ := interpOf?_of_foldl_deleteOrphan (w.orphans t) hi
    obtain ⟨former, hformer, hi⟩ := interpOf?_eq_some_iff.1 hbefore
    obtain ⟨-, ran, put, hhistory⟩ := accounts_deleteOrphans w t hw
    obtain ⟨s', hs', hages⟩ := hhistory.later.each h former hformer
    cases hs.symm.trans hs'
    refine absurd rfl (hnot (h, i) ((mem_orphans_iff hw.keys).2 ⟨former, hformer, ?_, hi⟩))
    rw [← hages.owner, howner]

theorem amends_unpin (w : World) (h : HandleId) : Amends h (fun s => { s with pinned := false }) w
    (w.modifyHandle h fun handle => { handle with pinned := false }) := by
  apply amends_modifyHandle
  intro handle
  exact ⟨rfl, rfl⟩

theorem accounts_unpinAll (w : World) (t : ThreadId) : Accounts w (w.unpinAll t) := by
  refine .foldl (fun w entry => ?_) _ w
  dsimp only
  split
  · refine accounts_amends (amends_unpin w entry.1) (.of_threads_eq rfl rfl rfl) fun s _ =>
      ⟨rfl, rfl, rfl, fun hheld => ?_⟩
    simp only [Standing.held, Bool.false_or] at hheld
    simp only [Standing.held, Bool.or_eq_true]
    exact .inr hheld
  · exact .refl w

theorem standing?_of_unpinAll {s' : Standing} (hs' : (w.unpinAll t).standing? h = some s') :
    ∃ s, w.standing? h = some s ∧ s'.owner = s.owner ∧ s'.interp = s.interp := by
  rw [unpinAll] at hs'
  generalize w.handles.entries = entries at hs'
  induction entries generalizing w with
  | nil => exact ⟨s', hs', rfl, rfl⟩
  | cons entry rest ih =>
    obtain ⟨s, hs, howner, hinterp⟩ := ih hs'
    dsimp only at hs
    split at hs
    · rw [(amends_unpin w entry.1).standing] at hs
      split at hs
      · obtain ⟨former, hformer, rfl⟩ := Option.map_eq_some_iff.1 hs
        exact ⟨former, hformer, howner, hinterp⟩
      · exact ⟨s, hs, howner, hinterp⟩
    · exact ⟨s, hs, howner, hinterp⟩

/-- Another thread is the one that runs. -/
theorem eases_visit (w : World) (t : ThreadId) (engaged : List ThreadId) :
    Eases out w { w with current := t, engaged } :=
  .of_events_eq rfl rfl rfl (fun _ => rfl) (fun _ => rfl) rfl

/-- A thread ends on which no interpreter is left that is kept for a handle. -/
theorem eases_erase (current : ThreadId)
    (hnone : ∀ h s, w.standing? h = some s → s.owner = t → s.interp = none) :
    Eases out w { w with current, threads := w.threads.erase t } := by
  have hget (t' : ThreadId) : (w.threads.erase t).get? t' =
      if t = t' then none else w.threads.get? t' := Table.get?_erase _ _ _
  have hregistered (t' : ThreadId) :
      { w with current, threads := w.threads.erase t : World }.isRegistered t' =
        if t = t' then false else w.isRegistered t' := by
    rw [isRegistered, Table.contains, hget]
    split <;> rfl
  have hagenda {t' : ThreadId} (ht : t ≠ t') :
      { w with current, threads := w.threads.erase t : World }.agendaOf t' = w.agendaOf t' := by
    rw [agendaOf, hget, if_neg ht, agendaOf]
  apply Eases.of_threads
  case hhere =>
    intro h s hs hsome _
    have hne : t ≠ s.owner := by
      rintro rfl
      rw [hnone h s hs rfl] at hsome
      cases hsome
    rw [hregistered, if_neg hne]
  case htold =>
    intro h t' ht htold
    rw [hregistered] at ht
    split at ht
    · cases ht
    · next hne => rwa [hagenda hne]
  case hmail =>
    intro t' event hevent
    by_cases ht : t = t'
    · rw [agendaOf, hget, if_pos ht] at hevent
      exact absurd hevent List.not_mem_nil
    · rwa [hagenda ht] at hevent
  case hthreads =>
    intro hbound t' ht
    rw [hregistered] at ht
    split at ht
    · cases ht
    · exact hbound t' ht
  case hnext => exact Nat.le_refl _

theorem accounts_endThread (w : World) (t : ThreadId) : Accounts w (w.endThread t) := by
  intro hw
  let entered : World := { w with current := t }
  let ended := (entered.deleteOrphans t).unpinAll t
  let lost := ended.loseReplies (releasedWork (ended.agendaOf t).events)
  have henter : Accounts w entered := .of_eases fun _ => eases_visit w t w.engaged
  have horphans := accounts_deleteOrphans entered t
  have hunpin := accounts_unpinAll (entered.deleteOrphans t) t
  have hlose := rests_loseReplies ended (releasedWork (ended.agendaOf t).events)
  have hlost : Accounts ended lost := .of_stands hlose.toStands (still_loseReplies _ _).toRetains
  have hnone (h : HandleId) (s : Standing) (hs : lost.standing? h = some s) (howner : s.owner = t) :
      s.interp = none := by
    rw [hlose.standing] at hs
    obtain ⟨s', hs', hsame, hinterp⟩ := standing?_of_unpinAll hs
    rw [hinterp]
    exact (henter hw).1.orphaned hs' (hsame.symm.trans howner)
  have herase : Accounts lost { lost with current := w.current, threads := lost.threads.erase t } :=
    .of_eases fun _ => eases_erase w.current hnone
  exact ((henter.trans horphans).trans ((hunpin.trans hlost).trans herase)) hw

end World

end ScriptHost
