import ScriptHost.Proofs.Handle.Account
import ScriptHost.Proofs.Handle.Agreement
import ScriptHost.Proofs.Handle.PutOff
import ScriptHost.Proofs.World.Teardown

/-!
# What a loop leaves behind that ends with its handle

Whatever code does, on however many threads, handles, interpreters and events go on belonging
together. So when the loop of a handle returns because the handle is deleted, the interpreter is
deleted with all that is below it, unless its deletion was put off because a command of it was running
when the handle gave it up: that is left to an idle handler, which the loop does not serve on its way
out.
-/

namespace ScriptHost

namespace Run

open World

variable {w u w' : World} {h : HandleId} {i : InterpId}

/-- Code keeps what belongs together, and there is a history of what it did. -/
structure Recounts (w w' : World) : Prop where
  leads : Leads w w'
  current : w'.current = w.current
  account : w.current < w.nextThread → Accounts w w'

theorem Recounts.of_accounts (hleads : Leads w w') (hcurrent : w'.current = w.current)
    (h : Accounts w w') : Recounts w w' :=
  ⟨hleads, hcurrent, fun _ => h⟩

theorem Recounts.of_stands (h : w.Stands w') (hmail : w.Retains w') : Recounts w w' :=
  .of_accounts (.rest h.interpreters) h.current (.of_stands h hmail)

/-- What is done after something that keeps what belongs together. -/
theorem Recounts.andThen (hleads : Leads w w') (h : Recounts w u) (hcurrent : w'.current = u.current)
    (h' : u.current < u.nextThread → Accounts u w') : Recounts w w' := by
  refine ⟨hleads, hcurrent.trans h.current, fun hmade hw => ?_⟩
  have hfirst := h.account hmade
  refine hfirst.trans (h' ?_) hw
  rw [h.current]
  exact Nat.lt_of_lt_of_le hmade (hfirst.nextThread hw)

theorem Recounts.trans (h : Recounts w u) (h' : Recounts u w') : Recounts w w' :=
  .andThen (h.leads.trans h'.leads) h h'.current h'.account

theorem Recounts.delete (w : World) (i : InterpId) : Recounts w (w.delete i) :=
  .of_accounts (.delete w i) (current_delete w i) (accounts_delete w i)

/-- What is done in an interpreter between two changes of it. -/
theorem Recounts.bracket {f g : Interpreter → Interpreter} (hleads : Leads w (w'.modifyInterp i g))
    (h : Recounts (w.modifyInterp i f) w') (hf : ∀ r, (f r).station = r.station)
    (hg : ∀ r, (g r).station = r.station) : Recounts w (w'.modifyInterp i g) :=
  ⟨hleads, h.current, fun hmade =>
    ((accounts_modifyInterp hf w i).trans (h.account hmade)).trans (accounts_modifyInterp hg w' i)⟩

theorem Recounts.schedule (w : World) (i : InterpId) (delay : Option Nat) (script : String) :
    Recounts w (w.scheduleAfter i delay script).2 := by
  have hplan (w : World) (id : String) (token : AfterToken) : Accounts w (w.modifyInterp i fun r =>
      { r with nextAfter := r.nextAfter + 1, afters := r.afters.insert id token }) :=
    accounts_modifyInterp (fun _ => by rfl) w i
  have hset {a : Agenda Event Handler} (ha : w.agenda.Rests a) (hevents : a.events = w.agenda.events) :
      Accounts w (w.setAgenda a) :=
    .of_stands (rests_setAgenda ha).toStands (.of_agendaOf_eq (events_setAgenda hevents) rfl rfl)
  refine .of_accounts (w.leads_scheduleAfter i delay script) ?_ ?_
  · cases delay <;> rfl
  · cases delay with
    | some ms => exact (hset (Agenda.rests_addTimer _ _ _) rfl).trans (hplan _ _ _)
    | none => exact (hset (Agenda.rests_addIdle _ _) rfl).trans (hplan _ _ _)

theorem Recounts.unschedule (w : World) (i : InterpId) (id : String) :
    Recounts w (w.unschedule i id) := by
  have htake : Accounts w (w.takeAfter i id).2 := by
    refine accounts_modifyInterp (fun _ => ?_) w i
    rfl
  refine .of_accounts (w.leads_unschedule i id) ?_ (htake.trans ?_)
  · rw [World.unschedule]
    cases (w.takeAfter i id).1 with
    | none => rfl
    | some token => cases token <;> rfl
  · rw [World.unschedule]
    cases (w.takeAfter i id).1 with
    | none => exact .refl _
    | some token => exact .of_eases fun _ => eases_cancelAfter _ token

/-- Work is taken off the agenda that tells of the end of no handle. -/
theorem Recounts.takeOff {a : Agenda Event Handler} (ha : a.events = w.agenda.events) :
    Recounts w (w.takeOff a) := by
  refine .of_accounts (.rest rfl) rfl (.of_eases fun _ => eases_takeOff (fun h _ hold => ?_) ?_)
  · rwa [ha]
  · rw [ha]
    exact List.Subset.refl _

/-- Holders of a handle come and go, and its interpreter stays. -/
theorem Recounts.of_amends {f : Standing → Standing} (h' : Amends h f w w') (hmail : w.Retains w')
    (hf : ∀ s, w.standing? h = some s → s.Eases (f s)) : Recounts w w' :=
  .of_accounts (.rest h'.interpreters) h'.current (accounts_amends h' hmail hf)

theorem Recounts.unhold (w : World) (h : HandleId) : Recounts w (w.unhold h) :=
  .of_amends (amends_unhold w h) (.of_threads_eq rfl rfl rfl) fun _ _ =>
    ⟨rfl, rfl, rfl, held_of_held_pred⟩

/-- The last holder of a handle goes. -/
theorem Recounts.dropped (hdropped : ((w.unhold h).unregister h).Rests w')
    (hstill : ((w.unhold h).unregister h).Still w') : Recounts w w' := by
  have hunregister : Recounts (w.unhold h) ((w.unhold h).unregister h) :=
    .of_amends (amends_unregister _ h) (.of_threads_eq rfl rfl rfl) fun s _ => .refl s
  exact ((Recounts.unhold w h).trans hunregister).trans (.of_stands hdropped.toStands hstill.toRetains)

/-- The work of a handle is served that nobody holds any more, and its interpreter is given up. -/
theorem Recounts.giveUp (h' : Recounts w u) (hgone : w.Orderly ∅ → w.Gone h) :
    Recounts w (u.giveUp h) := by
  refine ⟨h'.leads.trans (leads_giveUp u h), (current_giveUp u h).trans h'.current, fun hmade hw => ?_⟩
  have hserved := h'.account hmade
  obtain ⟨-, ran, put, hhistory⟩ := hserved hw
  exact (hserved.trans (accounts_giveUp (hhistory.later.gone (hgone hw)))) hw

theorem Recounts.release {w₁ w₂ : World} (hgone : (w.unhold h).Gone h)
    (hdropped : ((w.unhold h).unregister h).Rests w₁)
    (hstill : ((w.unhold h).unregister h).Still w₁) (hserved : Recounts w₁ w₂) :
    Recounts w (w₂.giveUp h) := by
  refine (Recounts.dropped hdropped hstill).trans (hserved.giveUp fun _ => ?_)
  obtain ⟨s, hs, hgone⟩ := hgone
  exact ⟨s, (hdropped.standing h).trans hs, hgone⟩

theorem Recounts.newThread (w : World) : Recounts w w.newThread.2 := by
  have hget (t : ThreadId) : w.newThread.2.threads.get? t =
      if w.nextThread = t then some {} else w.threads.get? t := Table.get?_insert _ _ _ _
  have hregistered (t : ThreadId) : w.newThread.2.isRegistered t =
      if w.nextThread = t then true else w.isRegistered t := by
    rw [isRegistered, Table.contains, hget]
    split <;> rfl
  have hagenda (t : ThreadId) : (w.newThread.2.agendaOf t).events =
      if w.nextThread = t then [] else (w.agendaOf t).events := by
    rw [agendaOf, hget]
    split <;> rfl
  refine .of_accounts (.rest rfl) rfl (.of_eases fun hw => ?_)
  have hfresh (t : ThreadId) (ht : w.isRegistered t = true) : w.nextThread ≠ t :=
    Nat.ne_of_gt (hw.threads t ht)
  apply Eases.of_threads
  case hhere =>
    intro h s _ _ howner
    exact (hregistered s.owner).trans (if_neg (Nat.ne_of_gt howner))
  case htold =>
    intro h t _ htold
    have ht : w.isRegistered t = true := by
      by_contra hnot
      have habsent : w.threads.get? t = none := by
        rwa [isRegistered, Table.contains, Option.not_isSome_iff_eq_none] at hnot
      rw [agendaOf, habsent] at htold
      exact absurd htold List.not_mem_nil
    exact ((hagenda t).trans (if_neg (hfresh t ht))).symm ▸ htold
  case hmail =>
    intro t event hevent
    have hevent : event ∈ (w.newThread.2.agendaOf t).events := hevent
    rw [hagenda] at hevent
    split at hevent
    · exact absurd hevent List.not_mem_nil
    · exact hevent
  case hthreads =>
    intro hbound t ht
    have ht : w.newThread.2.isRegistered t = true := ht
    rw [hregistered] at ht
    split at ht
    · next heq => exact heq ▸ Nat.lt_succ_self _
    · exact Nat.lt_succ_of_lt (hbound t ht)
  case hnext => exact Nat.le_succ _

/-- The last holder of a handle goes, and the owner is told. -/
theorem Recounts.letGo (hgone : (w.unhold h).Gone h)
    (hdropped : ((w.unhold h).unregister h).Rests u)
    (hstill : ((w.unhold h).unregister h).Still u) (t : ThreadId) (pending : List Queued) :
    Recounts w (u.post t (.release h pending)) := by
  obtain ⟨s, hs, hgone⟩ := hgone
  have hsent : u.Gone h := ⟨s, (hdropped.standing h).trans hs, hgone⟩
  exact (Recounts.dropped hdropped hstill).trans
    (.of_accounts (.rest (interpreters_post u t _)) rfl (.of_eases fun _ => eases_post u t (.inr hsent)))

/-- The event by which another thread let a handle go is taken off. -/
theorem Recounts.takeRelease {a : Agenda Event Handler} {pending : List Queued}
    (hpop : w.agenda.popEvent? = some (.event (.release h pending), a)) :
    Recounts w (w.takeOff a) := by
  have hevents := Agenda.events_of_popEvent hpop
  refine .of_accounts (.rest rfl) rfl (.of_eases fun _ => eases_takeOff (fun k _ hold => ?_) ?_)
  · rw [hevents] at hold
    exact (List.mem_cons.1 hold).resolve_left nofun
  · rw [hevents]
    exact List.subset_cons_self _ _

theorem Recounts.serveRelease {a : Agenda Event Handler} {pending : List Queued}
    (hpop : w.agenda.popEvent? = some (.event (.release h pending), a))
    (hserved : Recounts (w.takeOff a) w') : Recounts w (w'.giveUp h) := by
  refine ((Recounts.takeRelease hpop).trans hserved).giveUp fun hw => ?_
  exact hw.mail w.current _ (Agenda.mem_events_of_popEvent hpop)

/-- The event by which another thread deleted a handle is served. -/
theorem Recounts.serveDelete {a : Agenda Event Handler}
    (hpop : w.agenda.popEvent? = some (.event (.delete h), a)) :
    Recounts w ((w.takeOff a).giveUp h) := by
  have hevents := Agenda.events_of_popEvent hpop
  have htake : Leads w (w.takeOff a) := .rest rfl
  refine .of_accounts (htake.trans (leads_giveUp _ h)) (current_giveUp _ h)
    (accounts_giveUp_of_eases (eases_takeOff (fun k hk hold => ?_) ?_) fun hw => .inl ?_)
  · rw [hevents] at hold
    refine (List.mem_cons.1 hold).resolve_left fun heq => hk ?_
    cases heq
    exact Set.mem_insert h ∅
  · rw [hevents]
    exact List.subset_cons_self _ _
  · exact hw.mail w.current _ (Agenda.mem_events_of_popEvent hpop)

/-- A thread does something while the one that was running waits. -/
theorem Recounts.visit {t : ThreadId} (ht : w.isRegistered t = true)
    (h' : Recounts { w with current := t, engaged := t :: w.engaged } w') :
    Recounts w { w' with current := w.current, engaged := w.engaged } := by
  refine ⟨leads_visit h'.leads, rfl, fun _ hw => ?_⟩
  have henter : Accounts w { w with current := t, engaged := t :: w.engaged } :=
    .of_eases fun _ => eases_visit w t _
  have hleave : Accounts w' { w' with current := w.current, engaged := w.engaged } :=
    .of_eases fun _ => eases_visit w' _ _
  exact ((henter.trans (h'.account (hw.threads t ht))).trans hleave) hw

instance : Patient Recounts where
  stall _ hdropped hstill hserved := (Recounts.dropped hdropped hstill).trans hserved

/-- Work is taken off that is no deletion that was put off and does not tell of the end of a handle. -/
theorem Recounts.takes {flags : EventFlags} {work : Agenda.Work Event Handler}
    {a : Agenda Event Handler} (hnext : w.agenda.next? flags w.clock = some (work, a))
    (hputOff : work.isPutOff = false) (hforeign : work.isForeign = false) :
    Recounts w (w.takeOff a) :=
  .of_stands (rests_takeOff (Agenda.rests_next hputOff hnext)).toStands
    (retains_takeOff hforeign hnext)

theorem Recounts.takeAfter (w : World) (i : InterpId) (id : String) :
    Recounts w (w.takeAfter i id).2 := by
  refine .of_accounts (.edit (.unschedule id) w i) rfl (accounts_modifyInterp (fun _ => ?_) w i)
  rfl

instance (l : LoopId) : Tends Recounts l where
  arm w := .of_stands (w.rests_ensureArmed l).toStands (w.retains_ensureArmed l)
  stop w := .of_stands (w.rests_stopKeepalive l).toStands (w.retains_stopKeepalive l)
  setPhase w _ := .of_stands (w.rests_modifyLoop l _).toStands (.of_threads_eq rfl rfl rfl)

instance : Spans Recounts where
  rest h hstill := .of_stands h.toStands hstill.toRetains
  edit hf w i := .of_accounts (.edit hf.edit w i) rfl (accounts_modifyInterp hf.station w i)
  schedule {w i} _ := .schedule w i
  unschedule := .unschedule
  delete := .delete
  serve hnext hplain := .takes hnext hplain.putOff hplain.foreign
  fire {w _ _ a i id} hnext hscript :=
    (Recounts.takes hnext (Agenda.Work.isPutOff_of_script hscript)
      (Agenda.Work.isForeign_of_script hscript)).trans (.takeAfter _ i id)
  rearm {w _ _ a l} hnext hloop :=
    (Recounts.takes hnext (Agenda.Work.isPutOff_of_loop hloop)
      (Agenda.Work.isForeign_of_loop hloop)).trans
      (.of_stands (rests_armKeepalive _ l).toStands (retains_armKeepalive _ l))
  newLoop w interval := by
    have hrests : w.Rests (w.newLoop interval).2 := .of_tables_eq rfl
    exact .of_stands hrests.toStands (.of_threads_eq rfl rfl rfl)
  putOff {w i a} hpop := by
    refine (Recounts.takeOff ?_).trans (.delete _ i)
    unfold Agenda.popIdle? at hpop
    split at hpop <;> cases hpop
    rfl
  trans h h' := h.trans h'
  call hlive h := .bracket (.call hlive h.leads) h (fun _ => rfl) fun _ => rfl
  aside hlive h := .bracket (.aside hlive h.leads) h (fun _ => rfl) fun _ => rfl
  command {w w' i name command} hlive hdepth hentry h := by
    have hbegin : Accounts w (w.record (.invoked i name command)) :=
      .of_eases fun _ => .of_events_eq rfl rfl rfl (fun _ => rfl) (fun _ => rfl) rfl
    have hdepths (w : World) (depth : Nat) :
        Accounts w (w.modifyInterp i fun r => { r with depth }) := by
      refine accounts_modifyInterp (fun _ => ?_) w i
      rfl
    have hopen := hbegin.trans (hdepths _ ((w.interp i).depth + 1))
    exact ⟨Follows.command hlive hdepth hentry h.leads, h.current, fun hmade =>
      (hopen.trans (h.account hmade)).trans (hdepths w' _)⟩
  createChild w p name safe := ⟨w.leads_createChild p name safe, w.current_createChild p name safe,
    fun hmade => accounts_createChild hmade p name safe⟩
  found w config :=
    ⟨leads_found w config, w.current_found config, fun hmade => accounts_found hmade config⟩
  hold {w h} hheld := by
    refine .of_amends (amends_hold w h) (.of_threads_eq rfl rfl rfl) fun s hs => ⟨rfl, rfl, rfl, fun _ => ?_⟩
    obtain ⟨s', hs', hheld⟩ := hheld
    rw [hs] at hs'
    cases hs'
    exact hheld
  takeOver {w h handle} hmem hpinned := by
    refine .of_accounts (.rest rfl) rfl (.of_eases fun hw => ?_)
    refine eases_amends (amends_takeOver w h) (.of_threads_eq rfl rfl rfl) fun s hs => ⟨rfl, rfl, rfl, fun _ => ?_⟩
    cases (standing?_of_get? (Table.get?_of_mem hw.keys hmem)).symm.trans hs
    simp [Standing.held, Handle.standing, hpinned]
  deleteHandle w h :=
    .of_accounts (w.leads_deleteHandle h) (current_deleteHandle w h) (accounts_deleteHandle w h)
  unhold {w h} _ := .unhold w h
  release := .release
  foreign _ h := h
  all h := h
  leads h := h.leads
  patient h := h
  coarse hL hR _ := absurd hL hR
  stands h hstill := .of_stands h hstill.toRetains
  modifyThread {f} hf w t := by
    refine .of_accounts (.rest rfl) rfl (.of_eases fun _ => .of_events_eq rfl rfl rfl ?_ ?_ rfl)
    · exact fun t' => isRegistered_modifyThread w t t' f
    · exact events_modifyThread fun thread _ => congrArg Agenda.events (hf thread).1
  startLoop w h t := by
    refine .of_accounts (.rest rfl) rfl (.of_eases fun _ => .of_events_eq rfl rfl rfl ?_ ?_ rfl)
    · exact fun t' => isRegistered_modifyThread _ t t' _
    · exact events_modifyThread fun _ _ => rfl
  tends _ _ := .inl inferInstance
  visit ht h := .visit ht h
  newThread := .newThread
  endThread w t := .of_accounts (w.leads_endThread t) rfl (accounts_endThread w t)
  letGo := .letGo
  takeRelease := .takeRelease
  serveRelease := .serveRelease
  serveDelete := .serveDelete

instance (e : Engine) : Records e Recounts where
  cut _ hdropped hstill hserved _ := (Recounts.dropped hdropped hstill).trans hserved

end Run

open Run World

/-! ### The end of a loop -/

theorem serveReady_eq_false_iff {e : Engine} {flags : EventFlags} {w w' : World} :
    serveReady e flags w = .ok false w' ↔ w' = w ∧ w.agenda.next? flags w.clock = none := by
  rw [serveReady, Act.get_bind]
  cases hnext : w.agenda.next? flags w.clock with
  | none =>
    constructor
    · intro hrun
      cases hrun
      exact ⟨rfl, rfl⟩
    · rintro ⟨rfl, -⟩
      rfl
  | some taken =>
    constructor
    · intro hrun
      obtain ⟨-, u, -, hserved⟩ := Act.exists_of_bind_ok hrun
      obtain ⟨-, v, -, hserved⟩ := Act.exists_of_bind_ok hserved
      cases hserved
    · rintro ⟨-, hnone⟩
      cases hnone

/-- The flags with which a loop drains the agenda. -/
theorem drain_flags :
    (EventFlags.posted.union .dontWait).normalize = EventFlags.posted.union .dontWait ∧
    (EventFlags.posted.union .dontWait).contains .dontWait = true ∧
    (EventFlags.posted.union .dontWait).intersects .posted = true ∧
    (EventFlags.posted.union .dontWait).contains .timer = false ∧
    (EventFlags.posted.union .dontWait).contains .idle = false := by
  decide

/-- While a loop drains the agenda it does not wait. -/
theorem oneEvent_posted (e : Engine) :
    oneEvent e (EventFlags.posted.union .dontWait) =
      serveReady e (EventFlags.posted.union .dontWait) := by
  funext w
  rw [oneEvent, drain_flags.1]
  cases hserve : serveReady e (EventFlags.posted.union .dontWait) w with
  | ok served u =>
    rw [Act.bind_of_ok hserve]
    cases served with
    | true => rfl
    | false => rw [if_neg Bool.false_ne_true, if_pos drain_flags.2.1]; rfl
  | error halt u => exact Act.bind_of_error hserve _

/-- A loop has drained the agenda exactly when no event is left there. -/
theorem oneEvent_posted_eq_false_iff {e : Engine} {w w' : World} :
    oneEvent e (EventFlags.posted.union .dontWait) w = .ok false w' ↔
      w' = w ∧ w.agenda.events = [] := by
  obtain ⟨-, -, hposted, htimer, hidle⟩ := drain_flags
  rw [oneEvent_posted, serveReady_eq_false_iff, Agenda.next?_eq_none_iff, hposted, htimer, hidle]
  simp

namespace EventLoop

variable {e : Engine} {w w' : World} {l : LoopId}

theorem ok_of_catchFatal {α : Type} {act : Act (Except HostError α)} {a : α}
    (hcatch : catchFatal act w = .ok (.ok a) w') : act w = .ok (.ok a) w' := by
  obtain ⟨result, u, hact, hrest⟩ := Act.exists_of_bind_ok hcatch
  cases hrun : act w with
  | ok value v =>
    rw [Act.attempt_of_ok hrun] at hact
    cases hact
    cases hrest
    rfl
  | error halt v =>
    rw [Act.attempt_of_error hrun] at hact
    cases hact
    cases halt with
    | unwind signal =>
      dsimp only at hrest
      rw [Act.get_bind] at hrest
      split at hrest <;> cases hrest
    | panic | stalled => cases hrest

end EventLoop

end ScriptHost
