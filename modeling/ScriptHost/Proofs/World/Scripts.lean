import Mathlib.Data.Set.Lattice
import ScriptHost.Proofs.World.Ledger
import ScriptHost.Proofs.World.Trees

/-!
# The scheduled scripts that a deletion cancels

A deletion takes the scheduled scripts of those interpreters that die off the agenda of its thread,
and nothing else.
-/

namespace ScriptHost

/-! ### Agendas -/

namespace Agenda

variable {a a' a'' : Agenda Event Handler} {tokens tokens' : Set AfterToken}

/-- The deadline of every timer is known, so that the timer can be cancelled. -/
def Dated (a : Agenda Event Handler) : Prop :=
  ∀ t ∈ a.timers, a.deadlines.get? t.token = some t.deadline

/-- Some timers and idle handlers go, and all other work stays in its order. -/
structure Drops (tokens : Set AfterToken) (a a' : Agenda Event Handler) : Prop where
  events : a'.events = a.events
  timers : a'.timers.Sublist a.timers
  mem_timers : ∀ t, t ∈ a'.timers ↔ t ∈ a.timers ∧ .timer t.token ∉ tokens
  idle : a'.idle.Sublist a.idle
  mem_idle : ∀ entry, entry ∈ a'.idle ↔ entry ∈ a.idle ∧ .idle entry.1 ∉ tokens
  dated : a'.Dated

theorem Drops.refl (hdated : a.Dated) : Drops ∅ a a where
  events := rfl
  timers := .refl _
  mem_timers t := by simp
  idle := .refl _
  mem_idle entry := by simp
  dated := hdated

theorem Drops.trans (h : Drops tokens a a') (h' : Drops tokens' a' a'') :
    Drops (tokens ∪ tokens') a a'' where
  events := h'.events.trans h.events
  timers := h'.timers.trans h.timers
  mem_timers t := by rw [h'.mem_timers, h.mem_timers, Set.mem_union, not_or, and_assoc]
  idle := h'.idle.trans h.idle
  mem_idle entry := by rw [h'.mem_idle, h.mem_idle, Set.mem_union, not_or, and_assoc]
  dated := h'.dated

theorem Drops.of_slots_eq (h : Drops tokens a a') (hevents : a''.events = a'.events)
    (hslots : a''.slots = a'.slots) : Drops tokens a a'' := by
  simp only [slots, Prod.mk.injEq] at hslots
  obtain ⟨htimers, hdeadlines, hidle, -⟩ := hslots
  refine ⟨hevents.trans h.events, ?_, ?_, ?_, ?_, ?_⟩
  · rw [htimers]
    exact h.timers
  · rw [htimers]
    exact h.mem_timers
  · rw [hidle]
    exact h.idle
  · rw [hidle]
    exact h.mem_idle
  · rw [Dated, htimers, hdeadlines]
    exact h.dated

/-- A timer that is known by its token and its deadline is known by its token. -/
theorem Dated.eq_iff {t : Timer Handler} {token : Token} {deadline : Time} (hdated : a.Dated)
    (hdeadline : a.deadlines.get? token = some deadline) (ht : t ∈ a.timers) :
    t.deadline = deadline ∧ t.token = token ↔ t.token = token := by
  refine and_iff_right_of_imp ?_
  rintro rfl
  exact Option.some.inj ((hdated t ht).symm.trans hdeadline)

theorem drops_cancelTimer (hdated : a.Dated) (token : Token) :
    Drops {.timer token} a (a.cancelTimer token).2 := by
  rw [cancelTimer]
  cases hdeadline : a.deadlines.get? token with
  | none =>
    refine ⟨rfl, .refl _, fun t => ?_, .refl _, fun entry => by simp, hdated⟩
    refine (and_iff_left_of_imp fun ht htoken => ?_).symm
    cases Set.mem_singleton_iff.1 htoken
    rw [hdated t ht] at hdeadline
    cases hdeadline
  | some deadline =>
    have hmem (t : Timer Handler) :
        t ∈ a.timers.filter (fun t => ¬(t.deadline = deadline ∧ t.token = token)) ↔
          t ∈ a.timers ∧ t.token ≠ token := by
      rw [List.mem_filter, decide_eq_true_iff]
      exact and_congr_right fun ht => not_congr (hdated.eq_iff hdeadline ht)
    refine ⟨rfl, List.filter_sublist, fun t => ?_, .refl _, fun entry => by simp, fun t ht => ?_⟩
    · exact (hmem t).trans (by simp)
    · obtain ⟨ht, hother⟩ := (hmem t).1 ht
      exact (Table.get?_erase _ _ _).trans ((if_neg hother.symm).trans (hdated t ht))

theorem drops_cancelIdle (hdated : a.Dated) (token : Token) :
    Drops {.idle token} a (a.cancelIdle token).2 where
  events := rfl
  timers := .refl _
  mem_timers t := by simp [cancelIdle]
  idle := List.filter_sublist
  mem_idle entry := by simp [cancelIdle]
  dated := hdated

theorem dated_default : Dated {} :=
  fun _ ht => nomatch ht

end Agenda

/-! ### What leaves the threads alone -/

namespace World

variable {w u w' : World} {i : InterpId} {ran ran' : List HookRun}

/-- The threads of a world, the one that is running, the loops, and the ids of the next ones. -/
def threading (w : World) :
    Table ThreadId Thread × ThreadId × ThreadId × Table LoopId Loop × LoopId :=
  (w.threads, w.current, w.nextThread, w.loops, w.nextLoop)

theorem agenda_eq_of_threading_eq (h : w'.threading = w.threading) : w'.agenda = w.agenda := by
  simp only [threading, Prod.mk.injEq] at h
  rw [agenda, agendaOf, h.1, h.2.1]
  rfl

theorem threading_foldl {α : Type} {f : World → α → World}
    (hf : ∀ w a, (f w a).threading = w.threading) (as : List α) (w : World) :
    (as.foldl f w).threading = w.threading := by
  induction as generalizing w with
  | nil => rfl
  | cons a as ih => rw [List.foldl_cons, ih, hf]

theorem threading_answerQueued (w : World) (queued : Queued) (envelope : Envelope) :
    (w.answerQueued queued envelope).threading = w.threading := by
  rw [answerQueued]
  split <;> rfl

theorem threading_drainMailbox (w : World) (h : HandleId) (error : HostError) :
    (w.drainMailbox h error).threading = w.threading := by
  rw [drainMailbox]
  split
  · rfl
  · exact threading_foldl (fun w queued => threading_answerQueued w queued _) _ _

theorem threading_markDeleted (w : World) (h : HandleId) :
    (w.markDeleted h).threading = w.threading := by
  rw [markDeleted]
  split
  · rfl
  · split
    · rfl
    · exact threading_drainMailbox _ h _

@[simp]
theorem threading_modifyHandle (w : World) (h : HandleId) (f : Handle → Handle) :
    (w.modifyHandle h f).threading = w.threading := rfl

theorem threading_untrack (w : World) (h : HandleId) : (w.untrack h).threading = w.threading := by
  rw [untrack]
  simp only [threading_modifyHandle]
  split
  · split
    · exact threading_markDeleted _ h
    · rfl
  · rfl

theorem threading_detach (w : World) (r : Interpreter) :
    (w.detach r).threading = w.threading := by
  rw [detach]
  split <;> rfl

/-! ### Cancelling -/

theorem drops_setAgenda {a : Agenda Event Handler} {tokens : Set AfterToken}
    (h : w.agenda.Drops tokens a) : w.agenda.Drops tokens (w.setAgenda a).agenda := by
  cases hthread : w.threads.get? w.current with
  | some thread => rwa [agenda_setAgenda (by rw [hthread]; rfl)]
  | none =>
    -- a thread that is not there has nothing on its agenda
    have hempty : w.agenda = {} := by
      rw [agenda, agendaOf, hthread]
      rfl
    have hnone : (w.setAgenda a).agenda = {} := by
      have hget : (w.setAgenda a).threads.get? w.current = none := by
        refine (Table.get?_modify w.threads w.current w.current _).trans ?_
        rw [if_pos rfl, hthread, Option.map_none]
      rw [agenda, agendaOf]
      change (((w.setAgenda a).threads.get? w.current).map (·.agenda)).getD {} = {}
      rw [hget]
      rfl
    rw [hempty, hnone]
    exact ⟨rfl, .refl _, by simp, .refl _, by simp, Agenda.dated_default⟩

theorem drops_cancelAfter (hdated : w.agenda.Dated) (token : AfterToken) :
    w.agenda.Drops {token} (w.cancelAfter token).agenda := by
  cases token with
  | timer token => exact drops_setAgenda (Agenda.drops_cancelTimer hdated token)
  | idle token => exact drops_setAgenda (Agenda.drops_cancelIdle hdated token)

theorem drops_foldl_cancelAfter (tokens : List AfterToken) (hdated : w.agenda.Dated) :
    w.agenda.Drops {token | token ∈ tokens} (tokens.foldl cancelAfter w).agenda := by
  induction tokens generalizing w with
  | nil => simpa using Agenda.Drops.refl hdated
  | cons token tokens ih =>
    have hfirst := drops_cancelAfter hdated token
    have hrest := hfirst.trans (ih hfirst.dated)
    have hsets : ({token} ∪ {t | t ∈ tokens} : Set AfterToken) = {t | t ∈ token :: tokens} := by
      ext t
      simp
    rwa [hsets] at hrest

theorem drops_secede (hdated : w.agenda.Dated) (r : Interpreter) (i : InterpId) :
    w.agenda.Drops {token | token ∈ (w.interp i).afters.values}
      ((w.secede r i).disarm i).agenda := by
  have hdetach := agenda_eq_of_threading_eq (threading_detach w r)
  have hafters : ((w.detach r).interp i).afters = (w.interp i).afters := by
    rw [interp_detach]
    split <;> rfl
  have hcancel := drops_foldl_cancelAfter (w.interp i).afters.values
    (w := (w.detach r).modifyInterp i fun r => { r with afters := .empty }) (hdetach ▸ hdated)
  rw [← hdetach]
  change (w.detach r).agenda.Drops _ ((w.detach r).cancelAfters i).agenda
  rw [cancelAfters, hafters]
  exact hcancel

/-! ### Tokens -/

/-- Work is withdrawn from the agenda, and whatever is pending otherwise keeps its token. -/
structure Withdraws (w w' : World) : Prop where
  loops : w'.loops = w.loops
  nextToken : w'.agenda.nextToken = w.agenda.nextToken
  sound : w.agenda.Sound → w'.agenda.Sound

theorem Withdraws.of_threading_eq (h : w'.threading = w.threading) : Withdraws w w' := by
  have hagenda := agenda_eq_of_threading_eq h
  simp only [threading, Prod.mk.injEq] at h
  refine ⟨h.2.2.2.1, ?_, fun hsound => ?_⟩
  · rw [hagenda]
  · rwa [hagenda]

theorem Withdraws.trans {w'' : World} (h : Withdraws w w') (h' : Withdraws w' w'') :
    Withdraws w w'' where
  loops := h'.loops.trans h.loops
  nextToken := h'.nextToken.trans h.nextToken
  sound hsound := h'.sound (h.sound hsound)

theorem withdraws_setAgenda {a : Agenda Event Handler} (hnext : a.nextToken = w.agenda.nextToken)
    (hsound : w.agenda.Sound → a.Sound) : Withdraws w (w.setAgenda a) := by
  cases hthread : w.threads.get? w.current with
  | none =>
    have hsame : w.setAgenda a = w := modifyThread_of_absent hthread _
    rw [hsame]
    exact .of_threading_eq rfl
  | some thread =>
    have hagenda := agenda_setAgenda (by rw [hthread]; rfl) a
    refine ⟨rfl, ?_, ?_⟩
    · rw [hagenda, hnext]
    · rwa [hagenda]

theorem withdraws_cancelAfter (w : World) (token : AfterToken) :
    Withdraws w (w.cancelAfter token) := by
  cases token with
  | timer token =>
    refine withdraws_setAgenda ?_ fun hsound => hsound.cancelTimer token
    rw [Agenda.cancelTimer]
    split <;> rfl
  | idle token => exact withdraws_setAgenda rfl fun hsound => hsound.cancelIdle token

theorem withdraws_secede (w : World) (r : Interpreter) (i : InterpId) :
    Withdraws w ((w.secede r i).disarm i) := by
  have hdetach : Withdraws w (w.detach r) := .of_threading_eq (threading_detach w r)
  have hcancel (tokens : List AfterToken) (u : World) : Withdraws u (tokens.foldl cancelAfter u) := by
    induction tokens generalizing u with
    | nil => exact .of_threading_eq rfl
    | cons token tokens ih => exact (withdraws_cancelAfter u token).trans (ih _)
  have hforget : Withdraws w ((w.detach r).modifyInterp i fun r => { r with afters := .empty }) :=
    hdetach.trans (.of_threading_eq rfl)
  exact (hforget.trans (hcancel _ _)).trans (.of_threading_eq rfl)

/-! ### Deletions -/

/-- The scheduled scripts of the interpreters that a deletion kills. -/
def scripts (w w' : World) : Set AfterToken :=
  {token | ∃ i, Dies w w' i ∧ token ∈ (w.interp i).afters.values}

theorem scripts_eq_empty (h : ∀ i, (w'.interp i).deleted = (w.interp i).deleted) :
    scripts w w' = ∅ := by
  refine Set.eq_empty_of_forall_notMem fun token hmem => ?_
  obtain ⟨i, ⟨hlive, hgone⟩, -⟩ := hmem
  rw [h, hlive] at hgone
  cases hgone

theorem drops_of_none_dies (hdeleted : ∀ i, (w'.interp i).deleted = (w.interp i).deleted)
    (hagenda : w'.agenda = w.agenda) (hdated : w.agenda.Dated) :
    w.agenda.Drops (scripts w w') w'.agenda := by
  rw [scripts_eq_empty hdeleted, hagenda]
  exact .refl hdated

theorem Strips.afters (h : Strips ran w w') (hlive : (w'.interp i).deleted = false) :
    (w'.interp i).afters = (w.interp i).afters := by
  have hi := h i
  revert hlive hi
  generalize w'.interp i = r'
  rintro hlive (- | - | -)
  · rfl
  · cases hlive
  · rfl

theorem Strips.afters_of_dies (h : Strips ran w w') (hdies : Dies w w' i) :
    (w'.interp i).afters = .empty := by
  obtain ⟨hlive, hgone⟩ := hdies
  have hi := h i
  revert hlive hgone hi
  generalize w'.interp i = r'
  rintro hlive hgone (hwas | - | -)
  · exact absurd (hlive.symm.trans hwas) Bool.false_ne_true
  · rfl
  · exact absurd (hlive.symm.trans hgone) Bool.false_ne_true

/-- A deletion gives no ids to scripts and takes none back. -/
theorem Strips.nextAfter (h : Strips ran w w') (i : InterpId) :
    (w'.interp i).nextAfter = (w.interp i).nextAfter := by
  have hi := h i
  generalize w'.interp i = r' at hi
  cases hi <;> rfl

theorem scripts_trans (h : Strips ran w u) (h' : Strips ran' u w') :
    scripts w w' = scripts w u ∪ scripts u w' := by
  ext token
  constructor
  · rintro ⟨i, hdies, htoken⟩
    rcases (dies_trans_iff h h').1 hdies with hdies | hdies
    · exact .inl ⟨i, hdies, htoken⟩
    · exact .inr ⟨i, hdies, by rwa [h.afters hdies.1]⟩
  · rintro (⟨i, hdies, htoken⟩ | ⟨i, hdies, htoken⟩)
    · exact ⟨i, (dies_trans_iff h h').2 (.inl hdies), htoken⟩
    · exact ⟨i, (dies_trans_iff h h').2 (.inr hdies), by rwa [← h.afters hdies.1]⟩

end World

namespace Removal

open World

variable {job : Removal} {ran ran' : List HookRun} {w w' u v : World} {i : InterpId}

/-- What is cancelled when an interpreter is deleted: the scripts of what dies below it, its own and
those of what dies when its hooks are run. -/
theorem scripts_tree (hlive : (w.interp i).deleted = false)
    (hstrips : Strips ran (w.modifyInterp i Interpreter.condemn) u)
    (hstrips' : Strips ran' ((u.secede (w.interp i) i).disarm i) v)
    (hgone : ((v.modifyInterp i Interpreter.wipe).interp i).deleted = true) :
    scripts w (v.modifyInterp i Interpreter.wipe) =
      scripts (w.modifyInterp i Interpreter.condemn) u ∪
        {token | token ∈ (w.interp i).afters.values} ∪
        scripts ((u.secede (w.interp i) i).disarm i) v := by
  have hstart {j : InterpId} (hij : i ≠ j) :
      (w.modifyInterp i Interpreter.condemn).interp j = w.interp j :=
    interp_modifyInterp_of_ne hij _
  have hmiddle {j : InterpId} (hij : i ≠ j)
      (hj : (((u.secede (w.interp i) i).disarm i).interp j).deleted = false) :
      (((u.secede (w.interp i) i).disarm i).interp j).afters = (w.interp j).afters := by
    rw [interp_secede_of_ne hij] at hj ⊢
    rw [(detach_same _ j).2.2] at hj
    rw [← hstart hij, ← hstrips.afters hj, interp_detach]
    split <;> rfl
  have hself {j : InterpId} (hj : Dies (w.modifyInterp i Interpreter.condemn) u j) : i ≠ j := by
    rintro rfl
    exact absurd ((deleted_condemn hlive).symm.trans hj.1) nofun
  have hself' {j : InterpId} (hj : Dies ((u.secede (w.interp i) i).disarm i) v j) : i ≠ j := by
    rintro rfl
    have hgone := hstrips.deleted (deleted_condemn hlive)
    exact absurd (((prunes_secede u _ i).deleted hgone).symm.trans hj.1) nofun
  ext token
  constructor
  · rintro ⟨j, hdies, htoken⟩
    by_cases hij : i = j
    · subst hij
      exact .inl (.inr htoken)
    · rcases (dies_tree hij hstrips hstrips').1 hdies with hdies | hdies
      · exact .inl (.inl ⟨j, hdies, by rwa [hstart hij]⟩)
      · exact .inr ⟨j, hdies, by rwa [hmiddle hij hdies.1]⟩
  · rintro ((⟨j, hdies, htoken⟩ | htoken) | ⟨j, hdies, htoken⟩)
    · have hij := hself hdies
      exact ⟨j, (dies_tree hij hstrips hstrips').2 (.inl hdies), by rwa [hstart hij] at htoken⟩
    · exact ⟨i, ⟨hlive, hgone⟩, htoken⟩
    · have hij := hself' hdies
      exact ⟨j, (dies_tree hij hstrips hstrips').2 (.inr hdies),
        by rwa [hmiddle hij hdies.1] at htoken⟩

/-- A deletion cancels the scheduled scripts of the interpreters that it kills. -/
theorem Runs.drops (h : Runs job w ran w') (hw : w.Childless) (hdated : w.agenda.Dated) :
    w.agenda.Drops (scripts w w') w'.agenda := by
  induction h with
  | gone | noTrees | noHooks | log =>
    exact drops_of_none_dies (fun i => rfl) rfl hdated
  | @tree i w u v ran ran' hlive hchildren hhooks ih ih' =>
    have hstrips := hchildren.strips (hw.condemn i)
    have hknown := isSome_of_condemn hlive hchildren.prunes
    have hw' := (hstrips.childless (hw.condemn i)).secede hknown (w.interp i)
    have hbelow := ih (hw.condemn i) hdated
    have hself := drops_secede hbelow.dated (w.interp i) i
    have hhooked := ih' hw' hself.dated
    rw [(hstrips i).of_gone (deleted_condemn hlive), interp_modifyInterp_of_live hlive] at hself
    rw [scripts_tree hlive hstrips (hhooks.strips hw') (Runs.tree hlive hchildren hhooks).deleted]
    exact (hbelow.trans hself).trans hhooked
  | trees hfirst hrest ih ih' =>
    have hu := (hfirst.strips hw).childless hw
    rw [scripts_trans (hfirst.strips hw) (hrest.strips hu)]
    exact (ih hw hdated).trans (ih' hu (ih hw hdated).dated)
  | @untrack _ h _ w =>
    refine drops_of_none_dies (fun i => ?_) (agenda_eq_of_threading_eq (threading_untrack w h)) hdated
    rw [interp_eq_of_interpreters_eq (interpreters_untrack w h)]
  | delete _ ih => exact ih hw hdated
  | @install _ j hook _ w _ =>
    refine drops_of_none_dies (fun i => ?_) rfl hdated
    refine deleted_modifyInterp (fun r => ?_) w j i
    rfl
  | late _ _ ih => exact ih hw hdated
  | hooks hfirst hrest ih ih' =>
    have hu := (hfirst.strips hw).childless hw
    rw [scripts_trans (hfirst.strips hw) (hrest.strips hu)]
    exact (ih hw hdated).trans (ih' hu (ih hw hdated).dated)

theorem Runs.withdraws (h : Runs job w ran w') : Withdraws w w' := by
  induction h with
  | gone | noTrees | noHooks | log | install => exact .of_threading_eq rfl
  | @tree i w u v _ _ _ _ _ ih ih' =>
    have hcondemn : Withdraws w (w.modifyInterp i Interpreter.condemn) := .of_threading_eq rfl
    have hself := (hcondemn.trans ih).trans (withdraws_secede u (w.interp i) i)
    exact (hself.trans ih').trans (.of_threading_eq rfl)
  | trees _ _ ih ih' | hooks _ _ ih ih' => exact ih.trans ih'
  | untrack => exact .of_threading_eq (threading_untrack _ _)
  | delete _ ih | late _ _ ih => exact ih

end Removal

/-! ### Which scripts are scheduled -/

/-- The interpreter of a scheduled script and the id of the script. -/
def Handler.script? : Handler → Option (InterpId × String)
  | .after i id _ => some (i, id)
  | _ => none

/-- The interpreter of a scheduled script that some work is, and the id of the script. -/
def Agenda.Work.script? : Agenda.Work Event Handler → Option (InterpId × String)
  | .event _ => none
  | .timer handler | .idle handler => handler.script?

namespace World

variable {w w' : World} {ran : List HookRun}

/-- Every scheduled script of the thread that is running belongs to a live interpreter, which knows
where to cancel it. -/
structure Filed (w : World) : Prop where
  dated : w.agenda.Dated
  timers : ∀ t ∈ w.agenda.timers, ∀ i id, t.handler.script? = some (i, id) →
    (w.interp i).deleted = false ∧ (w.interp i).afters.get? id = some (.timer t.token)
  idle : ∀ entry ∈ w.agenda.idle, ∀ i id, entry.2.script? = some (i, id) →
    (w.interp i).deleted = false ∧ (w.interp i).afters.get? id = some (.idle entry.1)

/-- A script that was not cancelled belongs to an interpreter that was not deleted. -/
theorem Strips.filed {token : AfterToken} {i : InterpId} {id : String} (h : Strips ran w w')
    (hlive : (w.interp i).deleted = false) (hlisted : (w.interp i).afters.get? id = some token)
    (hkept : token ∉ scripts w w') :
    (w'.interp i).deleted = false ∧ (w'.interp i).afters.get? id = some token := by
  have hstays : (w'.interp i).deleted = false := by
    by_contra hgone
    exact hkept ⟨i, ⟨hlive, Bool.eq_true_of_not_eq_false hgone⟩, Table.mem_values_of_get? hlisted⟩
  rw [h.afters hstays]
  exact ⟨hstays, hlisted⟩

theorem Filed.drops (hw : w.Filed) (h : Strips ran w w')
    (hdrops : w.agenda.Drops (scripts w w') w'.agenda) : w'.Filed := by
  constructor
  · exact hdrops.dated
  · intro t ht i id hscript
    obtain ⟨hwas, hkept⟩ := (hdrops.mem_timers t).1 ht
    obtain ⟨hlive, hlisted⟩ := hw.timers t hwas i id hscript
    exact h.filed hlive hlisted hkept
  · intro entry hentry i id hscript
    obtain ⟨hwas, hkept⟩ := (hdrops.mem_idle entry).1 hentry
    obtain ⟨hlive, hlisted⟩ := hw.idle entry hwas i id hscript
    exact h.filed hlive hlisted hkept

end World

end ScriptHost
