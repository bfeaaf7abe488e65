import ScriptHost.Proofs.Number.Decimal
import ScriptHost.Proofs.Timetable.Machine
import ScriptHost.Proofs.World.Births
import ScriptHost.Proofs.World.Scene

/-!
# Every interpreter knows what it scheduled

The scripts of an interpreter that wait on the agenda of the thread are the ones that the interpreter
has listed, at the places where it has them listed. Every step of the thread keeps this.
-/

namespace ScriptHost

/-! ### Agendas -/

namespace Agenda

variable {a a' : Agenda Event Handler} {i j : InterpId} {id id' : String} {token : AfterToken}

theorem waits_of_slots_eq (h : a'.slots = a.slots) : a'.Waits i id token ↔ a.Waits i id token := by
  simp only [slots, Prod.mk.injEq] at h
  cases token with
  | timer token => simp only [Waits, h.1]
  | idle token => simp only [Waits, h.2.2.1]

theorem Sound.dated (ha : a.Sound) : a.Dated :=
  fun t ht => (ha.get?_deadlines t.token t.deadline).2 ⟨t, ht, rfl, rfl⟩

/-- At one place there is one script. -/
theorem Sound.waits_inj (ha : a.Sound) (h : a.Waits i id token) (h' : a.Waits j id' token) :
    i = j ∧ id = id' := by
  cases token with
  | timer token =>
    obtain ⟨t, ht, htoken, hscript⟩ := h
    obtain ⟨t', ht', htoken', hscript'⟩ := h'
    rw [ha.timer_eq ht ht' (htoken.trans htoken'.symm), hscript'] at hscript
    cases hscript
    exact ⟨rfl, rfl⟩
  | idle token =>
    obtain ⟨entry, hentry, htoken, hscript⟩ := h
    obtain ⟨entry', hentry', htoken', hscript'⟩ := h'
    rw [ha.idle_eq hentry hentry' (htoken.trans htoken'.symm), hscript'] at hscript
    cases hscript
    exact ⟨rfl, rfl⟩

theorem Sound.lt_of_waits {token : Token} (ha : a.Sound) (h : a.Waits i id (.timer token)) :
    token < a.nextToken := by
  obtain ⟨t, ht, rfl, -⟩ := h
  exact ha.timer_lt ht

theorem waits_addTimer (a : Agenda Event Handler) (deadline : Time) (handler : Handler) :
    (a.addTimer deadline handler).2.Waits i id token ↔
      a.Waits i id token ∨ token = .timer a.nextToken ∧ handler.script? = some (i, id) := by
  cases token with
  | timer token =>
    have hmem (t : Timer Handler) :
        t ∈ (a.addTimer deadline handler).2.timers ↔ t = ⟨deadline, a.nextToken, handler⟩ ∨ t ∈ a.timers :=
      mem_insertTimer
    simp only [Waits, hmem, AfterToken.timer.injEq, or_and_right, exists_or, exists_eq_left,
      or_comm, eq_comm]
  | idle token => exact (or_iff_left fun h => nomatch h.1).symm

theorem waits_addIdle (a : Agenda Event Handler) (handler : Handler) :
    (a.addIdle handler).2.Waits i id token ↔
      a.Waits i id token ∨ token = .idle a.nextToken ∧ handler.script? = some (i, id) := by
  cases token with
  | timer token => exact (or_iff_left fun h => nomatch h.1).symm
  | idle token =>
    simp only [Waits, addIdle, List.mem_append, List.mem_singleton, AfterToken.idle.injEq,
      or_and_right, exists_or, exists_eq_left, eq_comm]

theorem Drops.waits {tokens : Set AfterToken} (h : Drops tokens a a') :
    a'.Waits i id token ↔ a.Waits i id token ∧ token ∉ tokens := by
  cases token with
  | timer token =>
    constructor
    · rintro ⟨t, ht, rfl, hscript⟩
      obtain ⟨hwas, hkept⟩ := (h.mem_timers t).1 ht
      exact ⟨⟨t, hwas, rfl, hscript⟩, hkept⟩
    · rintro ⟨⟨t, ht, rfl, hscript⟩, hkept⟩
      exact ⟨t, (h.mem_timers t).2 ⟨ht, hkept⟩, rfl, hscript⟩
  | idle token =>
    constructor
    · rintro ⟨entry, hentry, rfl, hscript⟩
      obtain ⟨hwas, hkept⟩ := (h.mem_idle entry).1 hentry
      exact ⟨⟨entry, hwas, rfl, hscript⟩, hkept⟩
    · rintro ⟨⟨entry, hentry, rfl, hscript⟩, hkept⟩
      exact ⟨entry, (h.mem_idle entry).2 ⟨hentry, hkept⟩, rfl, hscript⟩

/-- Work that is taken off is all that goes. If it is a script, there was one place where this
waited. -/
theorem Sound.exists_taken (ha : a.Sound) {flags : EventFlags} {now : Time}
    {work : Work Event Handler} (hnext : a.next? flags now = some (work, a')) :
    ∃ taken : Set AfterToken,
      (∀ token ∈ taken, ∀ i id, a.Waits i id token ↔ work.script? = some (i, id)) ∧
      (work.script? = none ∨ taken.Nonempty) ∧
      ∀ i id token, a'.Waits i id token ↔ a.Waits i id token ∧ token ∉ taken := by
  rcases next?_cases hnext with hpop | hpop | hpop
  · obtain ⟨event, rest, -, rfl, rfl⟩ := popEvent?_eq_some hpop
    refine ⟨∅, nofun, .inl rfl, fun i id token => ?_⟩
    exact (waits_of_slots_eq rfl).trans (and_iff_left (Set.notMem_empty token)).symm
  · obtain ⟨t, rest, htimers, -, rfl, rfl⟩ := popTimer?_eq_some hpop
    have hfirst : t ∈ a.timers := htimers ▸ List.mem_cons_self
    have hcancel := drops_cancelTimer ha.dated t.token
    rw [ha.cancelTimer_eq, ← ha.timers_tail htimers] at hcancel
    refine ⟨{.timer t.token}, ?_, .inr (Set.singleton_nonempty _),
      fun i id token => Drops.waits (hcancel.of_slots_eq (by rfl) (by rfl))⟩
    rintro token rfl i id
    constructor
    · rintro ⟨t', ht', htoken, hscript⟩
      rwa [ha.timer_eq ht' hfirst htoken] at hscript
    · exact fun hscript => ⟨t, hfirst, rfl, hscript⟩
  · obtain ⟨token, handler, rest, hidle, rfl, rfl⟩ := popIdle?_eq_some hpop
    have hfirst : (token, handler) ∈ a.idle := hidle ▸ List.mem_cons_self
    have hcancel := drops_cancelIdle ha.dated token
    rw [Agenda.cancelIdle, ← ha.idle_tail hidle] at hcancel
    refine ⟨{.idle token}, ?_, .inr (Set.singleton_nonempty _),
      fun i id token => Drops.waits (hcancel.of_slots_eq (by rfl) (by rfl))⟩
    rintro token rfl i id
    constructor
    · rintro ⟨entry, hentry, htoken, hscript⟩
      rwa [ha.idle_eq hentry hfirst htoken] at hscript
    · exact fun hscript => ⟨_, hfirst, rfl, hscript⟩

end Agenda

/-! ### What an interpreter has listed -/

/-- List a script under the next id. -/
def Interpreter.noteAfter (token : AfterToken) (r : Interpreter) : Interpreter :=
  { r with
    nextAfter := r.nextAfter + 1
    afters := r.afters.insert s!"after#{r.nextAfter}" token }

/-- An interpreter lists scripts by ids that it gave them in order. One that was deleted lists none and
has no children. -/
structure Interpreter.Lists (r : Interpreter) : Prop where
  keys : r.afters.keys.Nodup
  named : ∀ id ∈ r.afters.keys, ∃ n < r.nextAfter, id = s!"after#{n}"
  gone : r.deleted = true → r.afters = .empty ∧ r.children = .empty

namespace Interpreter.Lists

variable {r r' : Interpreter}

theorem of_empty (hafters : r.afters = .empty) (hgone : r.deleted = true → r.children = .empty) :
    r.Lists := by
  refine ⟨?_, ?_, fun h => ⟨hafters, hgone h⟩⟩ <;> rw [hafters]
  · exact List.nodup_nil
  · exact List.forall_mem_nil _

theorem of_timetable_eq (h : r.Lists) (htimetable : r'.timetable = r.timetable)
    (hchildren : r'.deleted = true → r'.children = r.children) : r'.Lists := by
  simp only [timetable, Prod.mk.injEq] at htimetable
  obtain ⟨hdeleted, hafters, hnext⟩ := htimetable
  refine ⟨?_, ?_, fun hgone => ?_⟩
  · rw [hafters]
    exact h.keys
  · rw [hafters, hnext]
    exact h.named
  · rw [hafters, hchildren hgone]
    exact h.gone (hdeleted ▸ hgone)

/-- The next script gets an id that no script has that is listed. -/
theorem not_mem_keys (h : r.Lists) : s!"after#{r.nextAfter}" ∉ r.afters.keys := by
  intro hmem
  obtain ⟨n, hlt, heq⟩ := h.named _ hmem
  exact Nat.ne_of_gt hlt (Number.numbered_inj heq)

theorem noteAfter (h : r.Lists) (hlive : r.deleted = false) (token : AfterToken) :
    (r.noteAfter token).Lists := by
  have hkeys : (r.noteAfter token).afters.keys = r.afters.keys ++ [s!"after#{r.nextAfter}"] :=
    Table.keys_insert_of_not_mem h.not_mem_keys token
  refine ⟨?_, fun id hmem => ?_, fun hgone => ?_⟩
  · rw [hkeys, (List.perm_append_singleton _ _).nodup_iff]
    exact List.nodup_cons.2 ⟨h.not_mem_keys, h.keys⟩
  · rw [hkeys, List.mem_append, List.mem_singleton] at hmem
    rcases hmem with hold | rfl
    · obtain ⟨n, hlt, hid⟩ := h.named id hold
      exact ⟨n, Nat.lt_succ_of_lt hlt, hid⟩
    · exact ⟨_, Nat.lt_succ_self _, rfl⟩
  · cases hlive.symm.trans hgone

theorem erase (h : r.Lists) (id : String) : Lists { r with afters := r.afters.erase id } := by
  have hsub : (r.afters.erase id).entries.Sublist r.afters.entries := List.filter_sublist
  refine ⟨h.keys.sublist (hsub.map _), fun id' hmem => h.named id' ((hsub.map _).subset hmem),
    fun hgone => ⟨?_, (h.gone hgone).2⟩⟩
  have hnone : r.afters = .empty := (h.gone hgone).1
  rw [hnone]
  rfl

end Interpreter.Lists

namespace World

variable {w w' : World} {i j : InterpId} {id id' : String} {token : AfterToken}

/-- Whatever the thread does, its agenda and the lists of its interpreters are in step. -/
structure Booked (w : World) : Prop where
  here : w.isRegistered w.current = true
  sound : w.agenda.Sound
  waits : ∀ i id token, w.agenda.Waits i id token ↔ (w.interp i).afters.get? id = some token
  keys : ∀ i, (w.interp i).afters.keys.Nodup
  /-- Ids are numbered in the order in which they are given. -/
  named : ∀ i, ∀ id ∈ (w.interp i).afters.keys, ∃ n < (w.interp i).nextAfter, id = s!"after#{n}"
  gone : ∀ i, (w.interp i).deleted = true → (w.interp i).afters = .empty
  /-- The timer of a loop is no script. -/
  loops : ∀ l token, w.keepalive? l = some token →
    token < w.agenda.nextToken ∧ ∀ i id, ¬w.agenda.Waits i id (.timer token)
  childless : w.Childless
  numbered : w.Numbered

theorem isRegistered_of_scene_eq (h : w'.scene = w.scene) :
    w'.isRegistered w'.current = w.isRegistered w.current := by
  have heq (w : World) (t : ThreadId) : w.isRegistered t = (w.callbacksOf t).isSome := by
    rw [isRegistered, Table.contains, callbacksOf, Option.isSome_map]
  simp only [scene, Prod.mk.injEq] at h
  rw [heq, heq, h.2.1, h.2.2.2]

theorem interp_takeAfter (w : World) (i : InterpId) (id : String) (j : InterpId) :
    (w.takeAfter i id).2.interp j =
      if i = j then { w.interp j with afters := (w.interp j).afters.erase id } else w.interp j := by
  rw [takeAfter]
  by_cases hij : i = j
  · subst hij
    rw [if_pos rfl]
    cases hknown : w.interps.get? i with
    | some r => exact interp_modifyInterp_self (by rw [hknown]; rfl) _
    | none =>
      simp only [interp, Table.getD, get?_modifyInterp, hknown]
      rfl
  · rw [if_neg hij]
    exact interp_modifyInterp_of_ne hij _

theorem get?_afters_takeAfter (w : World) (i : InterpId) (id : String) (j : InterpId) (id' : String) :
    ((w.takeAfter i id).2.interp j).afters.get? id' =
      if i = j ∧ id = id' then none else (w.interp j).afters.get? id' := by
  rw [interp_takeAfter]
  by_cases hij : i = j
  · simp only [hij, if_true, true_and]
    exact Table.get?_erase ..
  · rw [if_neg hij, if_neg fun h => hij h.1]

/-- A script that is scheduled waits on the agenda, and its interpreter lists it. -/
theorem exists_scheduleAfter (w : World) (i : InterpId) (delay : Option Nat) (script : String) :
    ∃ token a, (w.scheduleAfter i delay script).2 =
        (w.setAgenda a).modifyInterp i (Interpreter.noteAfter token) ∧
      a.nextToken = w.agenda.nextToken + 1 ∧ (w.agenda.Sound → a.Sound) ∧
      (∀ n, token = .timer n → n = w.agenda.nextToken) ∧
      ∀ j id token', a.Waits j id token' ↔ w.agenda.Waits j id token' ∨
        token' = token ∧ i = j ∧ s!"after#{(w.interp i).nextAfter}" = id := by
  have hscript (j : InterpId) (id : String) :
      (Handler.after i s!"after#{(w.interp i).nextAfter}" script).script? = some (j, id) ↔
        i = j ∧ s!"after#{(w.interp i).nextAfter}" = id := by
    rw [Handler.script?, Option.some_inj, Prod.mk.injEq]
  have hnote (a : Agenda Event Handler) (token : AfterToken) :
      ((w.setAgenda a).modifyInterp i fun r =>
        { r with
          nextAfter := r.nextAfter + 1
          afters := r.afters.insert s!"after#{(w.interp i).nextAfter}" token }) =
        (w.setAgenda a).modifyInterp i (Interpreter.noteAfter token) := by
    refine modifyInterp_congr fun r hr => ?_
    have hr' : w.interps.get? i = some r := hr
    rw [interp_of_get? hr']
    rfl
  cases delay with
  | some ms =>
    refine ⟨.timer w.agenda.nextToken, (w.agenda.addTimer (w.clock + milliseconds ms) _).2, hnote _ _,
      rfl, fun hsound => hsound.addTimer _ _, ?_, fun j id token' => ?_⟩
    · exact fun n hn => (AfterToken.timer.inj hn).symm
    · rw [Agenda.waits_addTimer, hscript]
  | none =>
    refine ⟨.idle w.agenda.nextToken, (w.agenda.addIdle _).2, hnote _ _, rfl,
      fun hsound => hsound.addIdle _, nofun, fun j id token' => ?_⟩
    rw [Agenda.waits_addIdle, hscript]

namespace Booked

theorem lists (hw : w.Booked) (i : InterpId) : (w.interp i).Lists :=
  ⟨hw.keys i, hw.named i, fun hgone => ⟨hw.gone i hgone, hw.childless i hgone⟩⟩

theorem of_lists (hhere : w.isRegistered w.current = true) (hsound : w.agenda.Sound)
    (hwaits : ∀ i id token, w.agenda.Waits i id token ↔ (w.interp i).afters.get? id = some token)
    (hlists : ∀ i, (w.interp i).Lists)
    (hloops : ∀ l token, w.keepalive? l = some token →
      token < w.agenda.nextToken ∧ ∀ i id, ¬w.agenda.Waits i id (.timer token))
    (hnumbered : w.Numbered) : w.Booked where
  here := hhere
  sound := hsound
  waits := hwaits
  keys i := (hlists i).keys
  named i := (hlists i).named
  gone i hgone := ((hlists i).gone hgone).1
  loops := hloops
  childless i hgone := ((hlists i).gone hgone).2
  numbered := hnumbered

theorem pending_iff (hw : w.Booked) : w.IsPending i id ↔ id ∈ (w.interp i).afters.keys := by
  rw [IsPending, Table.mem_keys_iff, Option.isSome_iff_exists]
  exact exists_congr fun token => hw.waits i id token

/-- The agenda changes, but not the scripts on it. -/
theorem of_interpreters_eq (hw : w.Booked) (hscene : w'.scene = w.scene)
    (hinterps : w'.interpreters = w.interpreters) (hsound : w'.agenda.Sound)
    (hwaits : ∀ i id token, w'.agenda.Waits i id token ↔ w.agenda.Waits i id token)
    (hloops : ∀ l token, w'.keepalive? l = some token →
      token < w'.agenda.nextToken ∧ ∀ i id, ¬w.agenda.Waits i id (.timer token)) : w'.Booked := by
  have hinterp := interp_eq_of_interpreters_eq hinterps
  obtain ⟨htable, hnext⟩ := Prod.mk.inj hinterps
  refine .of_lists ?_ hsound (fun i id token => ?_) (fun i => ?_) (fun l token hkeepalive => ?_)
    fun i => ?_
  · rw [isRegistered_of_scene_eq hscene, hw.here]
  · rw [hwaits, hinterp, hw.waits]
  · rw [hinterp]
    exact hw.lists i
  · obtain ⟨hlt, hno⟩ := hloops l token hkeepalive
    exact ⟨hlt, fun i id => (hwaits i id _).not.2 (hno i id)⟩
  · rw [htable, hnext]
    exact hw.numbered i

theorem pass (hw : w.Booked) (h : w.Passes w') : w'.Booked := by
  have hafters (i : InterpId) : (w'.interp i).afters = (w.interp i).afters :=
    congrArg (·.2.1) (h.timetable i)
  have hnext : w'.agenda.nextToken = w.agenda.nextToken := congrArg (·.2.2.2) h.agenda
  refine .of_lists ?_ (hw.sound.of_slots_eq h.agenda) (fun i id token => ?_)
    (fun i => (hw.lists i).of_timetable_eq (h.timetable i) (h.children i))
    (fun l token hkeepalive => ?_) fun i => ?_
  · rw [h.current, h.registered, hw.here]
  · rw [Agenda.waits_of_slots_eq h.agenda, hafters, hw.waits]
  · obtain ⟨hlt, hno⟩ := hw.loops l token (h.keepalive l token hkeepalive)
    exact ⟨hnext ▸ hlt, fun i id => (Agenda.waits_of_slots_eq h.agenda).not.2 (hno i id)⟩
  · rw [h.known i, h.nextInterp]
    exact hw.numbered i

/-! ### Other work -/

theorem addTimer (hw : w.Booked) (deadline : Time) {handler : Handler}
    (hhandler : handler.script? = none) :
    (w.setAgenda (w.agenda.addTimer deadline handler).2).Booked := by
  have hagenda := agenda_setAgenda hw.here (w.agenda.addTimer deadline handler).2
  refine hw.of_interpreters_eq (scene_setAgenda w _) rfl ?_ (fun i id token => ?_) fun l token hl => ?_
  · rw [hagenda]
    exact hw.sound.addTimer deadline handler
  · rw [hagenda, Agenda.waits_addTimer, hhandler]
    exact or_iff_left nofun
  · rw [hagenda]
    exact (hw.loops l token hl).imp_left Nat.lt_succ_of_lt

theorem addIdle (hw : w.Booked) {handler : Handler} (hhandler : handler.script? = none) :
    (w.setAgenda (w.agenda.addIdle handler).2).Booked := by
  have hagenda := agenda_setAgenda hw.here (w.agenda.addIdle handler).2
  refine hw.of_interpreters_eq (scene_setAgenda w _) rfl ?_ (fun i id token => ?_) fun l token hl => ?_
  · rw [hagenda]
    exact hw.sound.addIdle handler
  · rw [hagenda, Agenda.waits_addIdle, hhandler]
    exact or_iff_left nofun
  · rw [hagenda]
    exact (hw.loops l token hl).imp_left Nat.lt_succ_of_lt

theorem drop (hw : w.Booked) (htoken : ∀ i id, ¬w.agenda.Waits i id token) :
    (w.cancelAfter token).Booked := by
  have hdrops := drops_cancelAfter hw.sound.dated token
  have hwithdraws := withdraws_cancelAfter w token
  refine hw.of_interpreters_eq (scene_cancelAfter w token) (interpreters_cancelAfter w token)
    (hwithdraws.sound hw.sound) (fun i id token' => ?_) fun l token' hl => ?_
  · refine hdrops.waits.trans (and_iff_left_of_imp fun hwaits hmem => ?_)
    cases Set.mem_singleton_iff.1 hmem
    exact htoken i id hwaits
  · rw [hwithdraws.nextToken]
    rw [keepalive?, hwithdraws.loops] at hl
    exact hw.loops l token' hl

theorem modifyLoop (hw : w.Booked) {l : LoopId} {f : Loop → Loop}
    (hf : ∀ loop token, (f loop).token = some token →
      token < w.agenda.nextToken ∧ ∀ i id, ¬w.agenda.Waits i id (.timer token)) :
    (w.modifyLoop l f).Booked := by
  refine hw.of_interpreters_eq rfl rfl hw.sound (fun i id token => .rfl) fun k token hk => ?_
  have hget : (w.modifyLoop l f).loops.get? k = if l = k then (w.loops.get? k).map f else w.loops.get? k :=
    Table.get?_modify ..
  rw [keepalive?, hget] at hk
  split at hk
  · obtain ⟨loop, hloop, htoken⟩ := Option.bind_eq_some_iff.1 hk
    obtain ⟨was, -, rfl⟩ := Option.map_eq_some_iff.1 hloop
    exact hf was token htoken
  · exact hw.loops k token hk

theorem armKeepalive (hw : w.Booked) (l : LoopId) : (w.armKeepalive l).Booked := by
  rcases armKeepalive_cases w l with hforgets | ⟨_, deadline, -, -, hadds⟩
  · rw [hforgets]
    exact hw.modifyLoop fun _ _ htoken => by cases htoken
  · rw [hadds]
    refine (hw.addTimer deadline rfl).modifyLoop fun loop token htoken => ?_
    cases htoken
    rw [agenda_setAgenda hw.here]
    refine ⟨Nat.lt_succ_self _, fun i id hwaits => ?_⟩
    rcases (Agenda.waits_addTimer ..).1 hwaits with hwas | ⟨-, hscript⟩
    · exact Nat.lt_irrefl _ (hw.sound.lt_of_waits hwas)
    · cases hscript

theorem stopKeepalive (hw : w.Booked) (l : LoopId) : (w.stopKeepalive l).Booked := by
  have hstopped : (w.modifyLoop l fun loop => { loop with active := false, token := none }).Booked :=
    hw.modifyLoop fun _ _ htoken => by cases htoken
  rcases stopKeepalive_cases w l with hforgets | ⟨loop, token, hloop, htoken, hcancels⟩
  · rwa [hforgets]
  · have hkeepalive : w.keepalive? l = some token := by rw [keepalive?, hloop, Option.bind_some, htoken]
    rw [hcancels]
    exact hstopped.drop (hw.loops l token hkeepalive).2

theorem serve (hw : w.Booked) {flags : EventFlags} {work : Agenda.Work Event Handler}
    {a : Agenda Event Handler} (hnext : w.agenda.next? flags w.clock = some (work, a))
    (hwork : work.script? = none) : (w.takeOff a).Booked := by
  have hagenda : (w.takeOff a).agenda = a := agenda_setAgenda hw.here a
  obtain ⟨taken, htaken, -, hwaits⟩ := hw.sound.exists_taken hnext
  refine hw.of_interpreters_eq (scene_setAgenda w a) rfl ?_ (fun i id token => ?_) fun l token hl => ?_
  · rw [hagenda]
    exact hw.sound.next? hnext
  · rw [hagenda, hwaits]
    refine and_iff_left_of_imp fun hwas hmem => ?_
    have hscript := (htaken token hmem i id).1 hwas
    exact Option.some_ne_none _ (hscript.symm.trans hwork)
  · rw [hagenda, Agenda.nextToken_next? hnext]
    exact hw.loops l token hl

/-! ### Scripts -/

/-- An interpreter forgets a script that does not wait any more. -/
theorem forget (hw : w.Booked) (hscene : w'.scene = w.scene)
    (hinterps : w'.interpreters = (w.takeAfter i id).2.interpreters) (hloops : w'.loops = w.loops)
    (hsound : w'.agenda.Sound) (hnext : w'.agenda.nextToken = w.agenda.nextToken)
    (hwaits : ∀ j id' token, w'.agenda.Waits j id' token ↔
      w.agenda.Waits j id' token ∧ ¬(i = j ∧ id = id')) : w'.Booked := by
  have hinterp := interp_eq_of_interpreters_eq hinterps
  obtain ⟨htable, hnextInterp⟩ := Prod.mk.inj hinterps
  refine .of_lists ?_ hsound (fun j id' token => ?_) (fun j => ?_) (fun l token hkeepalive => ?_)
    fun j => ?_
  · rw [isRegistered_of_scene_eq hscene, hw.here]
  · rw [hwaits, hw.waits, hinterp, get?_afters_takeAfter]
    split
    · next hsame => simp [hsame]
    · next hother => exact and_iff_left hother
  · rw [hinterp, interp_takeAfter]
    split
    · exact (hw.lists j).erase id
    · exact hw.lists j
  · rw [keepalive?, hloops] at hkeepalive
    obtain ⟨hlt, hno⟩ := hw.loops l token hkeepalive
    exact ⟨hnext ▸ hlt, fun j id' h => hno j id' ((hwaits j id' _).1 h).1⟩
  · rw [htable, hnextInterp]
    exact hw.numbered.modifyInterp _ j

theorem fire (hw : w.Booked) {flags : EventFlags} {work : Agenda.Work Event Handler}
    {a : Agenda Event Handler} (hnext : w.agenda.next? flags w.clock = some (work, a))
    (hwork : work.script? = some (i, id)) : ((w.takeOff a).takeAfter i id).2.Booked := by
  have hagenda : ((w.takeOff a).takeAfter i id).2.agenda = a := agenda_setAgenda hw.here a
  obtain ⟨taken, htaken, hsome, hwaits⟩ := hw.sound.exists_taken hnext
  refine hw.forget (scene_setAgenda w a) rfl rfl ?_ ?_ fun j id' token => ?_
  · rw [hagenda]
    exact hw.sound.next? hnext
  · rw [hagenda, Agenda.nextToken_next? hnext]
  · rw [hagenda, hwaits]
    refine and_congr_right fun hwas => not_congr ⟨fun hmem => ?_, ?_⟩
    · have hscript := (htaken token hmem j id').1 hwas
      rw [hwork] at hscript
      cases hscript
      exact ⟨rfl, rfl⟩
    · rintro ⟨rfl, rfl⟩
      obtain hnone | ⟨token₀, htoken₀⟩ := hsome
      · rw [hwork] at hnone
        cases hnone
      · have hthere := (htaken token₀ htoken₀ i id).2 hwork
        have hsame := ((hw.waits i id token).1 hwas).symm.trans ((hw.waits i id token₀).1 hthere)
        rwa [Option.some.inj hsame]

theorem cancel (hw : w.Booked) (i : InterpId) (id : String) : (w.unschedule i id).Booked := by
  rw [unschedule]
  cases htoken : (w.takeAfter i id).1 with
  | none =>
    refine hw.forget rfl rfl rfl hw.sound rfl fun j id' token => ?_
    refine (and_iff_left_of_imp fun hwas => ?_).symm
    rintro ⟨rfl, rfl⟩
    exact Option.some_ne_none _ (((hw.waits i id token).1 hwas).symm.trans htoken)
  | some token₀ =>
    have hdrops := drops_cancelAfter (w := (w.takeAfter i id).2) hw.sound.dated token₀
    have hwithdraws := withdraws_cancelAfter (w.takeAfter i id).2 token₀
    refine hw.forget ((scene_cancelAfter _ _).trans (scene_takeAfter w i id))
      (interpreters_cancelAfter _ _) hwithdraws.loops (hwithdraws.sound hw.sound)
      hwithdraws.nextToken fun j id' token => ?_
    refine hdrops.waits.trans (and_congr_right fun hwas => not_congr ?_)
    rw [Set.mem_singleton_iff]
    constructor
    · rintro rfl
      exact hw.sound.waits_inj ((hw.waits i id token).2 htoken) hwas
    · rintro ⟨rfl, rfl⟩
      exact Option.some.inj (((hw.waits i id token).1 hwas).symm.trans htoken)

theorem schedule (hw : w.Booked) (hlive : (w.interp i).deleted = false) (delay : Option Nat)
    (script : String) : (w.scheduleAfter i delay script).2.Booked := by
  have hscene := scene_scheduleAfter w i delay script
  have hfresh := (hw.lists i).not_mem_keys
  obtain ⟨token₀, a, heq, hnext, hsound, htimer, hwaits⟩ := exists_scheduleAfter w i delay script
  have hagenda : (w.scheduleAfter i delay script).2.agenda = a := by
    rw [heq]
    exact agenda_setAgenda hw.here a
  have hloops : (w.scheduleAfter i delay script).2.loops = w.loops := by
    rw [heq]
    rfl
  have hnumbered : (w.scheduleAfter i delay script).2.Numbered := by
    rw [heq]
    exact Numbered.modifyInterp (w := w.setAgenda a) hw.numbered _
  have hself : (w.scheduleAfter i delay script).2.interp i = (w.interp i).noteAfter token₀ := by
    rw [heq]
    exact interp_modifyInterp_of_live (w := w.setAgenda a) hlive _
  have hother {j : InterpId} (hij : i ≠ j) :
      (w.scheduleAfter i delay script).2.interp j = w.interp j := by
    rw [heq]
    exact interp_modifyInterp_of_ne hij _
  generalize (w.scheduleAfter i delay script).2 = w' at *
  refine .of_lists ?_ ?_ (fun j id' token => ?_) (fun j => ?_) (fun l token hkeepalive => ?_) hnumbered
  · rw [isRegistered_of_scene_eq hscene, hw.here]
  · rw [hagenda]
    exact hsound hw.sound
  · rw [hagenda, hwaits, hw.waits]
    by_cases hij : i = j
    · subst hij
      rw [hself, Interpreter.noteAfter, Table.get?_insert]
      split
      · next hid =>
        rw [← hid, Table.get?_eq_none_iff.2 hfresh]
        simp [eq_comm]
      · next hid => exact or_iff_left fun h => hid h.2.2
    · rw [hother hij]
      exact or_iff_left fun h => hij h.2.1
  · by_cases hij : i = j
    · subst hij
      rw [hself]
      exact (hw.lists i).noteAfter hlive token₀
    · rw [hother hij]
      exact hw.lists j
  · rw [keepalive?, hloops] at hkeepalive
    obtain ⟨hlt, hno⟩ := hw.loops l token hkeepalive
    rw [hagenda, hnext]
    refine ⟨Nat.lt_succ_of_lt hlt, fun j id' h => ?_⟩
    rcases (hwaits j id' _).1 h with hwas | ⟨hnew, -, -⟩
    · exact hno j id' hwas
    · exact Nat.ne_of_lt hlt (htimer token hnew.symm)

/-! ### Interpreters -/

theorem create (hw : w.Booked) (name : String) (safe : Bool) (parent : Option InterpId) :
    (w.newInterp name safe parent).2.Booked := by
  have hunknown := hw.numbered.unknown
  have hnone : ∀ id token, ¬w.agenda.Waits w.nextInterp id token := by
    intro id token hwaits
    have hlisted := (hw.waits _ _ _).1 hwaits
    rw [hunknown] at hlisted
    cases hlisted
  refine .of_lists hw.here hw.sound (fun i id token => ?_) (fun i => ?_) hw.loops hw.numbered.newInterp
  · rw [interp_newInterp]
    split
    · next hnew =>
      subst hnew
      exact iff_of_false (hnone id token) fun hlisted => by cases hlisted
    · exact hw.waits i id token
  · rw [interp_newInterp]
    split
    · exact .of_empty rfl fun _ => rfl
    · exact hw.lists i

theorem delete (hw : w.Booked) (i : InterpId) : (w.delete i).Booked := by
  obtain ⟨ran, hruns⟩ := Removal.exists_runs_delete w i
  have hstrips := hruns.strips hw.childless
  have hdrops := hruns.drops hw.childless hw.sound.dated
  have hwithdraws := hruns.withdraws
  have hempty {j : InterpId} (hgone : ((w.delete i).interp j).deleted = true) :
      ((w.delete i).interp j).afters = .empty := by
    cases hlive : (w.interp j).deleted with
    | true => rw [(hstrips j).of_gone hlive, hw.gone j hlive]
    | false => exact hstrips.afters_of_dies ⟨hlive, hgone⟩
  refine .of_lists ?_ (hwithdraws.sound hw.sound) (fun j id token => ?_) (fun j => ?_)
    (fun l token hkeepalive => ?_) fun j => ?_
  · rw [isRegistered_of_scene_eq (scene_delete w i), hw.here]
  · rw [hdrops.waits, hw.waits]
    cases hgone : ((w.delete i).interp j).deleted with
    | true =>
      rw [hempty hgone]
      refine iff_of_false (fun h => h.2 ?_) nofun
      cases hlive : (w.interp j).deleted with
      | true =>
        rw [hw.gone j hlive] at h
        exact absurd h.1 nofun
      | false => exact ⟨j, ⟨hlive, hgone⟩, Table.mem_values_of_get? h.1⟩
    | false =>
      rw [hstrips.afters hgone]
      refine and_iff_left_of_imp fun hlisted hmem => ?_
      obtain ⟨k, hdies, hvalue⟩ := hmem
      obtain ⟨⟨id', _⟩, hentry, rfl⟩ := List.mem_map.1 hvalue
      have hother := Table.get?_of_mem (hw.keys k) hentry
      obtain ⟨rfl, -⟩ := hw.sound.waits_inj ((hw.waits _ _ _).2 hother) ((hw.waits _ _ _).2 hlisted)
      exact absurd (hdies.2.symm.trans hgone) nofun
  · cases hgone : ((w.delete i).interp j).deleted with
    | true => exact .of_empty (hempty hgone) (hstrips.childless hw.childless j)
    | false =>
      refine ⟨?_, ?_, fun hdead => ?_⟩
      · rw [hstrips.afters hgone]
        exact hw.keys j
      · rw [hstrips.afters hgone, hstrips.nextAfter]
        exact hw.named j
      · cases hgone.symm.trans hdead
  · rw [keepalive?, hwithdraws.loops] at hkeepalive
    obtain ⟨hlt, hno⟩ := hw.loops l token hkeepalive
    exact ⟨hwithdraws.nextToken ▸ hlt, fun j id h => hno j id (hdrops.waits.1 h).1⟩
  · rw [(prunes_delete w i).isSome_eq, (prunes_delete w i).next]
    exact hw.numbered j

end Booked

end World

end ScriptHost
