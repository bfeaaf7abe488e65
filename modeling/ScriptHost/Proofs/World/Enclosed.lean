import ScriptHost.Proofs.Run.Course
import ScriptHost.Proofs.World.DeleteHooks
import ScriptHost.Proofs.World.Scripts

/-!
# Interpreters that are closed off

Some interpreters are closed off when all that they know stays among them: their children, the
interpreters that their hooks delete or watch, and their scheduled scripts. What happens to one of
them then leaves alone every interpreter outside, and all that is pending for the thread apart from
the scripts of those inside. This holds of deletions with all their hooks, of making children and of
scheduling and cancelling scripts.
-/

namespace ScriptHost

variable {S : Set InterpId} {c : InterpId}

/-- Whether a handler runs a script of one of some interpreters. -/
def Handler.IsOf (S : Set InterpId) (handler : Handler) : Prop :=
  ∃ i ∈ S, ∃ id, handler.script? = some (i, id)

/-! ### Agendas -/

namespace Agenda

variable {a a' a'' : Agenda Event Handler} {token : Token} {handler : Handler}

open Classical in
/-- The timers that run no script of some interpreters. -/
noncomputable def otherTimers (S : Set InterpId) (a : Agenda Event Handler) : List (Timer Handler) :=
  a.timers.filter fun t => ¬t.handler.IsOf S

open Classical in
/-- The idle handlers that run no script of some interpreters. -/
noncomputable def otherIdle (S : Set InterpId) (a : Agenda Event Handler) : List (Token × Handler) :=
  a.idle.filter fun entry => ¬entry.2.IsOf S

/-- Nothing changes apart from the scripts of some interpreters. -/
structure Spares (S : Set InterpId) (a a' : Agenda Event Handler) : Prop where
  events : a'.events = a.events
  alerted : a'.alerted = a.alerted
  timers : a'.otherTimers S = a.otherTimers S
  deadlines : ∀ t ∈ a.otherTimers S, a'.deadlines.get? t.token = a.deadlines.get? t.token
  idle : a'.otherIdle S = a.otherIdle S

/-- All that is pending under a token are scripts of some interpreters. -/
def Owns (S : Set InterpId) (a : Agenda Event Handler) : AfterToken → Prop
  | .timer token => ∀ t ∈ a.timers, t.token = token → t.handler.IsOf S
  | .idle token => ∀ entry ∈ a.idle, entry.1 = token → entry.2.IsOf S

/-- The tokens of what is pending are below the next one. -/
structure Numbered (a : Agenda Event Handler) : Prop where
  timers : ∀ t ∈ a.timers, t.token < a.nextToken
  idle : ∀ entry ∈ a.idle, entry.1 < a.nextToken

/-- A change that spares what is not a script of some interpreters, and by which they neither lose a
token nor leave the next one behind. -/
structure Shifts (S : Set InterpId) (a a' : Agenda Event Handler) : Prop extends Spares S a a' where
  owns : ∀ token, a.Owns S token → a'.Owns S token
  numbered : a'.Numbered

theorem mem_otherTimers {t : Timer Handler} :
    t ∈ a.otherTimers S ↔ t ∈ a.timers ∧ ¬t.handler.IsOf S := by
  classical
  rw [otherTimers, List.mem_filter, decide_eq_true_iff]

theorem Spares.refl (a : Agenda Event Handler) : Spares S a a :=
  ⟨rfl, rfl, rfl, fun _ _ => rfl, rfl⟩

theorem Spares.trans (h : Spares S a a') (h' : Spares S a' a'') : Spares S a a'' where
  events := h'.events.trans h.events
  alerted := h'.alerted.trans h.alerted
  timers := h'.timers.trans h.timers
  deadlines t ht := (h'.deadlines t (h.timers ▸ ht)).trans (h.deadlines t ht)
  idle := h'.idle.trans h.idle

theorem Owns.mono {T : Set InterpId} {token : AfterToken} (h : a.Owns S token) (hsub : S ⊆ T) :
    a.Owns T token := by
  have hmono {handler : Handler} : handler.IsOf S → handler.IsOf T := by
    rintro ⟨i, hi, id, hid⟩
    exact ⟨i, hsub hi, id, hid⟩
  cases token with
  | timer token => exact fun t ht htoken => hmono (h t ht htoken)
  | idle token => exact fun entry hentry htoken => hmono (h entry hentry htoken)

theorem Shifts.refl (h : a.Numbered) : Shifts S a a :=
  ⟨.refl a, fun _ => id, h⟩

/-! #### Scheduling -/

theorem filter_insertTimer {keep : Timer Handler → Bool} {t : Timer Handler}
    (ht : keep t = false) (timers : List (Timer Handler)) :
    (insertTimer t timers).filter keep = timers.filter keep := by
  have hnew : ¬keep t = true := Bool.eq_false_iff.1 ht
  induction timers with
  | nil => exact List.filter_cons_of_neg hnew
  | cons first rest ih =>
    rw [insertTimer]
    split
    · rw [List.filter_cons, ih, List.filter_cons]
    · exact List.filter_cons_of_neg hnew

theorem shifts_addTimer (h : a.Numbered) (hhandler : handler.IsOf S) (deadline : Time) :
    Shifts S a (a.addTimer deadline handler).2 := by
  classical
  constructor
  · refine ⟨rfl, rfl, ?_, fun t ht => ?_, rfl⟩
    · exact filter_insertTimer (decide_eq_false (not_not_intro hhandler)) a.timers
    · have hlt := h.timers t (mem_otherTimers.1 ht).1
      exact (Table.get?_insert _ _ _ _).trans (if_neg (Nat.ne_of_gt hlt))
  · intro token hown
    cases token with
    | timer token =>
      intro t ht htoken
      rcases mem_insertTimer.1 ht with rfl | hold
      · exact hhandler
      · exact hown t hold htoken
    | idle token => exact hown
  · refine ⟨fun t ht => ?_, fun entry hentry => Nat.lt_succ_of_lt (h.idle entry hentry)⟩
    rcases mem_insertTimer.1 ht with rfl | hold
    · exact Nat.lt_succ_self _
    · exact Nat.lt_succ_of_lt (h.timers t hold)

theorem owns_addTimer (h : a.Numbered) (hhandler : handler.IsOf S) (deadline : Time) :
    (a.addTimer deadline handler).2.Owns S (.timer a.nextToken) := by
  intro t ht htoken
  rcases mem_insertTimer.1 ht with rfl | hold
  · exact hhandler
  · exact absurd htoken (Nat.ne_of_lt (h.timers t hold))

theorem shifts_addIdle (h : a.Numbered) (hhandler : handler.IsOf S) :
    Shifts S a (a.addIdle handler).2 := by
  classical
  constructor
  · refine ⟨rfl, rfl, rfl, fun _ _ => rfl, ?_⟩
    have hnew : [(a.nextToken, handler)].filter (fun entry => ¬entry.2.IsOf S) = [] :=
      List.filter_cons_of_neg (by simpa using hhandler)
    rw [otherIdle, addIdle, List.filter_append, hnew, List.append_nil, otherIdle]
  · intro token hown
    cases token with
    | timer token => exact hown
    | idle token =>
      intro entry hentry htoken
      rcases List.mem_append.1 hentry with hold | hnew
      · exact hown entry hold htoken
      · rw [List.mem_singleton.1 hnew]
        exact hhandler
  · refine ⟨fun t ht => Nat.lt_succ_of_lt (h.timers t ht), fun entry hentry => ?_⟩
    rcases List.mem_append.1 hentry with hold | hnew
    · exact Nat.lt_succ_of_lt (h.idle entry hold)
    · rw [List.mem_singleton.1 hnew]
      exact Nat.lt_succ_self _

theorem owns_addIdle (h : a.Numbered) (hhandler : handler.IsOf S) :
    (a.addIdle handler).2.Owns S (.idle a.nextToken) := by
  intro entry hentry htoken
  rcases List.mem_append.1 hentry with hold | hnew
  · exact absurd htoken (Nat.ne_of_lt (h.idle entry hold))
  · rw [List.mem_singleton.1 hnew]
    exact hhandler

/-! #### Cancelling -/

/-- What is dropped is among what is left out anyway. -/
theorem filter_filter_of_imp {α : Type} {keep drop : α → Bool} {as : List α}
    (h : ∀ a ∈ as, keep a = true → drop a = true) : (as.filter drop).filter keep = as.filter keep := by
  rw [List.filter_filter]
  refine List.filter_congr fun a ha => ?_
  cases hkeep : keep a with
  | false => rfl
  | true => rw [h a ha hkeep, Bool.true_and]

theorem shifts_cancelTimer (h : a.Numbered) (hown : a.Owns S (.timer token)) :
    Shifts S a (a.cancelTimer token).2 := by
  classical
  have hother {t : Timer Handler} (ht : t ∈ a.timers) (hout : ¬t.handler.IsOf S) :
      t.token ≠ token := fun htoken => hout (hown t ht htoken)
  rw [cancelTimer]
  cases a.deadlines.get? token with
  | none => exact .refl h
  | some deadline =>
    constructor
    · refine ⟨rfl, rfl, ?_, fun t ht => ?_, rfl⟩
      · refine filter_filter_of_imp fun t ht hout => ?_
        rw [decide_eq_true_iff] at hout ⊢
        exact fun hboth => hother ht hout hboth.2
      · obtain ⟨ht, hout⟩ := mem_otherTimers.1 ht
        exact (Table.get?_erase _ _ _).trans (if_neg (hother ht hout).symm)
    · intro token hown
      cases token with
      | timer token => exact fun t ht => hown t (List.mem_of_mem_filter ht)
      | idle token => exact hown
    · exact ⟨fun t ht => h.timers t (List.mem_of_mem_filter ht), h.idle⟩

theorem shifts_cancelIdle (h : a.Numbered) (hown : a.Owns S (.idle token)) :
    Shifts S a (a.cancelIdle token).2 := by
  classical
  constructor
  · refine ⟨rfl, rfl, rfl, fun _ _ => rfl, filter_filter_of_imp fun entry hentry hout => ?_⟩
    rw [decide_eq_true_iff] at hout ⊢
    exact fun htoken => hout (hown entry hentry htoken)
  · intro token hown
    cases token with
    | timer token => exact hown
    | idle token => exact fun entry hentry => hown entry (List.mem_of_mem_filter hentry)
  · exact ⟨h.timers, fun entry hentry => h.idle entry (List.mem_of_mem_filter hentry)⟩

end Agenda

/-! ### Interpreters -/

/-- The hook deletes and watches none but some interpreters, of which one is never deleted. -/
def DeleteHook.StaysIn (S : Set InterpId) (c : InterpId) : DeleteHook → Prop
  | .log _ => True
  | .untrack _ => True
  | .delete i => i ∈ S ∧ i ≠ c
  | .watch i hook => i ∈ S ∧ hook.StaysIn S c

theorem DeleteHook.StaysIn.mono {T : Set InterpId} {hook : DeleteHook} (h : hook.StaysIn S c)
    (hsub : S ⊆ T) : hook.StaysIn T c := by
  induction hook with
  | log label => trivial
  | untrack handle => trivial
  | delete i => exact ⟨hsub h.1, h.2⟩
  | watch i hook ih => exact ⟨hsub h.1, ih h.2⟩

/-- What an interpreter knows stays among some interpreters, of which one is never deleted. -/
structure Interpreter.Inside (S : Set InterpId) (c : InterpId) (a : Agenda Event Handler)
    (r : Interpreter) : Prop where
  children : ∀ name k, r.children.get? name = some k → k ∈ S ∧ k ≠ c
  hooks : ∀ hook ∈ r.deleteHooks, hook.StaysIn S c
  afters : ∀ token ∈ r.afters.values, a.Owns S token

namespace Interpreter

variable {a a' : Agenda Event Handler} {r r' : Interpreter}

theorem Inside.narrow (h : r.Inside S c a)
    (hchildren : ∀ name k, r'.children.get? name = some k → r.children.get? name = some k)
    (hhooks : r'.deleteHooks ⊆ r.deleteHooks) (hafters : r'.afters.values ⊆ r.afters.values) :
    r'.Inside S c a :=
  ⟨fun name k hk => h.children name k (hchildren name k hk), fun hook hmem => h.hooks hook (hhooks hmem),
    fun token hmem => h.afters token (hafters hmem)⟩

theorem Inside.shift (h : r.Inside S c a) (hshift : ∀ token, a.Owns S token → a'.Owns S token) :
    r.Inside S c a' :=
  ⟨h.children, h.hooks, fun token hmem => hshift token (h.afters token hmem)⟩

theorem Inside.mild {f : Interpreter → Interpreter} (h : r.Inside S c a) (hf : Mild f) :
    (f r).Inside S c a := by
  have hstation := hf.station r
  simp only [station, family, Prod.mk.injEq] at hstation
  obtain ⟨⟨-, -, -, hchildren⟩, hhooks⟩ := hstation
  refine h.narrow (fun name k hk => ?_) ?_ (hf.afters r)
  · rwa [hchildren] at hk
  · rw [hhooks]
    exact List.Subset.refl _

theorem inside_fresh (name : String) (safe : Bool) (parent : Option InterpId)
    (a : Agenda Event Handler) : (fresh name safe parent).Inside S c a := by
  refine ⟨fun name k hk => ?_, fun hook hmem => ?_, fun token hmem => ?_⟩
  · cases hk
  · cases hmem
  · cases hmem

end Interpreter

/-! ### Worlds -/

namespace World

variable {w u w' : World} {i : InterpId} {token : AfterToken}

/-- What some interpreters know stays among them. They are all that is below one of them, which is
never deleted with the others, and all that may still be made. -/
structure Sealed (S : Set InterpId) (c : InterpId) (w : World) : Prop where
  inside : ∀ i ∈ S, (w.interp i).Inside S c w.agenda
  parents : ∀ i ∈ S, i ≠ c → ∀ p, (w.interp i).parent = some p → p ∈ S
  unborn : ∀ i, w.nextInterp ≤ i → i ∈ S ∧ i ≠ c
  numbered : w.agenda.Numbered

/-- Nothing changes apart from some interpreters and their scripts on the agenda of the thread that is
running. -/
structure Spares (S : Set InterpId) (w w' : World) : Prop where
  current : w'.current = w.current
  interps : ∀ i, i ∉ S → w'.interp i = w.interp i
  threads : ∀ t, t ≠ w.current → w'.threads.get? t = w.threads.get? t
  agenda : w.agenda.Spares S w'.agenda

/-- A change that spares all but some interpreters, to which the change is closed off as well. -/
structure Stays (S : Set InterpId) (c : InterpId) (w w' : World) : Prop extends Spares S w w' where
  isSealed : w'.Sealed S c
  owns : ∀ token, w.agenda.Owns S token → w'.agenda.Owns S token

/-- A change that stays among some interpreters if these are closed off. -/
def Encloses (S : Set InterpId) (c : InterpId) (w w' : World) : Prop :=
  w.Sealed S c → w.Stays S c w'

theorem Spares.refl (w : World) : Spares S w w :=
  ⟨rfl, fun _ _ => rfl, fun _ _ => rfl, .refl _⟩

theorem Spares.trans (h : Spares S w u) (h' : Spares S u w') : Spares S w w' where
  current := h'.current.trans h.current
  interps i hi := (h'.interps i hi).trans (h.interps i hi)
  threads t ht := (h'.threads t (h.current ▸ ht)).trans (h.threads t ht)
  agenda := h.agenda.trans h'.agenda

theorem Encloses.refl (w : World) : Encloses S c w w :=
  fun hw => ⟨.refl w, hw, fun _ => id⟩

theorem Encloses.trans (h : Encloses S c w u) (h' : Encloses S c u w') : Encloses S c w w' := by
  intro hw
  have hfirst := h hw
  have hsecond := h' hfirst.isSealed
  exact ⟨hfirst.toSpares.trans hsecond.toSpares, hsecond.isSealed,
    fun token hown => hsecond.owns token (hfirst.owns token hown)⟩

theorem Encloses.foldl {α : Type} {g : World → α → World} (hg : ∀ w a, Encloses S c w (g w a))
    (as : List α) (w : World) : Encloses S c w (as.foldl g w) := by
  induction as generalizing w with
  | nil => exact .refl w
  | cons a as ih => exact (hg w a).trans (ih (g w a))

/-- What leaves interpreters and threads alone. -/
theorem Encloses.of_eq (hinterps : w'.interpreters = w.interpreters)
    (hthreading : w'.threading = w.threading) : Encloses S c w w' := by
  have hinterp := interp_eq_of_interpreters_eq hinterps
  have hagenda := agenda_eq_of_threading_eq hthreading
  simp only [interpreters, Prod.mk.injEq] at hinterps
  simp only [threading, Prod.mk.injEq] at hthreading
  refine fun hw => ⟨⟨hthreading.2.1, fun i _ => hinterp i, fun t _ => ?_, ?_⟩, ?_, ?_⟩
  · rw [hthreading.1]
  · rw [hagenda]
    exact .refl _
  · refine ⟨fun i hi => ?_, fun i hi hne p hp => ?_, fun i hi => ?_, ?_⟩
    · rw [hinterp, hagenda]
      exact hw.inside i hi
    · rw [hinterp] at hp
      exact hw.parents i hi hne p hp
    · rw [hinterps.2] at hi
      exact hw.unborn i hi
    · rw [hagenda]
      exact hw.numbered
  · rw [hagenda]
    exact fun _ => id

/-- A change of one of the interpreters. -/
theorem Encloses.modifyInterp {f : Interpreter → Interpreter} (hi : i ∈ S)
    (hparent : ∀ r, (f r).parent = r.parent)
    (hf : (w.interp i).Inside S c w.agenda → (f (w.interp i)).Inside S c w.agenda) :
    Encloses S c w (w.modifyInterp i f) := by
  have hparents := keeps_modifyInterp Interpreter.parent hparent w i
  refine fun hw => ⟨⟨rfl, fun j hj => ?_, fun _ _ => rfl, .refl _⟩, ?_, fun _ => id⟩
  · have hij : i ≠ j := fun hij => hj (hij ▸ hi)
    exact interp_modifyInterp_of_ne hij f
  · refine ⟨fun j hj => ?_, fun j hj hne p hp => ?_, hw.unborn, hw.numbered⟩
    · by_cases hij : i = j
      · subst hij
        cases hknown : w.interps.get? i with
        | some r =>
          rw [interp_modifyInterp_self (by rw [hknown]; rfl)]
          exact hf (hw.inside i hi)
        | none =>
          have hsame : (w.modifyInterp i f).interp i = w.interp i := by
            simp only [interp, Table.getD, get?_modifyInterp, hknown, Option.map_none, ite_self]
          rw [hsame]
          exact hw.inside i hi
      · rw [interp_modifyInterp_of_ne hij]
        exact hw.inside j hj
    · rw [hparents] at hp
      exact hw.parents j hj hne p hp

/-- A change of one of the interpreters by which it knows no more. -/
theorem Encloses.narrow {f : Interpreter → Interpreter} (hi : i ∈ S)
    (hparent : ∀ r, (f r).parent = r.parent)
    (hchildren : ∀ r name k, (f r).children.get? name = some k → r.children.get? name = some k)
    (hhooks : ∀ r, (f r).deleteHooks ⊆ r.deleteHooks)
    (hafters : ∀ r, (f r).afters.values ⊆ r.afters.values) :
    Encloses S c w (w.modifyInterp i f) :=
  .modifyInterp hi hparent fun h => h.narrow (hchildren _) (hhooks _) (hafters _)

theorem Encloses.mild {f : Interpreter → Interpreter} (hi : i ∈ S) (hf : Interpreter.Mild f) :
    Encloses S c w (w.modifyInterp i f) := by
  refine .modifyInterp hi (fun r => ?_) fun h => h.mild hf
  have hstation := hf.station r
  simp only [Interpreter.station, Interpreter.family, Prod.mk.injEq] at hstation
  exact hstation.1.1

/-! ### Scripts on the agenda -/

/-- A thread that is not there keeps an empty agenda. -/
theorem agenda_setAgenda_cases (w : World) (a : Agenda Event Handler) :
    (w.setAgenda a).agenda = a ∨ (w.setAgenda a).agenda = {} ∧ w.agenda = {} := by
  cases hthread : w.threads.get? w.current with
  | some thread => exact .inl (agenda_setAgenda (by rw [hthread]; rfl) a)
  | none =>
    have hagenda : w.agenda = {} := by rw [agenda, agendaOf, hthread]; rfl
    have hset : (w.setAgenda a).agenda = {} := by
      refine (agendaOf_modifyThread w w.current w.current _).trans ?_
      rw [if_pos rfl, hthread]
      rfl
    exact .inr ⟨hset, hagenda⟩

theorem Encloses.setAgenda {a : Agenda Event Handler} (h : w.agenda.Shifts S a) :
    Encloses S c w (w.setAgenda a) := by
  intro hw
  have hshift : w.agenda.Shifts S (w.setAgenda a).agenda := by
    rcases agenda_setAgenda_cases w a with hset | ⟨hset, hempty⟩
    · rwa [hset]
    · rw [hset, ← hempty]
      exact .refl hw.numbered
  refine ⟨⟨rfl, fun _ _ => rfl, fun t ht => ?_, hshift.toSpares⟩, ?_, hshift.owns⟩
  · exact (Table.get?_modify _ _ _ _).trans (if_neg ht.symm)
  · exact ⟨fun i hi => (hw.inside i hi).shift hshift.owns, hw.parents, hw.unborn, hshift.numbered⟩

theorem Encloses.cancelAfter (h : w.agenda.Owns S token) : Encloses S c w (w.cancelAfter token) := by
  intro hw
  cases token with
  | timer token => exact Encloses.setAgenda (Agenda.shifts_cancelTimer hw.numbered h) hw
  | idle token => exact Encloses.setAgenda (Agenda.shifts_cancelIdle hw.numbered h) hw

theorem Encloses.foldl_cancelAfter {tokens : List AfterToken}
    (h : ∀ token ∈ tokens, w.agenda.Owns S token) : Encloses S c w (tokens.foldl World.cancelAfter w) := by
  induction tokens generalizing w with
  | nil => exact .refl w
  | cons token tokens ih =>
    intro hw
    have hfirst : Encloses S c w (w.cancelAfter token) := .cancelAfter (h token List.mem_cons_self)
    refine hfirst.trans (ih fun other hother => ?_) hw
    exact (hfirst hw).owns other (h other (List.mem_cons_of_mem _ hother))

theorem Encloses.cancelAfters (hi : i ∈ S) : Encloses S c w (w.cancelAfters i) := by
  intro hw
  have hforget : Encloses S c w (w.modifyInterp i fun r => { r with afters := .empty }) := by
    refine .narrow hi (fun _ => ?_) (fun _ _ _ => id) (fun _ => ?_) fun _ => ?_
    · rfl
    · exact List.Subset.refl _
    · exact List.nil_subset _
  exact hforget.trans (.foldl_cancelAfter (hw.inside i hi).afters) hw

theorem Encloses.scheduleAfter (hi : i ∈ S) (delay : Option Nat) (script : String) :
    Encloses S c w (w.scheduleAfter i delay script).2 := by
  intro hw
  let id := s!"after#{(w.interp i).nextAfter}"
  have hhandler : (Handler.after i id script).IsOf S := ⟨i, hi, id, rfl⟩
  -- the agenda changes first, and then the interpreter learns of a token that is its own
  have hfile {a : Agenda Event Handler} {token : AfterToken} (hshift : w.agenda.Shifts S a)
      (hown : a.Owns S token) : Encloses S c w ((w.setAgenda a).modifyInterp i fun r =>
        { r with nextAfter := r.nextAfter + 1, afters := r.afters.insert id token }) := by
    have hnew : (w.setAgenda a).agenda.Owns S token := by
      rcases agenda_setAgenda_cases w a with hset | ⟨hset, -⟩
      · rwa [hset]
      · rw [hset]
        cases token with
        | timer token => exact fun t ht => absurd ht List.not_mem_nil
        | idle token => exact fun entry hentry => absurd hentry List.not_mem_nil
    refine (Encloses.setAgenda hshift).trans (.modifyInterp hi (fun _ => ?_) fun h => ?_)
    · rfl
    · refine ⟨h.children, h.hooks, fun other hother => ?_⟩
      rcases Table.mem_values_insert hother with rfl | hold
      · exact hnew
      · exact h.afters other hold
  cases delay with
  | some ms =>
    exact hfile (Agenda.shifts_addTimer hw.numbered hhandler _)
      (Agenda.owns_addTimer hw.numbered hhandler _) hw
  | none =>
    exact hfile (Agenda.shifts_addIdle hw.numbered hhandler)
      (Agenda.owns_addIdle hw.numbered hhandler) hw

theorem Encloses.unschedule (hi : i ∈ S) (id : String) : Encloses S c w (w.unschedule i id) := by
  intro hw
  have htake : Encloses S c w (w.takeAfter i id).2 := by
    refine .narrow hi (fun _ => ?_) (fun _ _ _ hk => hk) (fun _ => List.Subset.refl _) fun _ => ?_
    · rfl
    · exact List.map_subset _ List.filter_sublist.subset
  rw [World.unschedule]
  cases htoken : (w.takeAfter i id).1 with
  | none => exact htake hw
  | some token =>
    have hown := (hw.inside i hi).afters token (Table.mem_values_of_get? htoken)
    exact htake.trans (.cancelAfter hown) hw

/-! ### Deletions -/

theorem Encloses.detach {r : Interpreter} (hr : ∀ p, r.parent = some p → p ∈ S) :
    Encloses S c w (w.detach r) := by
  rw [World.detach]
  cases hparent : r.parent with
  | none => exact .refl w
  | some p =>
    refine .narrow (hr p hparent) (fun _ => ?_) (fun r' name k hk => ?_) (fun _ => ?_) fun _ => ?_
    · rfl
    · rw [Table.get?_erase] at hk
      split at hk
      · cases hk
      · exact hk
    · exact List.Subset.refl _
    · exact List.Subset.refl _

end World

/-- A part of a deletion deletes and watches none but some interpreters, of which one is never
deleted. -/
def Removal.StaysIn (S : Set InterpId) (c : InterpId) : Removal → Prop
  | .tree i => i ∈ S ∧ i ≠ c
  | .trees is => ∀ i ∈ is, i ∈ S ∧ i ≠ c
  | .hook _ h _ => h.StaysIn S c
  | .hooks _ hs => ∀ h ∈ hs, h.StaysIn S c

open World in
/-- A deletion stays among interpreters that are closed off. -/
theorem Removal.Runs.encloses {job : Removal} {ran : List HookRun} {w w' : World}
    (h : Runs job w ran w') (hjob : job.StaysIn S c) : Encloses S c w w' := by
  induction h with
  | gone | noTrees | noHooks => exact .refl _
  | @tree i w u v ran ran' hlive hchildren hhooks ih ih' =>
    obtain ⟨hi, hne⟩ := hjob
    intro hw
    have hcondemn : Encloses S c w (w.modifyInterp i Interpreter.condemn) := by
      refine .narrow hi (fun _ => ?_) (fun _ _ _ hk => ?_) (fun _ => ?_) fun _ => ?_
      · rfl
      · cases hk
      · exact List.Subset.refl _
      · exact List.Subset.refl _
    have hbelow : (Removal.trees (w.interp i).childIds).StaysIn S c := by
      intro k hk
      obtain ⟨name, hname⟩ := Interpreter.mem_childIds.1 hk
      exact (hw.inside i hi).children name k hname
    have hsecede : Encloses S c w (u.secede (w.interp i) i) :=
      (hcondemn.trans (ih hbelow)).trans ((Encloses.detach (hw.parents i hi hne)).trans (.cancelAfters hi))
    have hdisarm : Encloses S c w ((u.secede (w.interp i) i).disarm i) := by
      refine hsecede.trans (.narrow hi (fun _ => ?_) (fun _ _ _ => id) (fun _ => ?_) fun _ => ?_)
      · rfl
      · exact List.nil_subset _
      · exact List.Subset.refl _
    have hwipe : Encloses S c v (v.modifyInterp i Interpreter.wipe) := by
      refine .narrow hi (fun _ => ?_) (fun _ _ _ => id) (fun _ => ?_) fun _ => ?_
      · rfl
      · exact List.Subset.refl _
      · exact List.Subset.refl _
    have hown := ((hsecede hw).isSealed.inside i hi).hooks
    exact (hdisarm.trans (ih' hown)).trans hwipe hw
  | @trees i is _ _ _ _ _ _ _ ih ih' =>
    have hall : ∀ k ∈ i :: is, k ∈ S ∧ k ≠ c := hjob
    exact (ih (hall i List.mem_cons_self)).trans
      (ih' fun k hk => hall k (List.mem_cons_of_mem _ hk))
  | log => exact .of_eq rfl rfl
  | untrack => exact .of_eq (interpreters_untrack _ _) (threading_untrack _ _)
  | delete _ ih => exact ih hjob
  | @install i j hook late w hlive =>
    refine .modifyInterp hjob.1 (fun _ => ?_) fun h => ⟨h.children, fun other hother => ?_, h.afters⟩
    · rfl
    · rcases List.mem_append.1 hother with hold | hnew
      · exact h.hooks other hold
      · rw [List.mem_singleton.1 hnew]
        exact hjob.2
  | late _ _ ih => exact ih hjob.2
  | @hooks _ first rest _ _ _ _ _ _ _ ih ih' =>
    have hall : ∀ hook ∈ first :: rest, DeleteHook.StaysIn S c hook := hjob
    exact (ih (hall first List.mem_cons_self)).trans
      (ih' fun hook hhook => hall hook (List.mem_cons_of_mem _ hhook))

namespace World

variable {w w' : World} {i p : InterpId}

theorem Encloses.delete (hi : i ∈ S) (hne : i ≠ c) : Encloses S c w (w.delete i) := by
  obtain ⟨ran, hruns⟩ := Removal.exists_runs_delete w i
  exact hruns.encloses ⟨hi, hne⟩

/-! ### Making children -/

theorem Encloses.newInterp (hp : p ∈ S) (name : String) (safe : Bool) :
    Encloses S c w (w.newInterp name safe (some p)).2 := by
  intro hw
  refine ⟨⟨rfl, fun i hi => ?_, fun _ _ => rfl, .refl _⟩, ?_, fun _ => id⟩
  · rw [interp_newInterp, if_neg]
    rintro rfl
    exact hi (hw.unborn _ (Nat.le_refl _)).1
  · refine ⟨fun i hi => ?_, fun i hi hne q hq => ?_, fun i hi => ?_, hw.numbered⟩
    · rw [interp_newInterp]
      split
      · exact Interpreter.inside_fresh _ _ _ _
      · exact hw.inside i hi
    · rw [interp_newInterp] at hq
      split at hq
      · cases hq
        exact hp
      · exact hw.parents i hi hne q hq
    · exact hw.unborn i (Nat.le_of_succ_le hi)

/-- What is untracked when an interpreter is deleted. -/
theorem Encloses.callWhenDeleted (hi : i ∈ S) (h : HandleId) :
    Encloses S c w (w.callWhenDeleted i (.untrack h)) := by
  rw [World.callWhenDeleted, runDeleteHook]
  split
  · exact .of_eq (interpreters_untrack w h) (threading_untrack w h)
  · refine .modifyInterp hi (fun _ => ?_) fun h => ⟨h.children, fun other hother => ?_, h.afters⟩
    · rfl
    · rcases List.mem_append.1 hother with hold | hnew
      · exact h.hooks other hold
      · rw [List.mem_singleton.1 hnew]
        trivial

theorem Encloses.adopt (hi : i ∈ S) (config : HandleConfig) :
    Encloses S c w (w.adopt i config).2 := by
  have hadd : Encloses S c w (w.addHandle i config).2 := .of_eq rfl rfl
  have hcommand (w : World) (name : String) {command : Command} (h : ∀ b, command ≠ .builtin b) :
      Encloses S c w (w.defineCommand i name command) := .mild hi (.define name h)
  have hcallback (b : Builtin) : Command.callback w.hub.nextHandle ≠ .builtin b :=
    fun h => by cases h
  have hevaluator (b : Builtin) : Command.evaluator w.hub.nextHandle ≠ .builtin b :=
    fun h => by cases h
  have hcommands := (hadd.trans (hcommand _ "host_callback" hcallback)).trans
    (hcommand _ "host_eval" hevaluator)
  have hhook := hcommands.trans (.mild hi (.onChild (.adopt config)))
  have htrack (u : World) (h : HandleId) : Encloses S c u (u.track h) := .of_eq rfl rfl
  exact (hhook.trans (.callWhenDeleted hi _)).trans (htrack _ _)

theorem Encloses.runChildHook (hi : i ∈ S) (hook : ChildHook) :
    Encloses S c w (World.runChildHook i w hook) := by
  cases hook with
  | log label => exact .of_eq rfl rfl
  | adopt config =>
    have hpin (u : World) (h : HandleId) :
        Encloses S c u (u.modifyHandle h fun handle => { handle with pinned := true }) :=
      .of_eq rfl rfl
    exact (Encloses.adopt hi _).trans (hpin _ _)

theorem Encloses.createChild (hp : p ∈ S) (name : String) (safe : Bool) :
    Encloses S c w (w.createChild p name safe).2 := by
  rw [World.createChild]
  dsimp only
  split
  · exact .refl w
  · split
    · exact .refl w
    · split
      · exact .refl w
      · intro hw
        obtain ⟨hborn, hne⟩ := hw.unborn _ (Nat.le_refl _)
        have hlist : Encloses S c (w.newInterp name (safe || (w.interp p).safe) (some p)).2
            (w.bear p name (safe || (w.interp p).safe)) := by
          refine .modifyInterp hp (fun _ => ?_) fun h => ⟨fun label k hk => ?_, h.hooks, h.afters⟩
          · rfl
          · rw [Table.get?_insert] at hk
            split at hk
            · cases hk
              exact ⟨hborn, hne⟩
            · exact h.children label k hk
        exact ((Encloses.newInterp hp name _).trans hlist).trans
          (.foldl (fun _ hook => .runChildHook hborn hook) _ _) hw

end World

/-! ### What is below an interpreter -/

namespace World

variable {w : World} {i : InterpId}

/-- An interpreter with all that is below it, and what may still be made. -/
def offspring (w : World) (c : InterpId) : Set InterpId :=
  {i | w.Beneath c i ∨ w.nextInterp ≤ i}

/-- An interpreter and all that is below it keep to themselves: what is pending under the tokens of
their scheduled scripts are scripts of theirs, and their hooks delete only what is below and watch only
them. -/
structure Secluded (c : InterpId) (w : World) : Prop where
  scripts : ∀ i, w.Beneath c i → ∀ token ∈ (w.interp i).afters.values,
    w.agenda.Owns {j | w.Beneath c j} token
  hooks : ∀ i, w.Beneath c i → ∀ hook ∈ (w.interp i).deleteHooks,
    hook.StaysIn {j | w.Beneath c j} c
  numbered : w.agenda.Numbered

theorem Numbered.interp_of_le (hw : w.Numbered) (hi : w.nextInterp ≤ i) :
    w.interp i = { deleted := true } := by
  cases hknown : w.interps.get? i with
  | none => simp [interp, Table.getD, hknown]
  | some r => exact absurd (hw i (by rw [hknown]; rfl)) (Nat.not_lt.2 hi)

theorem Secluded.isSealed (h : w.Secluded c) (hw : w.Trees ∅) (hnumbered : w.Numbered)
    (hc : c < w.nextInterp) : w.Sealed (w.offspring c) c := by
  have hsub : {j | w.Beneath c j} ⊆ w.offspring c := fun j hj => .inl hj
  refine ⟨fun i hi => ?_, fun i hi hne p hp => ?_, fun i hi => ?_, h.numbered⟩
  · rcases hi with hbeneath | hunborn
    · refine ⟨fun name k hk => ?_, fun hook hmem => ?_, fun token hmem => ?_⟩
      · have hparent := (hw.child i name k hk).1
        refine ⟨.inl (hbeneath.tail hparent), ?_⟩
        rintro rfl
        exact absurd (hw.parent_lt _ _ hparent) (Nat.not_lt.2 (hw.le_of_beneath hbeneath))
      · exact (h.hooks i hbeneath hook hmem).mono hsub
      · exact (h.scripts i hbeneath token hmem).mono hsub
    · rw [hnumbered.interp_of_le hunborn]
      refine ⟨fun name k hk => ?_, fun hook hmem => ?_, fun token hmem => ?_⟩
      · cases hk
      · cases hmem
      · cases hmem
  · rcases hi with hbeneath | hunborn
    · rcases hbeneath.cases_tail with hself | ⟨q, hq, hchild⟩
      · exact absurd hself hne
      · cases (Option.some.inj (hp.symm.trans hchild) : p = q)
        exact .inl hq
    · rw [hnumbered.interp_of_le hunborn] at hp
      cases hp
  · exact ⟨.inr hi, fun hic => absurd hi (Nat.not_le.2 (hic ▸ hc))⟩

end World

end ScriptHost
