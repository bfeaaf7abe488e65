import ScriptHost.Proofs.Agenda.Sound
import ScriptHost.Engine

/-!
# What leaves the agenda of a thread alone

Most code puts work onto the agenda of a thread or cancels a script that it put there before. It
leaves no event by which another thread ends a handle, and the deletions that were put off until the
thread is idle stay where they are.
-/

namespace ScriptHost

/-- Whether an event is none of those by which another thread deletes a handle or lets it go. -/
def Event.isLocal : Event → Bool
  | .serve _ => true
  | .release _ _ => false
  | .delete _ => false
  | .print _ => true

/-- Whether a handler deletes an interpreter. -/
def Handler.isDeletion : Handler → Bool
  | .delete _ => true
  | _ => false

namespace Agenda

variable {a a' a'' : Agenda Event Handler}

/-- All that is pending apart from the events. -/
def slots (a : Agenda Event Handler) :
    List (Timer Handler) × Table Token Time × List (Token × Handler) × Token :=
  (a.timers, a.deadlines, a.idle, a.nextToken)

theorem Sound.of_slots_eq (ha : a.Sound) (h : a'.slots = a.slots) : a'.Sound := by
  simp only [slots, Prod.mk.injEq] at h
  obtain ⟨htimers, hdeadlines, hidle, hnext⟩ := h
  refine ⟨?_, ?_, ?_⟩
  · rw [htimers, hdeadlines]
    exact ha.deadlines
  · rw [tokens, htimers, hidle]
    exact ha.nodup
  · rw [tokens, htimers, hidle, hnext]
    exact ha.fresh

/-- A thread may come from one agenda to the other without serving a deletion that was put off and
without hearing of the end of a handle elsewhere. -/
structure Rests (a a' : Agenda Event Handler) : Prop where
  events : ∀ event ∈ a'.events, event ∈ a.events ∨ event.isLocal = true
  deletions : ∀ entry ∈ a.idle, entry.2.isDeletion = true → entry ∈ a'.idle
  idle : ∀ entry ∈ a'.idle, entry ∈ a.idle ∨ a.nextToken ≤ entry.1 ∧ entry.1 < a'.nextToken
  nextToken : a.nextToken ≤ a'.nextToken

/-- The work that idle handlers do is the same. -/
theorem Rests.of_idle_eq (hevents : ∀ event ∈ a'.events, event ∈ a.events ∨ event.isLocal = true)
    (hidle : a'.idle = a.idle) (hnext : a.nextToken ≤ a'.nextToken) : Rests a a' := by
  refine ⟨hevents, fun entry hentry _ => ?_, fun entry hentry => ?_, hnext⟩
  · rwa [hidle]
  · rw [hidle] at hentry
    exact .inl hentry

theorem Rests.refl (a : Agenda Event Handler) : Rests a a :=
  .of_idle_eq (fun _ h => .inl h) rfl (Nat.le_refl _)

theorem Rests.trans (h : Rests a a') (h' : Rests a' a'') : Rests a a'' := by
  refine ⟨fun event hevent => ?_, fun entry hentry hdel => ?_, fun entry hentry => ?_,
    Nat.le_trans h.nextToken h'.nextToken⟩
  · exact (h'.events event hevent).elim (h.events event) .inr
  · exact h'.deletions entry (h.deletions entry hentry hdel) hdel
  · rcases h'.idle entry hentry with hold | ⟨hle, hlt⟩
    · exact (h.idle entry hold).imp_right fun hnew => ⟨hnew.1, Nat.lt_of_lt_of_le hnew.2 h'.nextToken⟩
    · exact .inr ⟨Nat.le_trans h.nextToken hle, hlt⟩

theorem rests_post {event : Event} (hevent : event.isLocal = true) (a : Agenda Event Handler) :
    Rests a (a.post event) := by
  refine .of_idle_eq (fun posted hposted => ?_) rfl (Nat.le_refl _)
  rcases List.mem_append.1 hposted with hold | hnew
  · exact .inl hold
  · rw [List.mem_singleton.1 hnew]
    exact .inr hevent

theorem rests_alert (a : Agenda Event Handler) : Rests a a.alert :=
  .of_idle_eq (fun _ h => .inl h) rfl (Nat.le_refl _)

theorem rests_addTimer (a : Agenda Event Handler) (deadline : Time) (handler : Handler) :
    Rests a (a.addTimer deadline handler).2 :=
  .of_idle_eq (fun _ h => .inl h) rfl (Nat.le_succ _)

theorem rests_cancelTimer (a : Agenda Event Handler) (token : Token) :
    Rests a (a.cancelTimer token).2 := by
  rw [cancelTimer]
  split
  · exact .refl a
  · exact .of_idle_eq (fun _ h => .inl h) rfl (Nat.le_refl _)

theorem rests_addIdle (a : Agenda Event Handler) (handler : Handler) :
    Rests a (a.addIdle handler).2 := by
  refine ⟨fun _ h => .inl h, fun entry hentry _ => List.mem_append_left _ hentry,
    fun entry hentry => ?_, Nat.le_succ _⟩
  rcases List.mem_append.1 hentry with hold | hnew
  · exact .inl hold
  · rw [List.mem_singleton.1 hnew]
    exact .inr ⟨Nat.le_refl _, Nat.lt_succ_self _⟩

/-- Idle handlers may go that delete nothing. -/
theorem rests_cancelIdle {token : Token}
    (h : ∀ entry ∈ a.idle, entry.1 = token → entry.2.isDeletion = false) :
    Rests a (a.cancelIdle token).2 := by
  refine ⟨fun _ h => .inl h, fun entry hentry hdel => ?_, fun entry hentry => ?_, Nat.le_refl _⟩
  · refine List.mem_filter.2 ⟨hentry, decide_eq_true fun htoken => ?_⟩
    rw [h entry hentry htoken] at hdel
    cases hdel
  · exact .inl (List.mem_filter.1 hentry).1

/-- A scheduled script can be cancelled without cancelling a deletion. -/
def Harmless (a : Agenda Event Handler) : AfterToken → Prop
  | .timer _ => True
  | .idle token => token < a.nextToken ∧
      ∀ entry ∈ a.idle, entry.1 = token → entry.2.isDeletion = false

theorem Harmless.rests {token : AfterToken} (h : a.Harmless token) (ha : a.Rests a') :
    a'.Harmless token := by
  cases token with
  | timer token => exact h
  | idle token =>
    refine ⟨Nat.lt_of_lt_of_le h.1 ha.nextToken, fun entry hentry htoken => ?_⟩
    rcases ha.idle entry hentry with hold | ⟨hle, -⟩
    · exact h.2 entry hold htoken
    · exact absurd (htoken ▸ hle) (Nat.not_le.2 h.1)

/-- Every idle handler has a token that was given away. -/
def Known (a : Agenda Event Handler) : Prop :=
  ∀ entry ∈ a.idle, entry.1 < a.nextToken

theorem Known.rests (h : a.Known) (ha : a.Rests a') : a'.Known := by
  intro entry hentry
  rcases ha.idle entry hentry with hold | ⟨-, hlt⟩
  · exact Nat.lt_of_lt_of_le (h entry hold) ha.nextToken
  · exact hlt

/-- A script that the thread is to run when it is idle can be cancelled without harm. -/
theorem harmless_addIdle (h : a.Known) {handler : Handler} (hhandler : handler.isDeletion = false) :
    (a.addIdle handler).2.Harmless (.idle (a.addIdle handler).1) := by
  refine ⟨Nat.lt_succ_self _, fun entry hentry htoken => ?_⟩
  rcases List.mem_append.1 hentry with hold | hnew
  · exact absurd htoken (Nat.ne_of_lt (h entry hold))
  · rw [List.mem_singleton.1 hnew]
    exact hhandler

/-! ### Taking work off -/

variable {work : Work Event Handler}

theorem rests_popEvent (h : a.popEvent? = some (work, a')) : Rests a a' := by
  obtain ⟨event, rest, hevents, -, rfl⟩ := popEvent?_eq_some h
  refine .of_idle_eq (fun posted hposted => .inl ?_) rfl (Nat.le_refl _)
  rw [hevents]
  exact List.mem_cons_of_mem _ hposted

theorem rests_popTimer {now : Time} (h : a.popTimer? now = some (work, a')) : Rests a a' := by
  obtain ⟨_, _, -, -, -, rfl⟩ := popTimer?_eq_some h
  exact .of_idle_eq (fun _ h => .inl h) rfl (Nat.le_refl _)

/-- Whether work is a deletion that was put off. -/
def Work.isPutOff : Work Event Handler → Bool
  | .idle handler => handler.isDeletion
  | _ => false

theorem rests_popIdle (hwork : work.isPutOff = false) (h : a.popIdle? = some (work, a')) :
    Rests a a' := by
  obtain ⟨token, handler, rest, hidle, rfl, rfl⟩ := popIdle?_eq_some h
  refine ⟨fun _ h => .inl h, fun entry hentry hdel => ?_, fun entry hentry => ?_, Nat.le_refl _⟩
  · rw [hidle, List.mem_cons] at hentry
    rcases hentry with rfl | hrest
    · rw [show handler.isDeletion = false from hwork] at hdel
      cases hdel
    · exact hrest
  · left
    rw [hidle]
    exact List.mem_cons_of_mem _ hentry

theorem rests_next {flags : EventFlags} {now : Time} (hwork : work.isPutOff = false)
    (h : a.next? flags now = some (work, a')) : Rests a a' := by
  rcases next?_cases h with hevent | htimer | hidle
  · exact rests_popEvent hevent
  · exact rests_popTimer htimer
  · exact rests_popIdle hwork hidle

theorem next?_idle (a : Agenda Event Handler) (now : Time) : a.next? .idle now = a.popIdle? :=
  rfl

theorem next?_posted (a : Agenda Event Handler) (now : Time) :
    a.next? .posted now = a.popEvent? := by
  rw [next?]
  cases a.popEvent? <;> rfl

theorem popIdle_of_next {handler : Handler} {flags : EventFlags} {now : Time}
    (h : a.next? flags now = some (.idle handler, a')) :
    a.popIdle? = some (.idle handler, a') := by
  rcases next?_cases h with hevent | htimer | hidle
  · obtain ⟨_, _, -, hwork, -⟩ := popEvent?_eq_some hevent
    cases hwork
  · obtain ⟨_, _, -, -, hwork, -⟩ := popTimer?_eq_some htimer
    cases hwork
  · exact hidle

end Agenda

/-! ### Threads -/

/-- A thread may come from one state to the other without beginning to act by itself, serving a
deletion that was put off or hearing of the end of a handle elsewhere. -/
structure Thread.Rests (thread thread' : Thread) : Prop where
  role : thread'.role = thread.role
  agenda : thread.agenda.Rests thread'.agenda

theorem Thread.Rests.refl (thread : Thread) : Rests thread thread :=
  ⟨rfl, .refl _⟩

theorem Thread.Rests.trans {thread thread' thread'' : Thread} (h : Rests thread thread')
    (h' : Rests thread' thread'') : Rests thread thread'' :=
  ⟨h'.role.trans h.role, h.agenda.trans h'.agenda⟩

/-- A thread that does nothing by itself and to which no other thread has left the end of a
handle. -/
structure Thread.Passive (thread : Thread) : Prop where
  role : thread.role = .resting
  events : ∀ event ∈ thread.agenda.events, event.isLocal = true

theorem Thread.Passive.rests {thread thread' : Thread} (hp : thread.Passive)
    (h : thread.Rests thread') : thread'.Passive :=
  ⟨h.role.trans hp.role, fun event hevent => (h.agenda.events event hevent).elim (hp.events event) id⟩

/-! ### Timers of loops -/

namespace World

variable {w : World} {l : LoopId}

theorem modifyLoop_of_none (h : w.loops.get? l = none) (f : Loop → Loop) : w.modifyLoop l f = w := by
  have hloops : w.loops.modify l f = w.loops := by
    refine Table.modify_eq_self fun loop hloop => ?_
    cases h.symm.trans hloop
  rw [modifyLoop, hloops]

/-- Either a loop forgets its timer, or it may have one, and adds a timer and knows it. -/
theorem armKeepalive_cases (w : World) (l : LoopId) :
    (w.armKeepalive l = w.modifyLoop l fun loop => { loop with token := none }) ∨
    ∃ loop deadline, w.loops.get? l = some loop ∧ loop.active = true ∧
      w.armKeepalive l =
        (w.modifyLoop l fun loop => { loop with token := some w.agenda.nextToken }).setAgenda
          (w.agenda.addTimer deadline (.keepalive l)).2 := by
  rw [armKeepalive]
  split
  · next habsent => exact .inl (modifyLoop_of_none habsent _).symm
  · next loop hloop =>
    dsimp only
    split
    · exact .inl rfl
    · next hoff =>
      have hactive : loop.active = true := by
        simp only [Bool.or_eq_true, Bool.not_eq_true', not_or] at hoff
        exact Bool.not_eq_false _ ▸ hoff.1
      exact .inr ⟨loop, _, hloop, hactive, rfl⟩

/-- A loop forgets its timer and may not have one any more, and cancels the one it knew. -/
theorem stopKeepalive_cases (w : World) (l : LoopId) :
    (w.stopKeepalive l = w.modifyLoop l fun loop => { loop with active := false, token := none }) ∨
    ∃ loop token, w.loops.get? l = some loop ∧ loop.token = some token ∧
      w.stopKeepalive l =
        (w.modifyLoop l fun loop => { loop with active := false, token := none }).setAgenda
          (w.agenda.cancelTimer token).2 := by
  rw [stopKeepalive]
  split
  · next habsent => exact .inl (modifyLoop_of_none habsent _).symm
  · next loop hloop =>
    dsimp only
    split
    · next token htoken => exact .inr ⟨loop, token, hloop, htoken, rfl⟩
    · exact .inl rfl

end World

end ScriptHost
