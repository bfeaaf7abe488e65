import Mathlib.Data.List.Induction
import ScriptHost.Proofs.Agenda.Exact

/-!
# In which order handlers are served

Events and idle handlers are served in the order in which they were accepted, timers in the order of
their deadlines and, of equal deadlines, of their creation. A deadline is the time at which a timer
was created with its delay on top, so it is found in the history of the thread. The queues are kept
in these orders by every move, and a call takes the first handler of a queue. To look for work is
one move with one reading of the clock, in which no other thread posts an event.
-/

namespace ScriptHost

namespace EventFlags

end EventFlags

/-! ### The order of the queues -/

/-- One timer is due before another: its deadline is earlier, or the same and it is older. -/
def Timer.Before {η : Type} (t u : Timer η) : Prop :=
  t.deadline < u.deadline ∨ t.deadline = u.deadline ∧ t.token < u.token

namespace Agenda

open Notifier (Item itemOf)

theorem pairwise_insertTimer {η : Type} {t : Timer η} {timers : List (Timer η)}
    (h : timers.Pairwise Timer.Before) (ht : ∀ s ∈ timers, s.token < t.token) :
    (insertTimer t timers).Pairwise Timer.Before := by
  induction timers with
  | nil => exact List.pairwise_singleton _ _
  | cons s rest ih =>
    obtain ⟨hs, hrest⟩ := List.pairwise_cons.1 h
    obtain ⟨hst, hrestt⟩ := List.forall_mem_cons.1 ht
    rw [insertTimer]
    split
    · next hle =>
      refine List.pairwise_cons.2 ⟨fun u hu => ?_, ih hrest hrestt⟩
      rcases mem_insertTimer.1 hu with rfl | hu
      · rcases Nat.lt_or_eq_of_le hle with hlt | heq
        · exact .inl hlt
        · exact .inr ⟨heq, hst⟩
      · exact hs u hu
    · next hlt =>
      have hts : t.deadline < s.deadline := Nat.lt_of_not_le hlt
      refine List.pairwise_cons.2 ⟨fun u hu => .inl ?_, h⟩
      rcases List.mem_cons.1 hu with rfl | hu
      · exact hts
      · rcases hs u hu with hlater | ⟨heq, -⟩
        · exact Nat.lt_trans hts hlater
        · exact heq ▸ hts

/-- What is left of the queues is left in its order. -/
structure Shrinks (a a' : Agenda Item Item) : Prop where
  events : a'.events.Sublist a.events
  timers : a'.timers.Sublist a.timers
  idle : a'.idle.Sublist a.idle

variable {a a' : Agenda Item Item}

theorem Shrinks.refl (a : Agenda Item Item) : a.Shrinks a :=
  ⟨.refl _, .refl _, .refl _⟩

theorem shrinks_cancelTimer (h : a.Sound) (token : Token) : a.Shrinks (a.cancelTimer token).2 := by
  rw [h.cancelTimer_eq]
  exact ⟨.refl _, List.filter_sublist, .refl _⟩

theorem shrinks_cancelIdle (a : Agenda Item Item) (token : Token) :
    a.Shrinks (a.cancelIdle token).2 :=
  ⟨.refl _, .refl _, List.filter_sublist⟩

theorem shrinks_next? {flags : EventFlags} {now : Time} {work : Work Item Item}
    (h : a.next? flags now = some (work, a')) : a.Shrinks a' := by
  rcases next?_cases h with hpop | hpop | hpop
  · obtain ⟨event, rest, hevents, -, rfl⟩ := popEvent?_eq_some hpop
    exact ⟨hevents ▸ List.sublist_cons_self _ _, .refl _, .refl _⟩
  · obtain ⟨t, rest, htimers, -, -, rfl⟩ := popTimer?_eq_some hpop
    exact ⟨.refl _, htimers ▸ List.sublist_cons_self _ _, .refl _⟩
  · obtain ⟨token, handler, rest, hidle, -, rfl⟩ := popIdle?_eq_some hpop
    exact ⟨.refl _, .refl _, hidle ▸ List.sublist_cons_self _ _⟩

/-! ### What a call takes -/

end Agenda

namespace Notifier

/-- The kinds of handlers. -/
inductive Kind
  | event
  | timer
  | idle
deriving DecidableEq, Repr

/-- The kind of a handler. -/
def Item.kind : Item → Kind
  | event _ => .event
  | timer _ => .timer
  | idle _ => .idle

namespace State

variable {s s' : State} {x y : Item}

/-- The queues are in order. -/
structure Ordered (s : State) : Prop where
  events : s.agenda.events.Sublist s.accepted
  idle : (s.agenda.idle.map (·.2)).Sublist s.accepted
  timers : s.agenda.timers.Pairwise Timer.Before
  tokens : (s.accepted.filterMap Item.token?).Pairwise (· < ·)

/-- A move accepts no handler, and the queues keep their order. -/
structure Keeps (s s' : State) : Prop where
  shrinks : s.agenda.Shrinks s'.agenda
  accepted : s'.accepted = s.accepted
  nextToken : s'.agenda.nextToken = s.agenda.nextToken

/-- Whether the thread is to stop waiting has nothing to do with the queues. -/
theorem Keeps.of_eq (hagenda : s'.agenda = { s.agenda with alerted := s'.agenda.alerted })
    (haccepted : s'.accepted = s.accepted) : s.Keeps s' where
  shrinks := by
    rw [hagenda]
    exact ⟨.refl _, .refl _, .refl _⟩
  accepted := haccepted
  nextToken := by rw [hagenda]

theorem keeps_look (s : State) : s.Keeps s.look := by
  unfold State.look
  split
  · split
    · next hnext => exact ⟨Agenda.shrinks_next? hnext, rfl, Agenda.nextToken_next? hnext⟩
    · split
      · exact .of_eq rfl rfl
      · split <;> exact .of_eq rfl rfl
  · exact .of_eq rfl rfl

theorem keeps_wake (s : State) : s.Keeps s.wake := by
  unfold State.wake
  split <;> exact .of_eq rfl rfl

theorem keeps_finish (s : State) : s.Keeps s.finish := by
  unfold State.finish
  split <;> exact .of_eq rfl rfl

theorem keeps_unwind (s : State) : s.Keeps s.unwind := by
  unfold State.unwind
  split <;> exact .of_eq rfl rfl

theorem Accounted.keeps_deleteTimer (h : s.Accounted) (token : Token) :
    s.Keeps (s.deleteTimer token) :=
  ⟨Agenda.shrinks_cancelTimer h.sound token, rfl,
    (Agenda.cancels_timer h.sound h.named token).nextToken⟩

theorem keeps_cancelIdle (s : State) (token : Token) : s.Keeps (s.cancelIdle token) :=
  ⟨Agenda.shrinks_cancelIdle s.agenda token, rfl, rfl⟩

/-- A move accepts one handler or none. -/
theorem Accounted.step_cases (h : s.Accounted) (move : Move) :
    (∃ delay, move = .createTimer delay ∧ s.running = true ∧ s.step move = s.createTimer delay) ∨
      s.step move = s.doWhenIdle ∨ s.step move = s.post ∨ s.Keeps (s.step move) := by
  cases move with
  | createTimer delay =>
    rw [State.step]
    split
    · next hrunning => exact .inl ⟨delay, rfl, hrunning, rfl⟩
    · exact .inr (.inr (.inr (.of_eq rfl rfl)))
  | doWhenIdle =>
    rw [State.step]
    split
    · exact .inr (.inl rfl)
    · exact .inr (.inr (.inr (.of_eq rfl rfl)))
  | post => exact .inr (.inr (.inl rfl))
  | deleteTimer token =>
    rw [State.step]
    split
    · exact .inr (.inr (.inr (h.keeps_deleteTimer token)))
    · exact .inr (.inr (.inr (.of_eq rfl rfl)))
  | cancelIdle token =>
    rw [State.step]
    split
    · exact .inr (.inr (.inr (s.keeps_cancelIdle token)))
    · exact .inr (.inr (.inr (.of_eq rfl rfl)))
  | call flags =>
    rw [State.step]
    split <;> exact .inr (.inr (.inr (.of_eq rfl rfl)))
  | alert | elapse time => exact .inr (.inr (.inr (.of_eq rfl rfl)))
  | look => exact .inr (.inr (.inr s.keeps_look))
  | wake => exact .inr (.inr (.inr s.keeps_wake))
  | finish => exact .inr (.inr (.inr s.keeps_finish))
  | unwind => exact .inr (.inr (.inr s.keeps_unwind))

namespace Ordered

theorem keep (h : s.Ordered) (hkeeps : s.Keeps s') : s'.Ordered where
  events := hkeeps.accepted ▸ hkeeps.shrinks.events.trans h.events
  idle := hkeeps.accepted ▸ (hkeeps.shrinks.idle.map _).trans h.idle
  timers := h.timers.sublist hkeeps.shrinks.timers
  tokens := hkeeps.accepted ▸ h.tokens

theorem post (h : s.Ordered) : s.post.Ordered where
  events := h.events.append (.refl _)
  idle := h.idle.trans (List.sublist_append_left _ _)
  timers := h.timers
  tokens := by
    have htokens : s.post.accepted.filterMap Item.token? = s.accepted.filterMap Item.token? := by
      rw [State.post, List.filterMap_append]
      exact List.append_nil _
    exact htokens ▸ h.tokens

/-- The next token is greater than those that were given away. -/
theorem tokens_append (h : s.Ordered) (haccounted : s.Accounted)
    (hx : x.token? = some s.agenda.nextToken) :
    ((s.accepted ++ [x]).filterMap Item.token?).Pairwise (· < ·) := by
  rw [List.filterMap_append, List.pairwise_append]
  refine ⟨h.tokens, by simp [hx], fun token htoken other hother => ?_⟩
  have hlast : other = s.agenda.nextToken := by simpa [hx] using hother
  exact hlast ▸ haccounted.fresh_tokens token htoken

theorem createTimer (h : s.Ordered) (haccounted : s.Accounted) (delay : Time) :
    (s.createTimer delay).Ordered where
  events := h.events.trans (List.sublist_append_left _ _)
  idle := h.idle.trans (List.sublist_append_left _ _)
  timers := Agenda.pairwise_insertTimer h.timers fun _ ht => haccounted.sound.timer_lt ht
  tokens := h.tokens_append haccounted rfl

theorem doWhenIdle (h : s.Ordered) (haccounted : s.Accounted) : s.doWhenIdle.Ordered where
  events := h.events.trans (List.sublist_append_left _ _)
  idle := by
    have hidle : s.doWhenIdle.agenda.idle.map (·.2) =
        s.agenda.idle.map (·.2) ++ [.idle s.agenda.nextToken] := by
      simp [State.doWhenIdle, Agenda.addIdle]
    rw [hidle]
    exact h.idle.append (.refl _)
  timers := h.timers
  tokens := h.tokens_append haccounted rfl

theorem step (h : s.Ordered) (haccounted : s.Accounted) (move : Move) : (s.step move).Ordered := by
  rcases haccounted.step_cases move with ⟨delay, -, -, heq⟩ | heq | heq | hkeeps
  · exact heq ▸ h.createTimer haccounted delay
  · exact heq ▸ h.doWhenIdle haccounted
  · exact heq ▸ h.post
  · exact h.keep hkeeps

theorem run (h : s.Ordered) (haccounted : s.Accounted) (moves : List Move) :
    (s.run moves).Ordered := by
  induction moves generalizing s with
  | nil => exact h
  | cons move moves ih => exact ih (h.step haccounted move) (haccounted.step move)

end Ordered

/-! ### Moves and time -/

end State

/-! ### Deadlines -/

open State

/-- In the course of some moves a timer is created under a token, to be due at a deadline. -/
def Sets (moves : List Move) (token : Token) (deadline : Time) : Prop :=
  ∃ before delay after, moves = before ++ .createTimer delay :: after ∧
    (run {} before).running = true ∧ token = (run {} before).agenda.nextToken ∧
    deadline = (run {} before).clock + delay

variable {moves before between after : List Move} {move : Move} {token token' : Token}
  {deadline deadline' delay delay' : Time} {x y : Item}

theorem Sets.append (h : Sets moves token deadline) (after : List Move) :
    Sets (moves ++ after) token deadline := by
  obtain ⟨before, delay, rest, rfl, h⟩ := h
  exact ⟨before, delay, rest ++ after, by simp, h⟩

/-- The kind of a piece of work. -/
def kindOf : Agenda.Work Item Item → Kind
  | .event _ => .event
  | .timer _ => .timer
  | .idle _ => .idle

namespace CreatedFirst

end CreatedFirst

/-! ### The result -/

/-- Two timers that are both due when the thread looks for the first time. -/
example :
    (run {} [.createTimer 20, .createTimer 1, .elapse 20, .call .timer, .look, .finish,
      .call .timer, .look]).started = [.timer 2, .timer 1] := by
  decide

end Notifier

end ScriptHost
