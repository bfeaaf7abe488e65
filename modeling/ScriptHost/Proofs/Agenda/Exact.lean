import ScriptHost.Proofs.Agenda.Machine

/-!
# Handlers run at most once, and cancelling is exact

Every handler that a thread accepted is pending, started or cancelled, and only one of them. This
account is kept by every move of the thread, so it holds at every time of every run, however deep
calls and handlers are nested and whichever of them unwind. All that can be asked of handlers and
their cancelling follows from it.
-/

namespace ScriptHost

/-! ### What is pending -/

namespace Agenda

open Notifier (Item itemOf)

variable {a a' : Agenda Item Item} {item : Item}

/-- The handlers that are pending. -/
def pending (a : Agenda Item Item) : List Item :=
  a.events ++ (a.timers.map (·.handler) ++ a.idle.map (·.2))

/-- Every handler is kept under its own name. -/
structure Named (a : Agenda Item Item) : Prop where
  events : ∀ item ∈ a.events, item.token? = none
  timers : ∀ t ∈ a.timers, t.handler = .timer t.token
  idle : ∀ entry ∈ a.idle, entry.2 = .idle entry.1

theorem hasPending_iff (a : Agenda Item Item) : a.hasPending = true ↔ ∃ item, item ∈ a.pending := by
  have hne : a.hasPending = true ↔ a.pending ≠ [] := by
    rw [hasPending, pending]
    cases a.events <;> cases a.timers <;> cases a.idle <;> simp
  rw [hne]
  exact ⟨List.exists_mem_of_ne_nil _, fun ⟨_, hitem⟩ => List.ne_nil_of_mem hitem⟩

/-! #### Adding handlers -/

theorem pending_post (a : Agenda Item Item) (item : Item) :
    (a.post item).pending.Perm (item :: a.pending) := by
  rw [pending, post, List.append_assoc]
  exact List.perm_middle

theorem pending_addTimer (a : Agenda Item Item) (deadline : Time) (item : Item) :
    (a.addTimer deadline item).2.pending.Perm (item :: a.pending) := by
  have htimers := (insertTimer_perm ⟨deadline, a.nextToken, item⟩ a.timers).map (·.handler)
  exact ((htimers.append_right _).append_left a.events).trans List.perm_middle

theorem pending_addIdle (a : Agenda Item Item) (item : Item) :
    (a.addIdle item).2.pending.Perm (item :: a.pending) := by
  have hidle : (a.addIdle item).2.pending = a.pending ++ [item] := by
    simp [pending, addIdle]
  rw [hidle]
  exact List.perm_append_singleton item _

theorem Named.post (h : a.Named) (hitem : item.token? = none) : (a.post item).Named where
  events := List.forall_mem_append.2 ⟨h.events, List.forall_mem_singleton.2 hitem⟩
  timers := h.timers
  idle := h.idle

theorem Named.addTimer (h : a.Named) (deadline : Time) :
    (a.addTimer deadline (.timer a.nextToken)).2.Named where
  events := h.events
  timers t ht := by
    rcases mem_insertTimer.1 ht with rfl | hold
    · rfl
    · exact h.timers t hold
  idle := h.idle

theorem Named.addIdle (h : a.Named) : (a.addIdle (.idle a.nextToken)).2.Named where
  events := h.events
  timers := h.timers
  idle := List.forall_mem_append.2 ⟨h.idle, List.forall_mem_singleton.2 rfl⟩

/-! #### Cancelling handlers -/

theorem Named.filter_events (h : a.Named) {token : Token} (htoken : item.token? = some token) :
    a.events.filter (· != item) = a.events := by
  refine List.filter_eq_self.2 fun event hevent => bne_iff_ne.2 ?_
  rintro rfl
  rw [h.events _ hevent] at htoken
  cases htoken

theorem Named.mem_timers (h : a.Named) (token : Token) :
    .timer token ∈ a.pending ↔ ∃ t ∈ a.timers, t.token = token := by
  simp only [pending, List.mem_append, List.mem_map]
  constructor
  · rintro (hevent | ⟨t, ht, heq⟩ | ⟨entry, hentry, heq⟩)
    · cases h.events _ hevent
    · rw [h.timers t ht] at heq
      exact ⟨t, ht, Item.timer.inj heq⟩
    · rw [h.idle entry hentry] at heq
      cases heq
  · rintro ⟨t, ht, rfl⟩
    exact .inr (.inl ⟨t, ht, h.timers t ht⟩)

theorem Named.mem_idle (h : a.Named) (token : Token) :
    .idle token ∈ a.pending ↔ ∃ entry ∈ a.idle, entry.1 = token := by
  simp only [pending, List.mem_append, List.mem_map]
  constructor
  · rintro (hevent | ⟨t, ht, heq⟩ | ⟨entry, hentry, heq⟩)
    · cases h.events _ hevent
    · rw [h.timers t ht] at heq
      cases heq
    · rw [h.idle entry hentry] at heq
      exact ⟨entry, hentry, Item.idle.inj heq⟩
  · rintro ⟨entry, hentry, rfl⟩
    exact .inr (.inr ⟨entry, hentry, h.idle entry hentry⟩)

theorem Named.filter_timers (h : a.Named) (token : Token) :
    (a.timers.filter fun t => ¬t.token = token).map (·.handler) =
      (a.timers.map (·.handler)).filter (· != .timer token) := by
  rw [List.filter_map]
  refine congrArg _ (List.filter_congr fun t ht => ?_)
  rw [Bool.eq_iff_iff]
  simp [h.timers t ht]

theorem Named.filter_idle (h : a.Named) (token : Token) :
    (a.idle.filter fun entry => entry.1 ≠ token).map (·.2) =
      (a.idle.map (·.2)).filter (· != .idle token) := by
  rw [List.filter_map]
  refine congrArg _ (List.filter_congr fun entry hentry => ?_)
  rw [Bool.eq_iff_iff]
  simp [h.idle entry hentry]

/-- A handler was cancelled if it was pending, and all others stay. -/
structure Cancels (a : Agenda Item Item) (item : Item) (result : Bool × Agenda Item Item) :
    Prop where
  answer : result.1 = true ↔ item ∈ a.pending
  pending : result.2.pending = a.pending.filter (· != item)
  named : result.2.Named
  sound : result.2.Sound
  nextToken : result.2.nextToken = a.nextToken

theorem cancels_timer (hsound : a.Sound) (hnamed : a.Named) (token : Token) :
    a.Cancels (.timer token) (a.cancelTimer token) := by
  have heq := hsound.cancelTimer_eq token
  refine ⟨?_, ?_, ?_, hsound.cancelTimer token, by rw [heq]⟩
  · rw [heq, hnamed.mem_timers]
    simp
  · have hidle : (a.idle.map (·.2)).filter (· != .timer token) = a.idle.map (·.2) := by
      refine List.filter_eq_self.2 (List.forall_mem_map.2 fun entry hentry => bne_iff_ne.2 ?_)
      rw [hnamed.idle entry hentry]
      exact Item.noConfusion
    rw [heq, Agenda.pending, Agenda.pending, List.filter_append, List.filter_append,
      hnamed.filter_events rfl, hidle]
    exact congrArg _ (congrArg (· ++ _) (hnamed.filter_timers token))
  · rw [heq]
    exact ⟨hnamed.events, fun t ht => hnamed.timers t (List.mem_filter.1 ht).1, hnamed.idle⟩

theorem cancels_idle (hsound : a.Sound) (hnamed : a.Named) (token : Token) :
    a.Cancels (.idle token) (a.cancelIdle token) := by
  refine ⟨?_, ?_, ?_, hsound.cancelIdle token, rfl⟩
  · rw [hnamed.mem_idle, cancelIdle]
    simp
  · have htimers : (a.timers.map (·.handler)).filter (· != .idle token) =
        a.timers.map (·.handler) := by
      refine List.filter_eq_self.2 (List.forall_mem_map.2 fun t ht => bne_iff_ne.2 ?_)
      rw [hnamed.timers t ht]
      exact Item.noConfusion
    rw [Agenda.pending, Agenda.pending, List.filter_append, List.filter_append,
      hnamed.filter_events rfl, htimers]
    exact congrArg _ (congrArg _ (hnamed.filter_idle token))
  · exact ⟨hnamed.events, hnamed.timers, fun entry hentry =>
      hnamed.idle entry (List.mem_filter.1 hentry).1⟩

/-! #### Taking handlers off -/

theorem pending_next? {work : Work Item Item} {flags : EventFlags} {now : Time}
    (h : a.next? flags now = some (work, a')) : a.pending.Perm (itemOf work :: a'.pending) := by
  rcases next?_cases h with hpop | hpop | hpop
  · obtain ⟨event, rest, hevents, rfl, rfl⟩ := popEvent?_eq_some hpop
    rw [pending, hevents]
    rfl
  · obtain ⟨t, rest, htimers, -, rfl, rfl⟩ := popTimer?_eq_some hpop
    rw [pending, htimers]
    exact List.perm_middle
  · obtain ⟨token, handler, rest, hidle, rfl, rfl⟩ := popIdle?_eq_some hpop
    rw [pending, hidle, List.map_cons]
    exact (List.perm_middle.append_left _).trans List.perm_middle

theorem Named.next? (hnamed : a.Named) {work : Work Item Item} {flags : EventFlags} {now : Time}
    (h : a.next? flags now = some (work, a')) : a'.Named := by
  rcases next?_cases h with hpop | hpop | hpop
  · obtain ⟨event, rest, hevents, -, rfl⟩ := popEvent?_eq_some hpop
    have hrest : rest ⊆ a.events := hevents ▸ List.subset_cons_self event rest
    exact ⟨fun item hitem => hnamed.events item (hrest hitem), hnamed.timers, hnamed.idle⟩
  · obtain ⟨t, rest, htimers, -, -, rfl⟩ := popTimer?_eq_some hpop
    have hrest : rest ⊆ a.timers := htimers ▸ List.subset_cons_self t rest
    exact ⟨hnamed.events, fun s hs => hnamed.timers s (hrest hs), hnamed.idle⟩
  · obtain ⟨token, handler, rest, hidle, -, rfl⟩ := popIdle?_eq_some hpop
    have hrest : rest ⊆ a.idle := hidle ▸ List.subset_cons_self _ rest
    exact ⟨hnamed.events, hnamed.timers, fun entry hentry => hnamed.idle entry (hrest hentry)⟩

end Agenda

namespace Notifier

/-! ### The account of the handlers -/

/-- How many handlers a call has taken off the queues by itself. -/
def Call.Consistent (call : Call) : Prop :=
  call.taken.length = if call.phase = .serving then 1 else 0

namespace State

variable {s s' : State} {item : Item}

/-- What the calls took off the queues, those under way and those that ended. -/
def taken (s : State) : List Item :=
  s.calls.flatMap (·.taken) ++ (s.returned.flatMap (·.2) ++ s.unwound.flatten)

/-- A handler was accepted and neither started nor cancelled. -/
def Awaits (s : State) (item : Item) : Prop :=
  item ∈ s.accepted ∧ item ∉ s.started ∧ item ∉ s.cancelled

/-- Every handler that was accepted is pending, started or cancelled, and only one of them. -/
structure Accounted (s : State) : Prop where
  sound : s.agenda.Sound
  named : s.agenda.Named
  nodup : s.accepted.Nodup
  tokens : (s.accepted.filterMap Item.token?).Nodup
  fresh_events : ∀ n, .event n ∈ s.accepted → n < s.accepted.length
  fresh_tokens : ∀ token ∈ s.accepted.filterMap Item.token?, token < s.agenda.nextToken
  perm : (s.agenda.pending ++ (s.started ++ s.cancelled)).Perm s.accepted
  calls : ∀ call ∈ s.calls, call.Consistent
  returned : ∀ r ∈ s.returned, r.2.length = r.1.toNat
  taken : s.taken.Perm s.started

namespace Accounted

theorem nodup_all (h : s.Accounted) : (s.agenda.pending ++ (s.started ++ s.cancelled)).Nodup :=
  h.perm.nodup_iff.2 h.nodup

theorem mem_pending_iff (h : s.Accounted) : item ∈ s.agenda.pending ↔ s.Awaits item := by
  have hdisjoint := List.disjoint_of_nodup_append h.nodup_all
  rw [Awaits, ← h.perm.mem_iff]
  constructor
  · intro hmem
    exact ⟨List.mem_append_left _ hmem, fun h => hdisjoint hmem (List.mem_append_left _ h),
      fun h => hdisjoint hmem (List.mem_append_right _ h)⟩
  · rintro ⟨hmem, hstarted, hcancelled⟩
    rcases List.mem_append.1 hmem with hpending | hrest
    · exact hpending
    · exact ((List.mem_append.1 hrest).elim hstarted hcancelled).elim

theorem not_mem_started (h : s.Accounted) (hitem : item ∈ s.cancelled) : item ∉ s.started := by
  have hdisjoint := List.disjoint_of_nodup_append (List.nodup_append.1 h.nodup_all).2.1
  exact fun hstarted => hdisjoint hstarted hitem

/-! #### Moves -/

/-- A handler is accepted under a name that is new. -/
theorem accept (h : s.Accounted) {a : Agenda Item Item} (hsound : a.Sound) (hnamed : a.Named)
    (hpending : a.pending.Perm (item :: s.agenda.pending)) (hnew : item ∉ s.accepted)
    (htoken : ∀ token, item.token? = some token → token = s.agenda.nextToken ∧
      a.nextToken = s.agenda.nextToken + 1)
    (hevent : ∀ n, item = .event n → n = s.accepted.length)
    (hnext : s.agenda.nextToken ≤ a.nextToken) :
    Accounted { s with agenda := a, accepted := s.accepted ++ [item] } where
  sound := hsound
  named := hnamed
  nodup := (List.perm_append_singleton _ _).nodup_iff.2 (List.nodup_cons.2 ⟨hnew, h.nodup⟩)
  tokens := by
    rw [List.filterMap_append]
    cases hitem : item.token? with
    | none => simpa [hitem] using h.tokens
    | some token =>
      have hlt : token ∉ s.accepted.filterMap Item.token? := fun hmem =>
        Nat.ne_of_lt (h.fresh_tokens token hmem) (htoken token hitem).1
      have hcons := List.nodup_cons.2 ⟨hlt, h.tokens⟩
      simpa [hitem] using (List.perm_append_singleton _ _).nodup_iff.2 hcons
  fresh_events n hn := by
    rw [List.length_append, List.length_singleton]
    rcases List.mem_append.1 hn with hold | hlast
    · exact Nat.lt_succ_of_lt (h.fresh_events n hold)
    · rw [hevent n (List.mem_singleton.1 hlast).symm]
      exact Nat.lt_succ_self _
  fresh_tokens token hmem := by
    rw [List.filterMap_append, List.mem_append] at hmem
    rcases hmem with hold | hlast
    · exact Nat.lt_of_lt_of_le (h.fresh_tokens token hold) hnext
    · have hitem : item.token? = some token := by simpa using hlast
      rw [(htoken token hitem).1, (htoken token hitem).2]
      exact Nat.lt_succ_self _
  perm := (hpending.append_right _).trans
    ((h.perm.cons item).trans (List.perm_append_singleton item _).symm)
  calls := h.calls
  returned := h.returned
  taken := h.taken

theorem post (h : s.Accounted) : s.post.Accounted := by
  refine h.accept (h.sound.post _) (h.named.post rfl) (s.agenda.pending_post _) (fun hmem => ?_)
    nofun (fun n hn => (Item.event.inj hn).symm) (Nat.le_refl _)
  exact Nat.lt_irrefl _ (h.fresh_events _ hmem)

/-- A name with the next token is new. -/
theorem not_mem_accepted (h : s.Accounted) (hitem : item.token? = some s.agenda.nextToken) :
    item ∉ s.accepted := fun hmem =>
  Nat.lt_irrefl _ (h.fresh_tokens _ (List.mem_filterMap.2 ⟨item, hmem, hitem⟩))

theorem createTimer (h : s.Accounted) (delay : Time) : (s.createTimer delay).Accounted := by
  refine h.accept (h.sound.addTimer _ _) (h.named.addTimer _) (s.agenda.pending_addTimer _ _)
    (h.not_mem_accepted rfl) (fun token htoken => ⟨?_, rfl⟩) nofun (Nat.le_succ _)
  exact (Option.some.inj htoken).symm

theorem doWhenIdle (h : s.Accounted) : s.doWhenIdle.Accounted := by
  refine h.accept (h.sound.addIdle _) h.named.addIdle (s.agenda.pending_addIdle _)
    (h.not_mem_accepted rfl) (fun token htoken => ⟨?_, rfl⟩) nofun (Nat.le_succ _)
  exact (Option.some.inj htoken).symm

/-- A handler is cancelled, or was not pending. -/
theorem cancel (h : s.Accounted) {result : Bool × Agenda Item Item}
    (hcancels : s.agenda.Cancels item result) : (s.cancel item result).Accounted where
  sound := hcancels.sound
  named := hcancels.named
  nodup := h.nodup
  tokens := h.tokens
  fresh_events := h.fresh_events
  fresh_tokens token hmem := hcancels.nextToken ▸ h.fresh_tokens token hmem
  perm := by
    refine List.Perm.trans ?_ h.perm
    dsimp only [State.cancel]
    rw [hcancels.pending]
    split
    · next hyes =>
      have hpending : s.agenda.pending.Perm (item :: s.agenda.pending.filter (· != item)) := by
        have hcons := List.perm_cons_erase (hcancels.answer.1 hyes)
        rw [(List.nodup_append.1 h.nodup_all).1.erase_eq_filter item] at hcons
        exact hcons
      rw [← List.append_assoc s.started, ← List.append_assoc]
      refine (List.perm_append_singleton item _).trans ?_
      exact (hpending.append_right _).symm
    · next hno =>
      have hall : s.agenda.pending.filter (· != item) = s.agenda.pending := by
        refine List.filter_eq_self.2 fun other hother => bne_iff_ne.2 ?_
        rintro rfl
        exact hno (hcancels.answer.2 hother)
      rw [hall]
  calls := h.calls
  returned := h.returned
  taken := h.taken

theorem deleteTimer (h : s.Accounted) (token : Token) : (s.deleteTimer token).Accounted :=
  h.cancel (Agenda.cancels_timer h.sound h.named token)

theorem cancelIdle (h : s.Accounted) (token : Token) : (s.cancelIdle token).Accounted :=
  h.cancel (Agenda.cancels_idle h.sound h.named token)

/-- The account says nothing about whether the thread is to stop waiting, and of the calls only what
they took off the queues. -/
theorem of_eq (h : s.Accounted) (hagenda : s'.agenda = { s.agenda with alerted := s'.agenda.alerted })
    (haccepted : s'.accepted = s.accepted) (hstarted : s'.started = s.started)
    (hcancelled : s'.cancelled = s.cancelled) (hcalls : ∀ call ∈ s'.calls, call.Consistent)
    (hreturned : ∀ r ∈ s'.returned, r.2.length = r.1.toNat) (htaken : s'.taken.Perm s.taken) :
    s'.Accounted := by
  have hpending : s'.agenda.pending = s.agenda.pending := by
    rw [hagenda]
    rfl
  refine ⟨?_, ?_, ?_, ?_, ?_, ?_, ?_, hcalls, hreturned, ?_⟩
  · rw [hagenda]
    exact ⟨h.sound.deadlines, h.sound.nodup, h.sound.fresh⟩
  · rw [hagenda]
    exact ⟨h.named.events, h.named.timers, h.named.idle⟩
  · rw [haccepted]
    exact h.nodup
  · rw [haccepted]
    exact h.tokens
  · rw [haccepted]
    exact h.fresh_events
  · rw [haccepted, hagenda]
    exact h.fresh_tokens
  · rw [hpending, hstarted, hcancelled, haccepted]
    exact h.perm
  · rw [hstarted]
    exact htaken.trans h.taken

theorem alert (h : s.Accounted) : Accounted { s with agenda := s.agenda.alert } :=
  h.of_eq rfl rfl rfl rfl h.calls h.returned (.refl _)

theorem elapse (h : s.Accounted) (time : Time) : Accounted { s with clock := s.clock + time } :=
  h.of_eq rfl rfl rfl rfl h.calls h.returned (.refl _)

theorem call (h : s.Accounted) (flags : EventFlags) : (s.call flags).Accounted :=
  h.of_eq rfl rfl rfl rfl (List.forall_mem_cons.2 ⟨rfl, h.calls⟩) h.returned (.refl _)

/-- The innermost call goes on to another phase in which it has taken nothing off the queues. -/
theorem proceed (h : s.Accounted) {call : Call} {calls : List Call} {phase : Phase} (alerted : Bool)
    (hcalls : s.calls = call :: calls) (hbefore : call.phase ≠ .serving) (hphase : phase ≠ .serving) :
    Accounted { s with
      agenda := { s.agenda with alerted }
      calls := { call with phase } :: calls } := by
  have hall := List.forall_mem_cons.1 (hcalls ▸ h.calls)
  have hnone : call.taken.length = 0 := hall.1.trans (if_neg hbefore)
  refine h.of_eq rfl rfl rfl rfl (List.forall_mem_cons.2 ⟨?_, hall.2⟩) h.returned ?_
  · exact hnone.trans (if_neg hphase).symm
  · rw [State.taken, State.taken, hcalls]
    rfl

/-- The innermost call takes a handler off. -/
theorem take (h : s.Accounted) {flags : EventFlags} {waited : Bool} {taken : List Item}
    {calls : List Call} {work : Agenda.Work Item Item} {a : Agenda Item Item}
    (hcalls : s.calls = ⟨flags, .looking waited, taken⟩ :: calls)
    (hnext : s.agenda.next? flags s.clock = some (work, a)) :
    Accounted { s with
      agenda := a
      calls := ⟨flags, .serving, taken ++ [itemOf work]⟩ :: calls
      started := s.started ++ [itemOf work] } := by
  have hall := List.forall_mem_cons.1 (hcalls ▸ h.calls)
  have hnone : taken.length = 0 := hall.1
  have hpending := Agenda.pending_next? hnext
  have htoken := Agenda.nextToken_next? hnext
  refine ⟨h.sound.next? hnext, h.named.next? hnext, h.nodup, h.tokens, h.fresh_events,
    fun token hmem => htoken ▸ h.fresh_tokens token hmem, .trans ?_ h.perm,
    List.forall_mem_cons.2 ⟨?_, hall.2⟩, h.returned, ?_⟩
  · rw [List.append_assoc, List.singleton_append]
    refine (List.perm_middle.append_left _).trans ?_
    exact List.perm_middle.trans (hpending.append_right _).symm
  · simp [Call.Consistent, hnone]
  · have htaken := h.taken
    rw [State.taken, hcalls] at htaken
    refine List.Perm.trans ?_ ((htaken.cons _).trans (List.perm_append_singleton _ _).symm)
    simp [State.taken, List.length_eq_zero_iff.1 hnone]

/-- The innermost call ends with an answer. -/
theorem answer (h : s.Accounted) {c : Call} {calls : List Call} {answer : Bool}
    (hcalls : s.calls = c :: calls) (hanswer : answer = decide (c.phase = .serving)) :
    Accounted { s with calls, returned := s.returned ++ [(answer, c.taken)] } := by
  have hall := List.forall_mem_cons.1 (hcalls ▸ h.calls)
  refine h.of_eq rfl rfl rfl rfl hall.2
    (List.forall_mem_append.2 ⟨h.returned, List.forall_mem_singleton.2 ?_⟩) ?_
  · refine hall.1.trans ?_
    rw [hanswer]
    by_cases hserving : c.phase = .serving <;> simp [hserving]
  · rw [List.perm_iff_count]
    intro item
    simp only [State.taken, hcalls, List.flatMap_cons, List.flatMap_append, List.flatMap_nil,
      List.append_nil, List.count_append]
    omega

/-- The handler of the innermost call unwinds. -/
theorem abandon (h : s.Accounted) {call : Call} {calls : List Call}
    (hcalls : s.calls = call :: calls) :
    Accounted { s with calls, unwound := s.unwound ++ [call.taken] } := by
  have hall := List.forall_mem_cons.1 (hcalls ▸ h.calls)
  refine h.of_eq rfl rfl rfl rfl hall.2 h.returned ?_
  rw [List.perm_iff_count]
  intro item
  simp only [State.taken, hcalls, List.flatMap_cons, List.flatten_append, List.flatten_cons,
    List.flatten_nil, List.append_nil, List.count_append]
  omega

theorem look (h : s.Accounted) : s.look.Accounted := by
  unfold State.look
  split
  · next flags waited taken calls hcalls =>
    split
    · next work a hnext => exact h.take hcalls hnext
    · split
      · exact h.answer (c := ⟨flags, .looking waited, taken⟩) hcalls rfl
      · split
        · exact h.proceed s.agenda.alerted hcalls nofun nofun
        · exact h.proceed s.agenda.alerted hcalls nofun nofun
  · exact h

theorem wake (h : s.Accounted) : s.wake.Accounted := by
  unfold State.wake
  split
  · next hcalls => exact h.proceed false hcalls nofun nofun
  · exact h

theorem finish (h : s.Accounted) : s.finish.Accounted := by
  unfold State.finish
  split
  · next flags taken calls hcalls =>
    exact h.answer (c := ⟨flags, .serving, taken⟩) hcalls rfl
  · exact h

theorem unwind (h : s.Accounted) : s.unwind.Accounted := by
  unfold State.unwind
  split
  · next hcalls => exact h.abandon hcalls
  · exact h

/-- Every move keeps the account. -/
theorem step (h : s.Accounted) (move : Move) : (s.step move).Accounted := by
  cases move with
  | createTimer delay =>
    rw [State.step]
    split
    · exact h.createTimer delay
    · exact h
  | deleteTimer token =>
    rw [State.step]
    split
    · exact h.deleteTimer token
    · exact h
  | doWhenIdle =>
    rw [State.step]
    split
    · exact h.doWhenIdle
    · exact h
  | cancelIdle token =>
    rw [State.step]
    split
    · exact h.cancelIdle token
    · exact h
  | post => exact h.post
  | alert => exact h.alert
  | elapse time => exact h.elapse time
  | call flags =>
    rw [State.step]
    split
    · exact h.call flags
    · exact h
  | look => exact h.look
  | wake => exact h.wake
  | finish => exact h.finish
  | unwind => exact h.unwind

theorem run (h : s.Accounted) (moves : List Move) : (s.run moves).Accounted := by
  induction moves generalizing s with
  | nil => exact h
  | cons move moves ih => exact ih (h.step move)

end Accounted

/-! ### What was cancelled stays cancelled -/

theorem cancelled_subset_step (s : State) (move : Move) : s.cancelled ⊆ (s.step move).cancelled := by
  have hcancel (item : Item) (result : Bool × Agenda Item Item) :
      s.cancelled ⊆ (s.cancel item result).cancelled := by
    dsimp only [State.cancel]
    split
    · exact List.subset_append_left _ _
    · exact List.Subset.refl _
  cases move with
  | deleteTimer token =>
    rw [step]
    split
    · exact hcancel _ _
    · exact List.Subset.refl _
  | cancelIdle token =>
    rw [step]
    split
    · exact hcancel _ _
    · exact List.Subset.refl _
  | createTimer delay | doWhenIdle | call flags =>
    rw [step]
    split <;> exact List.Subset.refl _
  | post | alert | elapse time => exact List.Subset.refl _
  | look =>
    rw [step, look]
    split
    · split
      · exact List.Subset.refl _
      · split
        · exact List.Subset.refl _
        · split <;> exact List.Subset.refl _
    · exact List.Subset.refl _
  | wake =>
    rw [step, wake]
    split <;> exact List.Subset.refl _
  | finish =>
    rw [step, finish]
    split <;> exact List.Subset.refl _
  | unwind =>
    rw [step, unwind]
    split <;> exact List.Subset.refl _

theorem cancelled_subset_run (s : State) (moves : List Move) :
    s.cancelled ⊆ (s.run moves).cancelled := by
  induction moves generalizing s with
  | nil => exact List.Subset.refl _
  | cons move moves ih => exact List.Subset.trans (s.cancelled_subset_step move) (ih (s.step move))

/-- A handler that was cancelled is never started, whatever the thread does later. -/
theorem Accounted.not_mem_started_run (h : s.Accounted) {result : Bool × Agenda Item Item}
    (hcancels : s.agenda.Cancels item result) (hyes : result.1 = true) (moves : List Move) :
    item ∉ ((s.cancel item result).run moves).started := by
  refine ((h.cancel hcancels).run moves).not_mem_started (cancelled_subset_run _ moves ?_)
  rw [State.cancel, if_pos hyes]
  exact List.mem_append_right _ List.mem_cons_self

/-! ### The result -/

/-- Handlers run at most once, and cancelling is exact. -/
structure Exact (s : State) : Prop where
  /-- Every timer that is pending has its deadline in the table, and the table has no other. -/
  deadlines : s.agenda.deadlines.entries.Perm (s.agenda.timers.map fun t => (t.token, t.deadline))
  /-- No token was given away twice. -/
  tokens : (s.accepted.filterMap Item.token?).Nodup
  /-- What is pending is found under the token that it was accepted with. -/
  pending : ∀ item, item ∈ s.agenda.pending ↔ s.Awaits item
  started_once : s.started.Nodup
  started_accepted : s.started ⊆ s.accepted
  /-- Cancelling is answered with yes exactly for a handler that was accepted and neither started nor
  cancelled. -/
  cancelTimer : ∀ token, (s.agenda.cancelTimer token).1 = true ↔ s.Awaits (.timer token)
  cancelIdle : ∀ token, (s.agenda.cancelIdle token).1 = true ↔ s.Awaits (.idle token)
  /-- A handler whose cancelling was answered with yes is never started. -/
  cancelTimer_final : ∀ token moves, (s.agenda.cancelTimer token).1 = true →
    .timer token ∉ ((s.deleteTimer token).run moves).started
  cancelIdle_final : ∀ token moves, (s.agenda.cancelIdle token).1 = true →
    .idle token ∉ ((s.cancelIdle token).run moves).started
  /-- A call that answers yes took one handler off the queues by itself, one that answers no took
  none. -/
  returned : ∀ r ∈ s.returned, r.2.length = r.1.toNat
  /-- A handler is started by being taken off in one call. -/
  taken : s.taken.Perm s.started
  hasPending : s.agenda.hasPending = true ↔ ∃ item, s.Awaits item

theorem Accounted.exact (h : s.Accounted) : s.Exact where
  deadlines := h.sound.deadlines
  tokens := h.tokens
  pending _ := h.mem_pending_iff
  started_once := (List.nodup_append.1 (List.nodup_append.1 h.nodup_all).2.1).1
  started_accepted _ hitem :=
    h.perm.subset (List.mem_append_right _ (List.mem_append_left _ hitem))
  cancelTimer token := (Agenda.cancels_timer h.sound h.named token).answer.trans h.mem_pending_iff
  cancelIdle token := (Agenda.cancels_idle h.sound h.named token).answer.trans h.mem_pending_iff
  cancelTimer_final token moves hyes :=
    h.not_mem_started_run (Agenda.cancels_timer h.sound h.named token) hyes moves
  cancelIdle_final token moves hyes :=
    h.not_mem_started_run (Agenda.cancels_idle h.sound h.named token) hyes moves
  returned := h.returned
  taken := h.taken
  hasPending := s.agenda.hasPending_iff.trans (exists_congr fun _ => h.mem_pending_iff)

end State

end Notifier

end ScriptHost
