import ScriptHost.Proofs.Agenda.Record
import ScriptHost.Proofs.World.Mail
import ScriptHost.Proofs.World.Scripts

/-!
# Attending to work

Work for a handle goes into its mailbox, and the owner of the handle is told of it by an event. As long
as the handle is live, the work stays in the mailbox until its caller has the answer, and there is at
most as much of it as the owner still is to hear of. Besides, whatever happens to an agenda is in its
record.
-/

namespace ScriptHost

/-- Whether an event tells the owner of a handle of work in its mailbox. -/
def Event.tells (h : HandleId) : Event → Bool
  | .serve k => k = h
  | _ => false

/-- How many events tell of work in the mailbox of a handle. -/
def Agenda.notices (a : Agenda Event Handler) (h : HandleId) : Nat :=
  a.events.countP (·.tells h)

theorem Agenda.notices_le {a a' : Agenda Event Handler} (ha : a.events <+: a'.events) {h : HandleId} :
    a.notices h ≤ a'.notices h :=
  ha.sublist.countP_le

/-- Whether a handle is held and not deleted. -/
def Handle.live (handle : Handle) : Bool :=
  handle.exists && !handle.deleted

namespace World

variable {w w' w'' : World} {h k : HandleId} {r : ReplyId} {t : ThreadId} {queued : Queued}

/-! ### Mailboxes and replies -/

/-- The work in the mailbox of a handle. -/
def queueOf (w : World) (h : HandleId) : List Queued :=
  ((w.handles.get? h).map (·.mailbox.queue)).getD []

/-- How much work is in the mailbox of a handle of which its owner is not to hear any more. -/
def untold (w : World) (h : HandleId) : Nat :=
  (w.queueOf h).length - (w.agendaOf (w.ownerOf h)).notices h

/-- If a caller waited for some work, it has the answer later on. -/
def Settles (w w' : World) (queued : Queued) : Prop :=
  ∀ r, queued.reply = some r → w.replies.contains r = true → w'.Answered r

theorem queueOf_of_get? {handle : Handle} (hh : w.handles.get? h = some handle) :
    w.queueOf h = handle.mailbox.queue := by
  rw [queueOf, hh]
  rfl

theorem ownerOf_of_get? {handle : Handle} (hh : w.handles.get? h = some handle) :
    w.ownerOf h = handle.owner := by
  rw [ownerOf, hh]
  rfl

theorem isLive_of_get? {handle : Handle} (hh : w.handles.get? h = some handle) :
    w.isLive h = handle.live := by
  rw [isLive, hh]
  rfl

/-! #### A handle that changes -/

theorem ownerOf_modifyHandle {f : Handle → Handle} (hf : ∀ handle, w.handles.get? h = some handle →
    (f handle).owner = handle.owner) (k : HandleId) :
    (w.modifyHandle h f).ownerOf k = w.ownerOf k := by
  rw [ownerOf, get?_modifyHandle, ownerOf]
  split
  · next hk =>
    subst hk
    cases hh : w.handles.get? h with
    | none => rfl
    | some handle => exact hf handle hh
  · rfl

theorem queueOf_modifyHandle_of_ne (hk : h ≠ k) (f : Handle → Handle) :
    (w.modifyHandle h f).queueOf k = w.queueOf k := by
  rw [queueOf, get?_modifyHandle, if_neg hk, queueOf]

theorem queueOf_modifyHandle {f : Handle → Handle}
    (hf : ∀ handle, (f handle).mailbox.queue = handle.mailbox.queue) (w : World) (h k : HandleId) :
    (w.modifyHandle h f).queueOf k = w.queueOf k := by
  rw [queueOf, get?_modifyHandle, queueOf]
  split
  · next hk =>
    subst hk
    cases w.handles.get? h with
    | none => rfl
    | some handle => exact hf handle
  · rfl

theorem isLive_modifyHandle_of_ne (hk : h ≠ k) (f : Handle → Handle) :
    (w.modifyHandle h f).isLive k = w.isLive k := by
  rw [isLive, get?_modifyHandle, if_neg hk, isLive]

/-! #### What is not there -/

theorem mem_keys_of_isLive (h' : w.isLive h = true) : h ∈ w.handles.keys := by
  rw [isLive] at h'
  cases hh : w.handles.get? h with
  | none => rw [hh] at h'; cases h'
  | some handle => exact Table.mem_keys_iff.2 (by rw [hh]; rfl)

theorem queueOf_of_not_mem (h' : h ∉ w.handles.keys) : w.queueOf h = [] := by
  rw [queueOf, Table.get?_eq_none_iff.2 h']
  rfl

theorem untold_of_not_mem (h' : h ∉ w.handles.keys) : w.untold h = 0 := by
  rw [untold, queueOf_of_not_mem h']
  exact Nat.zero_sub _

theorem agendaOf_of_not_registered (ht : w.isRegistered t = false) : w.agendaOf t = {} := by
  have hnone : w.threads.get? t = none := by
    rwa [isRegistered, Table.contains, Option.isSome_eq_false_iff, Option.isNone_iff_eq_none] at ht
  rw [agendaOf, hnone]
  rfl

theorem Answered.contains (h' : w.Answered r) : w.replies.contains r = true := by
  obtain ⟨reply, hreply, -⟩ := h'
  rw [Table.contains, hreply]
  rfl

/-! ### What is attended to -/

/-- The threads, handles and replies that are there have ids that were given away. -/
structure Issued (w : World) : Prop where
  thread : ∀ t, w.isRegistered t = true → t < w.nextThread
  nodup : w.handles.keys.Nodup
  handle : ∀ h ∈ w.handles.keys, h < w.hub.nextHandle ∧ w.ownerOf h < w.nextThread
  reply : ∀ r, w.replies.contains r = true → r < w.nextReply

/-- What becomes of agendas, mailboxes and replies from one world to the other: agendas keep their records,
the owner of a handle is told of all work that is new, and answers stay. -/
structure Minds (w w' : World) : Prop where
  issued : w'.Issued
  nextThread : w.nextThread ≤ w'.nextThread
  registered : ∀ t < w.nextThread, w'.isRegistered t = true → w.isRegistered t = true
  agenda : ∀ t, w'.isRegistered t = true → Agenda.Course (w.agendaOf t) (w'.agendaOf t)
  handle : ∀ h ∈ w.handles.keys, h ∈ w'.handles.keys ∧ w'.ownerOf h = w.ownerOf h ∧
    (w'.isLive h = true → w.isLive h = true)
  untold : ∀ h, w'.isLive h = true → w'.isRegistered (w'.ownerOf h) = true →
    w'.untold h ≤ w.untold h
  reply : ∀ r, w.replies.contains r = true → w'.replies.contains r = true
  answered : ∀ r, w.Answered r → w'.Answered r

/-- Besides, work stays in the mailbox of a live handle until its caller has the answer. -/
structure Heeds (w w' : World) : Prop extends Minds w w' where
  settles : ∀ h, w'.isLive h = true → ∀ queued ∈ w.queueOf h,
    queued ∈ w'.queueOf h ∨ w.Settles w' queued

/-- What is done attends to whatever is to be attended to. -/
def Attends (w w' : World) : Prop :=
  w.Issued → w.Heeds w'

theorem Minds.trans (hw : w.Issued) (h : w.Minds w') (h' : w'.Minds w'') : w.Minds w'' where
  issued := h'.issued
  nextThread := Nat.le_trans h.nextThread h'.nextThread
  registered t ht ht' :=
    h.registered t ht (h'.registered t (Nat.lt_of_lt_of_le ht h.nextThread) ht')
  agenda t ht := by
    refine .trans ?_ (h'.agenda t ht)
    cases hmid : w'.isRegistered t with
    | true => exact h.agenda t hmid
    -- the thread was made later, so it is not there in the beginning either
    | false =>
      have hnone : w.isRegistered t = false := by
        by_contra hold
        have hlt := Nat.lt_of_lt_of_le (hw.thread t (Bool.of_not_eq_false hold)) h.nextThread
        exact Bool.false_ne_true (hmid.symm.trans (h'.registered t hlt ht))
      rw [agendaOf_of_not_registered hmid, agendaOf_of_not_registered hnone]
  handle k hk := by
    obtain ⟨hmem, howner, hlive⟩ := h.handle k hk
    obtain ⟨hmem', howner', hlive'⟩ := h'.handle k hmem
    exact ⟨hmem', howner'.trans howner, fun hl => hlive (hlive' hl)⟩
  untold k hlive ht := by
    refine Nat.le_trans (h'.untold k hlive ht) ?_
    by_cases hk : k ∈ w'.handles.keys
    · obtain ⟨-, howner, hbefore⟩ := h'.handle k hk
      rw [howner] at ht
      exact h.untold k (hbefore hlive) (h'.registered _ (h.issued.handle k hk).2 ht)
    · rw [untold_of_not_mem hk]
      exact Nat.zero_le _
  reply r hr := h'.reply r (h.reply r hr)
  answered r hr := h'.answered r (h.answered r hr)

/-- A handle with work that is live in the end was so all the time. -/
theorem Minds.isLive (h : w.Minds w') (hmem : queued ∈ w.queueOf k) (hlive : w'.isLive k = true) :
    w.isLive k = true := by
  refine (h.handle k ?_).2.2 hlive
  by_contra hnot
  rw [queueOf_of_not_mem hnot] at hmem
  exact List.not_mem_nil hmem

theorem Heeds.trans (hw : w.Issued) (h : w.Heeds w') (h' : w'.Heeds w'') : w.Heeds w'' where
  toMinds := h.toMinds.trans hw h'.toMinds
  settles k hlive queued hqueued := by
    have hlive' : w'.isLive k = true := by
      have hlater := (h.toMinds.trans hw h'.toMinds).isLive hqueued hlive
      exact (h'.handle k (h.handle k (mem_keys_of_isLive hlater)).1).2.2 hlive
    rcases h.settles k hlive' queued hqueued with hstill | hsettled
    · refine (h'.settles k hlive queued hstill).imp_right fun hsettled r hr hknown => ?_
      exact hsettled r hr (h.reply r hknown)
    · exact .inr fun r hr hknown => h'.answered r (hsettled r hr hknown)

theorem Attends.trans (h : w.Attends w') (h' : w'.Attends w'') : w.Attends w'' :=
  fun hw => (h hw).trans hw (h' (h hw).issued)

/-- The ids of the threads, handles and replies that are made next. -/
def ids (w : World) : ThreadId × HandleId × ReplyId :=
  (w.nextThread, w.hub.nextHandle, w.nextReply)

/-- No thread, handle or reply is made or goes. -/
theorem Minds.of_same (hw : w.Issued) (hids : w'.ids = w.ids)
    (hkeys : w'.handles.keys = w.handles.keys)
    (hreplies : ∀ r, w'.replies.contains r = w.replies.contains r)
    (hthread : ∀ t, w'.isRegistered t = w.isRegistered t) (howner : ∀ h, w'.ownerOf h = w.ownerOf h)
    (hagenda : ∀ t, Agenda.Course (w.agendaOf t) (w'.agendaOf t))
    (hanswered : ∀ r, w.Answered r → w'.Answered r)
    (hlive : ∀ h, w'.isLive h = true → w.isLive h = true ∧ w'.untold h ≤ w.untold h) :
    w.Minds w' := by
  simp only [ids, Prod.mk.injEq] at hids
  obtain ⟨hnextThread, hnextHandle, hnextReply⟩ := hids
  refine ⟨⟨fun t ht => ?_, ?_, fun h hh => ?_, fun r hr => ?_⟩, ?_, fun t _ ht => ?_,
    fun t _ => hagenda t, fun h hh => ?_, fun h hh _ => (hlive h hh).2, fun r hr => ?_, hanswered⟩
  · rw [hnextThread]
    exact hw.thread t ((hthread t).symm.trans ht)
  · rw [hkeys]
    exact hw.nodup
  · rw [howner, hnextHandle, hnextThread]
    exact hw.handle h (hkeys ▸ hh)
  · rw [hnextReply]
    exact hw.reply r ((hreplies r).symm.trans hr)
  · exact Nat.le_of_eq hnextThread.symm
  · exact (hthread t).symm.trans ht
  · exact ⟨hkeys ▸ hh, howner h, fun hl => (hlive h hl).1⟩
  · rw [hreplies, hr]

theorem Attends.of_same (hids : w'.ids = w.ids) (hkeys : w'.handles.keys = w.handles.keys)
    (hreplies : ∀ r, w'.replies.contains r = w.replies.contains r)
    (hthread : ∀ t, w'.isRegistered t = w.isRegistered t) (howner : ∀ h, w'.ownerOf h = w.ownerOf h)
    (hagenda : ∀ t, Agenda.Course (w.agendaOf t) (w'.agendaOf t))
    (hanswered : ∀ r, w.Answered r → w'.Answered r)
    (hlive : ∀ h, w'.isLive h = true → w.isLive h = true ∧ w'.untold h ≤ w.untold h ∧
      ∀ queued ∈ w.queueOf h, queued ∈ w'.queueOf h ∨ w.Settles w' queued) : w.Attends w' := by
  refine fun hw => ⟨.of_same hw hids hkeys hreplies hthread howner hagenda hanswered fun h hh => ?_,
    fun h hh => (hlive h hh).2.2⟩
  exact ⟨(hlive h hh).1, (hlive h hh).2.1⟩

/-- What is attended to: the threads, the handles, the replies and the ids. -/
def desk (w : World) :
    Table ThreadId Thread × Table HandleId Handle × Table ReplyId Reply ×
      ThreadId × HandleId × ReplyId :=
  (w.threads, w.handles, w.replies, w.ids)

theorem Attends.of_desk_eq (h : w'.desk = w.desk) : w.Attends w' := by
  simp only [desk, Prod.mk.injEq] at h
  obtain ⟨hthreads, hhandles, hreplies, hids⟩ := h
  have hqueue (k : HandleId) : w'.queueOf k = w.queueOf k := by rw [queueOf, hhandles, queueOf]
  have howner (k : HandleId) : w'.ownerOf k = w.ownerOf k := by rw [ownerOf, hhandles, ownerOf]
  have hagenda (t : ThreadId) : w'.agendaOf t = w.agendaOf t := by rw [agendaOf, hthreads, agendaOf]
  refine .of_same hids (by rw [hhandles]) (fun r => by rw [hreplies]) (fun t => ?_) howner (fun t => ?_)
    (fun r hr => ?_) fun k hk => ⟨?_, ?_, fun queued hqueued => .inl ?_⟩
  · rw [isRegistered, hthreads, isRegistered]
  · rw [hagenda]
  · rwa [Answered, hreplies]
  · rwa [isLive, hhandles] at hk
  · rw [untold, hqueue, howner, hagenda, untold]
  · rwa [hqueue]

theorem Attends.refl (w : World) : w.Attends w :=
  .of_desk_eq rfl

theorem Attends.foldl {α : Type} {f : World → α → World} (hf : ∀ w a, Attends w (f w a))
    (as : List α) (w : World) : w.Attends (as.foldl f w) := by
  induction as generalizing w with
  | nil => exact .refl w
  | cons a as ih => exact (hf w a).trans (ih (f w a))

/-! ### Agendas -/

/-- The work in all mailboxes is the same, and nothing is told of it any less. -/
theorem untold_le (hqueue : w'.queueOf h = w.queueOf h)
    (hnotices : (w.agendaOf (w.ownerOf h)).notices h ≤ (w'.agendaOf (w'.ownerOf h)).notices h) :
    w'.untold h ≤ w.untold h := by
  rw [untold, hqueue]
  exact Nat.sub_le_sub_left hnotices _

/-- What holds of the agenda of a thread that changes, and of any that does not, holds of all agendas. -/
theorem rel_agendaOf_modifyThread {P : Agenda Event Handler → Agenda Event Handler → Prop}
    (hrefl : ∀ a, P a a) {f : Thread → Thread}
    (hf : ∀ thread, w.threads.get? t = some thread → P thread.agenda (f thread).agenda)
    (t' : ThreadId) : P (w.agendaOf t') ((w.modifyThread t f).agendaOf t') := by
  rw [agendaOf_modifyThread]
  split
  · next ht =>
    subst ht
    rw [agendaOf]
    cases hthread : w.threads.get? t with
    | none => exact hrefl _
    | some thread => exact hf thread hthread
  · exact hrefl _

/-- The same for the thread that is running. -/
theorem rel_agendaOf_setAgenda {P : Agenda Event Handler → Agenda Event Handler → Prop}
    (hrefl : ∀ a, P a a) {a : Agenda Event Handler} (ha : P w.agenda a) (t : ThreadId) :
    P (w.agendaOf t) ((w.setAgenda a).agendaOf t) := by
  refine rel_agendaOf_modifyThread hrefl (fun thread hthread => ?_) t
  rwa [agenda_eq_of_get? hthread] at ha

theorem attends_modifyThread {f : Thread → Thread}
    (hf : ∀ thread, w.threads.get? t = some thread → Agenda.Course thread.agenda (f thread).agenda ∧
      ∀ h, thread.agenda.notices h ≤ (f thread).agenda.notices h) :
    w.Attends (w.modifyThread t f) := by
  have hall := rel_agendaOf_modifyThread (P := fun a a' => Agenda.Course a a' ∧
    ∀ h, a.notices h ≤ a'.notices h) (fun _ => ⟨.refl, fun _ => Nat.le_refl _⟩) hf
  exact .of_same rfl rfl (fun _ => rfl) (isRegistered_modifyThread w t · f) (fun _ => rfl)
    (fun t' => (hall t').1) (fun _ => id)
    fun h hlive => ⟨hlive, untold_le rfl ((hall _).2 h), fun _ => .inl⟩

/-- A thread may change apart from its agenda. -/
theorem attends_editThread {f : Thread → Thread} (hf : ∀ thread, (f thread).agenda = thread.agenda)
    (w : World) (t : ThreadId) : w.Attends (w.modifyThread t f) := by
  refine attends_modifyThread fun thread _ => ?_
  rw [hf]
  exact ⟨.refl, fun _ => Nat.le_refl _⟩

theorem attends_enterCallback (w : World) : w.Attends w.enterCallback := by
  apply attends_editThread
  intro thread
  rfl

theorem attends_leaveCallback (w : World) : w.Attends w.leaveCallback := by
  apply attends_editThread
  intro thread
  rfl

theorem attends_modifyAgenda {f : Agenda Event Handler → Agenda Event Handler}
    (hf : ∀ a, Agenda.Step a (f a) ∧ a.events <+: (f a).events) (w : World) (t : ThreadId) :
    w.Attends (w.modifyAgenda t f) :=
  attends_modifyThread fun thread _ => ⟨.single (hf thread.agenda).1, fun _ =>
    Agenda.notices_le (hf thread.agenda).2⟩

theorem attends_setAgenda {a : Agenda Event Handler} (ha : Agenda.Step w.agenda a)
    (hnotices : ∀ h, w.agenda.notices h ≤ a.notices h) : w.Attends (w.setAgenda a) := by
  refine attends_modifyThread fun thread hthread => ?_
  rw [agenda_eq_of_get? hthread] at ha hnotices
  exact ⟨.single ha, hnotices⟩

theorem attends_alert (w : World) (t : ThreadId) : w.Attends (w.alert t) :=
  attends_modifyAgenda (fun _ => ⟨.setAlerted true, List.prefix_refl _⟩) w t

theorem attends_alertAll (w : World) : w.Attends w.alertAll :=
  .foldl attends_alert _ w

theorem attends_post (w : World) (t : ThreadId) (event : Event) : w.Attends (w.post t event) :=
  (attends_modifyAgenda (fun _ => ⟨.post event, List.prefix_append _ _⟩) w t).trans (attends_alert _ t)

theorem attends_addTimer (w : World) (deadline : Time) (handler : Handler) :
    w.Attends (w.setAgenda (w.agenda.addTimer deadline handler).2) :=
  attends_setAgenda (.addTimer deadline handler) fun _ => Nat.le_refl _

theorem attends_addIdle (w : World) (handler : Handler) :
    w.Attends (w.setAgenda (w.agenda.addIdle handler).2) :=
  attends_setAgenda (.addIdle handler) fun _ => Nat.le_refl _

theorem attends_cancelAfter (w : World) (token : AfterToken) : w.Attends (w.cancelAfter token) := by
  cases token with
  | timer token =>
    refine attends_setAgenda (.cancelTimer token) fun _ => Agenda.notices_le ?_
    rw [Agenda.cancelTimer]
    split <;> exact List.prefix_refl _
  | idle token => exact attends_setAgenda (.cancelIdle token) fun _ => Nat.le_refl _

/-! ### Replies -/

theorem contains_answerQueued (w : World) (queued : Queued) (envelope : Envelope) (r : ReplyId) :
    (w.answerQueued queued envelope).replies.contains r = w.replies.contains r := by
  rw [answerQueued]
  split
  · rw [Table.contains, get?_answer, Table.contains]
    split
    · exact Option.isSome_map
    · rfl
  · rfl

/-- An answer is given to whoever waits. -/
theorem settles_answerQueued (w : World) (queued : Queued) (envelope : Envelope) :
    w.Settles (w.answerQueued queued envelope) queued := by
  intro r hr hknown
  obtain ⟨reply, hreply⟩ := Option.isSome_iff_exists.1 hknown
  exact answered_answerQueued hr hreply

/-- Only replies change. -/
theorem attends_setReplies {replies : Table ReplyId Reply}
    (hreplies : ∀ r, replies.contains r = w.replies.contains r)
    (hanswered : ∀ r, w.Answered r → Answered { w with replies } r) :
    w.Attends { w with replies } :=
  .of_same rfl rfl hreplies (fun _ => rfl) (fun _ => rfl) (fun _ => .refl) hanswered
    fun _ hlive => ⟨hlive, Nat.le_refl _, fun _ => .inl⟩

theorem attends_answerQueued (w : World) (queued : Queued) (envelope : Envelope) :
    w.Attends (w.answerQueued queued envelope) := by
  have hcontains := contains_answerQueued w queued envelope
  have hanswered (r : ReplyId) (hr : w.Answered r) := hr.answerQueued queued envelope
  obtain ⟨replies, heq⟩ := answerQueued_eq w queued envelope
  rw [heq] at hcontains hanswered ⊢
  exact attends_setReplies hcontains hanswered

/-- A reply may change apart from its answer. -/
theorem attends_modifyReply {f : Reply → Reply} (hf : ∀ reply, (f reply).answer = reply.answer)
    (w : World) (r : ReplyId) : w.Attends { w with replies := w.replies.modify r f } := by
  have hget (s : ReplyId) := Table.get?_modify w.replies r s f
  refine attends_setReplies (fun s => ?_) fun s ⟨reply, hreply, hsome⟩ => ?_
  · rw [Table.contains, hget, Table.contains]
    split
    · exact Option.isSome_map
    · rfl
  · rw [Answered, hget]
    split
    · exact ⟨f reply, by rw [hreply]; rfl, by rw [hf]; exact hsome⟩
    · exact ⟨reply, hreply, hsome⟩

theorem attends_loseReplies (w : World) (pending : List Queued) : w.Attends (w.loseReplies pending) := by
  refine .foldl (fun w queued => ?_) pending w
  split
  · apply attends_modifyReply
    intro reply
    rfl
  · exact .refl w

theorem attends_newReply (w : World) : w.Attends w.newReply.2 := by
  intro hw
  have hcontains (r : ReplyId) :
      w.newReply.2.replies.contains r = (decide (w.nextReply = r) || w.replies.contains r) := by
    rw [Table.contains, get?_newReply, Table.contains]
    by_cases hr : w.nextReply = r <;> simp [hr]
  have hissued : w.newReply.2.Issued := by
    refine ⟨hw.thread, hw.nodup, hw.handle, fun r hr => ?_⟩
    rw [hcontains, Bool.or_eq_true, decide_eq_true_eq] at hr
    rcases hr with rfl | hold
    · exact Nat.lt_succ_self _
    · exact Nat.lt_succ_of_lt (hw.reply r hold)
  refine ⟨⟨hissued, Nat.le_refl _, fun _ _ ht => ht, fun _ _ => .refl, fun _ hh => ⟨hh, rfl, id⟩,
    fun _ _ _ => Nat.le_refl _, fun r hr => ?_, fun r hr => ?_⟩, fun _ _ _ => .inl⟩
  · rw [hcontains, hr, Bool.or_true]
  · have hne : w.nextReply ≠ r := (Nat.ne_of_lt (hw.reply r hr.contains)).symm
    rwa [Answered, get?_newReply, if_neg hne]

/-! ### Handles -/

/-- A handle may change if it keeps its owner and, as long as it is live, all work in its mailbox whose
caller has no answer. -/
theorem attends_modifyHandle {f : Handle → Handle}
    (hf : ∀ handle, w.handles.get? h = some handle → (f handle).owner = handle.owner ∧
      ((f handle).live = true → handle.live = true ∧
        (f handle).mailbox.queue.length ≤ handle.mailbox.queue.length ∧
        ∀ queued ∈ handle.mailbox.queue,
          queued ∈ (f handle).mailbox.queue ∨ w.Settles w queued)) :
    w.Attends (w.modifyHandle h f) := by
  have howner := ownerOf_modifyHandle fun handle hh => (hf handle hh).1
  refine .of_same rfl (Table.keys_modify _ _ _) (fun _ => rfl) (fun _ => rfl) howner (fun _ => .refl)
    (fun _ => id) fun k hlive => ?_
  by_cases hk : h = k
  · subst hk
    cases hh : w.handles.get? h with
    | none =>
      have hmem := mem_keys_of_isLive hlive
      rw [Table.mem_keys_iff, get?_modifyHandle, if_pos rfl, hh] at hmem
      cases hmem
    | some handle =>
      have hself := get?_modifyHandle_self hh f
      rw [isLive_of_get? hself] at hlive
      obtain ⟨hbefore, hlength, hkept⟩ := (hf handle hh).2 hlive
      rw [untold, untold, howner, queueOf_of_get? hself, queueOf_of_get? hh, isLive_of_get? hh]
      exact ⟨hbefore, Nat.sub_le_sub_right hlength _, hkept⟩
  · rw [isLive_modifyHandle_of_ne hk] at hlive
    rw [untold, untold, howner, queueOf_modifyHandle_of_ne hk]
    exact ⟨hlive, Nat.le_refl _, fun _ => .inl⟩

/-- A handle may change apart from its owner and the work in its mailbox, but it does not come to
life. -/
theorem attends_editHandle {f : Handle → Handle} (hf : ∀ handle, (f handle).owner = handle.owner ∧
    (f handle).mailbox.queue = handle.mailbox.queue ∧ ((f handle).live = true → handle.live = true))
    (w : World) (h : HandleId) : w.Attends (w.modifyHandle h f) := by
  refine attends_modifyHandle fun handle _ => ⟨(hf handle).1, fun hlive => ?_⟩
  rw [(hf handle).2.1]
  exact ⟨(hf handle).2.2 hlive, Nat.le_refl _, fun _ => .inl⟩

/-- Of a handle that is not live any more nothing is said. -/
theorem attends_endHandle {f : Handle → Handle} (hf : ∀ handle, w.handles.get? h = some handle →
    (f handle).owner = handle.owner ∧ (f handle).live = false) : w.Attends (w.modifyHandle h f) := by
  refine attends_modifyHandle fun handle hh => ⟨(hf handle hh).1, fun hlive => ?_⟩
  exact absurd ((hf handle hh).2.symm.trans hlive) Bool.false_ne_true

/-- Whoever waits for some of the work gets the answer. -/
theorem foldl_answerQueued_eq (envelope : Envelope) (waiting : List Queued) (w : World) :
    ∃ replies, waiting.foldl (fun w queued => w.answerQueued queued envelope) w = { w with replies } ∧
      (∀ r, replies.contains r = w.replies.contains r) ∧
      ∀ queued ∈ waiting, w.Settles { w with replies } queued := by
  induction waiting generalizing w with
  | nil => exact ⟨w.replies, rfl, fun _ => rfl, nofun⟩
  | cons first rest ih =>
    obtain ⟨replies, heq, hcontains, hsettles⟩ := ih (w.answerQueued first envelope)
    have hfirst (r : ReplyId) (hr : first.reply = some r) (hknown : w.replies.contains r = true) :=
      Answered.foldl (fun w queued hr => hr.answerQueued queued envelope) rest
        (settles_answerQueued w first envelope r hr hknown)
    rw [heq] at hfirst
    have hkept := contains_answerQueued w first envelope
    rw [List.foldl_cons, heq]
    obtain ⟨_, hanswer⟩ := answerQueued_eq w first envelope
    rw [hanswer] at hcontains hsettles hfirst hkept ⊢
    refine ⟨replies, rfl, fun r => (hcontains r).trans (hkept r), fun queued hmem r hr hknown => ?_⟩
    rcases List.mem_cons.1 hmem with rfl | hrest
    · exact hfirst r hr hknown
    · exact hsettles queued hrest r hr ((hkept r).trans hknown)

theorem foldl_answerQueued_modifyHandle (envelope : Envelope) (waiting : List Queued) (w : World)
    (h : HandleId) (f : Handle → Handle) :
    waiting.foldl (fun w queued => w.answerQueued queued envelope) (w.modifyHandle h f) =
      (waiting.foldl (fun w queued => w.answerQueued queued envelope) w).modifyHandle h f := by
  induction waiting generalizing w with
  | nil => rfl
  | cons queued rest ih => rw [List.foldl_cons, ← modifyHandle_answerQueued, ih, List.foldl_cons]

/-- All work in the mailbox of a handle is answered and thrown out. -/
theorem attends_throwOut {handle : Handle} (hh : w.handles.get? h = some handle) {f : Handle → Handle}
    (hf : (f handle).owner = handle.owner ∧ (f handle).mailbox.queue = [] ∧
      ((f handle).live = true → handle.live = true))
    {waiting : List Queued} (hwaiting : handle.mailbox.queue ⊆ waiting) (envelope : Envelope) :
    w.Attends (waiting.foldl (fun w queued => w.answerQueued queued envelope) (w.modifyHandle h f)) := by
  rw [foldl_answerQueued_modifyHandle]
  have hanswer : w.Attends (waiting.foldl (fun w queued => w.answerQueued queued envelope) w) :=
    .foldl (fun w queued => attends_answerQueued w queued _) _ w
  obtain ⟨replies, heq, hcontains, hsettles⟩ := foldl_answerQueued_eq envelope waiting w
  rw [heq] at hanswer ⊢
  refine hanswer.trans (attends_modifyHandle fun handle' hh' => ?_)
  cases hh.symm.trans hh'
  rw [hf.2.1]
  refine ⟨hf.1, fun hlive => ⟨hf.2.2 hlive, Nat.zero_le _, fun queued hmem => .inr ?_⟩⟩
  exact fun r hr hknown => hsettles queued (hwaiting hmem) r hr ((hcontains r).symm.trans hknown)

theorem attends_drainMailbox (w : World) (h : HandleId) (error : HostError) :
    w.Attends (w.drainMailbox h error) := by
  rw [drainMailbox]
  split
  · exact .refl w
  · next handle hh =>
    have hdrained : handle.mailbox.drain.2.queue = [] := rfl
    exact attends_throwOut hh ⟨rfl, hdrained, id⟩ (List.Subset.refl _) _

theorem rel_agendaOf_post (w : World) (t : ThreadId) (event : Event) (t' : ThreadId) :
    Agenda.Course (w.agendaOf t') ((w.post t event).agendaOf t') ∧
      ∀ h, (w.agendaOf t').notices h ≤ ((w.post t event).agendaOf t').notices h := by
  have hpost := rel_agendaOf_modifyThread (w := w) (t := t)
    (P := fun a a' => Agenda.Course a a' ∧ a.events <+: a'.events) (fun _ => ⟨.refl, List.prefix_refl _⟩)
    (f := fun thread => { thread with agenda := thread.agenda.post event })
    (fun _ _ => ⟨.single (.post event), List.prefix_append _ _⟩) t'
  have halert := rel_agendaOf_modifyThread (w := w.modifyAgenda t (·.post event)) (t := t)
    (P := Agenda.Course) (fun _ => .refl)
    (f := fun thread => { thread with agenda := thread.agenda.alert })
    (fun _ _ => .single (.setAlerted true)) t'
  refine ⟨hpost.1.trans halert, fun h => Agenda.notices_le ?_⟩
  rw [post, events_alert]
  exact hpost.2

/-- The owner is told of work that is put into a mailbox. -/
theorem attends_push_post {handle : Handle} (hh : w.handles.get? h = some handle)
    (hthere : w.isRegistered handle.owner = true) (queued : Queued) :
    w.Attends ((w.push h queued).post handle.owner (.serve h)) := by
  have hagenda (t : ThreadId) : ((w.push h queued).post handle.owner (.serve h)).agendaOf t =
      (w.post handle.owner (.serve h)).agendaOf t := rfl
  have howner (k : HandleId) : ((w.push h queued).post handle.owner (.serve h)).ownerOf k = w.ownerOf k :=
    ownerOf_modifyHandle (f := fun handle => { handle with mailbox := handle.mailbox.push queued })
      (fun _ _ => rfl) k
  refine .of_same rfl (Table.keys_modify _ _ _) (fun _ => rfl) (isRegistered_post w _ · _) howner
    (fun t => (rel_agendaOf_post w handle.owner _ t).1) (fun _ => id) fun k hlive => ?_
  by_cases hk : h = k
  · subst hk
    have hself : ((w.push h queued).post handle.owner (.serve h)).handles.get? h =
        some { handle with mailbox := handle.mailbox.push queued } := get?_modifyHandle_self hh _
    have hqueue : ((w.push h queued).post handle.owner (.serve h)).queueOf h = w.queueOf h ++ [queued] := by
      rw [queueOf_of_get? hself, queueOf_of_get? hh]
      rfl
    have hnotices : ((w.post handle.owner (.serve h)).agendaOf handle.owner).notices h =
        (w.agendaOf handle.owner).notices h + 1 := by
      rw [Agenda.notices, events_post_self hthere, List.countP_append]
      simp [Event.tells, Agenda.notices]
    rw [isLive_of_get? hself] at hlive
    refine ⟨(isLive_of_get? hh).trans hlive, ?_, fun former hmem => .inl ?_⟩
    · rw [untold, untold, howner, hagenda, hqueue, ownerOf_of_get? hh, hnotices, List.length_append]
      exact Nat.le_of_eq (Nat.add_sub_add_right _ _ _)
    · rw [hqueue]
      exact List.mem_append_left _ hmem
  · have hqueue : ((w.push h queued).post handle.owner (.serve h)).queueOf k = w.queueOf k :=
      queueOf_modifyHandle_of_ne hk _
    refine ⟨(isLive_modifyHandle_of_ne hk _).symm.trans hlive, untold_le hqueue ?_,
      fun former hmem => .inl ?_⟩
    · rw [howner, hagenda]
      exact (rel_agendaOf_post w _ _ _).2 k
    · rwa [hqueue]

theorem attends_submit (w : World) (h : HandleId) (work : Work) (reply : Option ReplyId) :
    w.Attends (w.submit h work reply).2 := by
  rw [submit]
  split
  · exact .refl w
  · split
    · exact .refl w
    · next handle hh =>
      dsimp only
      split
      · next hthere =>
        dsimp only
        split
        · next hdeleted =>
          have hpush : w.Attends (w.push h ⟨work, reply⟩) := by
            refine attends_endHandle fun handle' hh' => ⟨rfl, ?_⟩
            cases hh.symm.trans hh'
            simp [Handle.live, hdeleted]
          exact (hpush.trans (attends_post _ _ _)).trans (attends_drainMailbox _ h _)
        · exact attends_push_post hh hthere _
      · have hself := get?_modifyHandle_self hh fun u =>
          { u with mailbox := u.mailbox.push ⟨work, reply⟩ }
        rw [drainMailbox, hself]
        dsimp only
        rw [modifyHandle_modifyHandle]
        exact attends_throwOut hh ⟨rfl, rfl, id⟩ (List.subset_append_left _ _) _

/-- A handle may change apart from its entry in the ledger and its mailbox. -/
theorem attends_modifyHandle_of_standing_eq {f : Handle → Handle}
    (hf : ∀ handle, (f handle).standing = handle.standing ∧ (f handle).mailbox = handle.mailbox)
    (w : World) (h : HandleId) : w.Attends (w.modifyHandle h f) := by
  refine attends_editHandle (fun handle => ⟨?_, by rw [(hf handle).2], fun hlive => ?_⟩) w h
  · exact congrArg Standing.owner (hf handle).1
  · exact (congrArg (fun s : Standing => s.held && !s.deleted) (hf handle).1).symm.trans hlive

theorem attends_markDeleted (w : World) (h : HandleId) : w.Attends (w.markDeleted h) := by
  rw [markDeleted]
  split
  · exact .refl w
  · split
    · exact .refl w
    · have hmark : w.Attends (w.modifyHandle h fun handle => { handle with deleted := true }) :=
        attends_endHandle fun handle _ => ⟨rfl, by simp [Handle.live]⟩
      have hdrop (w : World) : w.Attends (w.modifyHandle h fun handle =>
          { handle with callbacks := handle.callbacks.clear, evaluator := none }) := by
        apply attends_modifyHandle_of_standing_eq
        intro handle
        exact ⟨rfl, rfl⟩
      have hforget (w : World) : w.Attends (w.unregister h) := .of_desk_eq rfl
      have hgone := hmark.trans (hforget _)
      exact (hgone.trans (attends_drainMailbox _ h .deleted)).trans (hdrop _)

theorem queueOf_foldl_answerQueued (waiting : List Queued) (envelope : Envelope) (w : World)
    (k : HandleId) :
    (waiting.foldl (fun w queued => w.answerQueued queued envelope) w).queueOf k = w.queueOf k := by
  obtain ⟨replies, heq, -⟩ := foldl_answerQueued_eq envelope waiting w
  rw [heq]
  rfl

theorem queueOf_drainMailbox (w : World) (h : HandleId) (error : HostError) :
    (w.drainMailbox h error).queueOf h = [] := by
  rw [drainMailbox]
  split
  · next hnone =>
    rw [queueOf, hnone]
    rfl
  · next handle hh =>
    dsimp only
    rw [queueOf_foldl_answerQueued, queueOf_of_get? (get?_modifyHandle_self hh _)]
    rfl

/-- No work comes into an empty mailbox when its handle is deleted. -/
theorem queueOf_markDeleted (hempty : w.queueOf h = []) : (w.markDeleted h).queueOf h = [] := by
  rw [markDeleted]
  split
  · exact hempty
  · split
    · exact hempty
    · refine (queueOf_modifyHandle ?_ _ h h).trans (queueOf_drainMailbox _ h _)
      intro handle
      rfl

theorem queueOf_untrack (hempty : w.queueOf h = []) : (w.untrack h).queueOf h = [] := by
  have hgone : ((w.takeInterp h).2.unregister h).queueOf h = [] := by
    refine (queueOf_modifyHandle ?_ w h h).trans hempty
    intro handle
    rfl
  rw [untrack]
  refine (queueOf_modifyHandle ?_ _ h h).trans ?_
  · intro handle
    rfl
  split
  · split
    · exact queueOf_markDeleted hgone
    · exact hgone
  · exact hgone

/-- A handle may lose the interpreter. -/
theorem attends_takeInterp (w : World) (h : HandleId) : w.Attends (w.takeInterp h).2 := by
  apply attends_editHandle
  intro handle
  exact ⟨rfl, rfl, id⟩

theorem attends_unpin (w : World) (h : HandleId) :
    w.Attends (w.modifyHandle h fun handle => { handle with pinned := false }) := by
  apply attends_editHandle
  intro handle
  refine ⟨rfl, rfl, fun hlive => ?_⟩
  simp only [Handle.live, Handle.exists, Bool.and_eq_true, Bool.or_eq_true, Bool.false_or] at hlive ⊢
  exact ⟨.inr hlive.1, hlive.2⟩

theorem attends_untrack (w : World) (h : HandleId) : w.Attends (w.untrack h) := by
  have hgone : w.Attends ((w.takeInterp h).2.unregister h) :=
    (attends_takeInterp w h).trans (.of_desk_eq rfl)
  rw [untrack]
  refine .trans ?_ (attends_unpin _ h)
  split
  · split
    · exact hgone.trans (attends_markDeleted _ h)
    · exact hgone
  · exact hgone

theorem attends_unhold (w : World) (h : HandleId) : w.Attends (w.unhold h) := by
  apply attends_editHandle
  intro handle
  refine ⟨rfl, rfl, fun hlive => ?_⟩
  simp only [Handle.live, Handle.exists, Bool.and_eq_true, Bool.or_eq_true, decide_eq_true_eq] at hlive ⊢
  exact ⟨hlive.1.imp_right fun hheld => Nat.lt_of_lt_of_le hheld (Nat.sub_le _ _), hlive.2⟩

/-- Whoever holds a live handle may hold it once more. -/
theorem attends_hold {handle : Handle} (hh : w.handles.get? h = some handle)
    (hexists : handle.exists = true) : w.Attends (w.hold h) := by
  refine attends_modifyHandle fun handle' hh' => ?_
  cases hh.symm.trans hh'
  refine ⟨rfl, fun hlive => ⟨?_, Nat.le_refl _, fun _ => .inl⟩⟩
  simp only [Handle.live, Bool.and_eq_true] at hlive ⊢
  exact ⟨hexists, hlive.2⟩

theorem attends_startWork (w : World) (h : HandleId) : w.Attends (w.startWork h) := by
  apply attends_editHandle
  intro handle
  exact ⟨rfl, rfl, id⟩

theorem attends_finishWork (w : World) (h : HandleId) (failed : Bool) :
    w.Attends (w.finishWork h failed) := by
  apply attends_editHandle
  intro handle
  exact ⟨rfl, rfl, id⟩

/-! ### What is made -/

/-- A new handle belongs to the thread that is running and has no work yet. -/
theorem get?_addHandle (w : World) (i : InterpId) (config : HandleConfig) :
    ∃ handle : Handle, handle.owner = w.current ∧ handle.mailbox.queue = [] ∧
      ∀ h, (w.addHandle i config).2.handles.get? h =
        if w.hub.nextHandle = h then some handle else w.handles.get? h :=
  ⟨_, rfl, rfl, fun h => Table.get?_insert w.handles w.hub.nextHandle h _⟩

theorem attends_addHandle (hcurrent : w.current < w.nextThread) (i : InterpId) (config : HandleConfig) :
    w.Attends (w.addHandle i config).2 := by
  intro hw
  have hnew {h : HandleId} (hh : h ∈ w.handles.keys) : w.hub.nextHandle ≠ h :=
    (Nat.ne_of_lt (hw.handle h hh).1).symm
  have hkeys : (w.addHandle i config).2.handles.keys = w.handles.keys ++ [w.hub.nextHandle] :=
    Table.keys_insert_of_not_mem (fun hmem => hnew hmem rfl) _
  obtain ⟨handle, howned, hempty, hget⟩ := w.get?_addHandle i config
  have hold {h : HandleId} (hh : h ∈ w.handles.keys) :
      (w.addHandle i config).2.handles.get? h = w.handles.get? h :=
    (hget h).trans (if_neg (hnew hh))
  have hself := (hget w.hub.nextHandle).trans (if_pos rfl)
  have howner {h : HandleId} (hh : h ∈ w.handles.keys) :
      (w.addHandle i config).2.ownerOf h = w.ownerOf h := by rw [ownerOf, hold hh, ownerOf]
  have hqueue (h : HandleId) : (w.addHandle i config).2.queueOf h = w.queueOf h := by
    by_cases hh : h ∈ w.handles.keys
    · rw [queueOf, hold hh, queueOf]
    · rw [queueOf_of_not_mem hh]
      by_cases hlast : w.hub.nextHandle = h
      · rw [← hlast, queueOf_of_get? hself, hempty]
      · rw [queueOf, (hget h).trans (if_neg hlast), Table.get?_eq_none_iff.2 hh]
        rfl
  refine ⟨⟨⟨hw.thread, ?_, fun h hh => ?_, hw.reply⟩, Nat.le_refl _, fun _ _ ht => ht,
    fun _ _ => .refl, fun h hh => ⟨?_, howner hh, fun hlive => ?_⟩, fun h _ _ => ?_, fun _ hr => hr,
    fun _ hr => hr⟩, fun h _ queued hqueued => .inl ?_⟩
  · rw [hkeys, List.nodup_append]
    refine ⟨hw.nodup, List.nodup_singleton _, fun h hh h' hh' => ?_⟩
    rw [List.mem_singleton.1 hh']
    exact (hnew hh).symm
  · rw [hkeys, List.mem_append, List.mem_singleton] at hh
    rcases hh with hh | rfl
    · rw [howner hh]
      exact ⟨Nat.lt_succ_of_lt (hw.handle h hh).1, (hw.handle h hh).2⟩
    · exact ⟨Nat.lt_succ_self _, by rwa [ownerOf_of_get? hself, howned]⟩
  · rw [hkeys]
    exact List.mem_append_left _ hh
  · rwa [isLive, hold hh] at hlive
  · by_cases hh : h ∈ w.handles.keys
    · exact untold_le (hqueue h) (by rw [howner hh]; exact Nat.le_refl _)
    · rw [untold, hqueue, queueOf_of_not_mem hh]
      exact Nat.le_trans (Nat.le_of_eq (Nat.zero_sub _)) (Nat.zero_le _)
  · rwa [hqueue]

/-- Nobody has put work into the mailbox of a new handle yet. -/
theorem queueOf_adopt (w : World) (i : InterpId) (config : HandleConfig) :
    (w.adopt i config).2.queueOf w.hub.nextHandle = [] := by
  have hmade : (w.addHandle i config).2.queueOf w.hub.nextHandle = [] := by
    obtain ⟨handle, -, hempty, hget⟩ := w.get?_addHandle i config
    rw [queueOf_of_get? ((hget _).trans (if_pos rfl)), hempty]
  rw [adopt]
  dsimp only [callWhenDeleted]
  rw [runDeleteHook]
  split
  · exact queueOf_untrack hmade
  · -- the worlds differ, their tables of handles do not
    unfold queueOf at hmade ⊢
    exact hmade

/-- A new handle without work may come to life. -/
theorem Heeds.bring (h' : w.Heeds w') (hnew : h ∉ w.handles.keys) (hempty : w'.queueOf h = [])
    {f : Handle → Handle} (hf : ∀ handle, (f handle).owner = handle.owner ∧
      (f handle).mailbox.queue = handle.mailbox.queue) : w.Heeds (w'.modifyHandle h f) := by
  have hkeys : (w'.modifyHandle h f).handles.keys = w'.handles.keys := Table.keys_modify _ _ _
  have howner := ownerOf_modifyHandle (w := w') (h := h) fun handle _ => (hf handle).1
  have hqueue := queueOf_modifyHandle (fun handle => (hf handle).2) w' h
  have hissued : (w'.modifyHandle h f).Issued := by
    refine ⟨h'.issued.thread, hkeys ▸ h'.issued.nodup, fun k hk => ?_, h'.issued.reply⟩
    rw [howner]
    exact h'.issued.handle k (hkeys ▸ hk)
  have hother {k : HandleId} (hk : k ∈ w.handles.keys) :
      (w'.modifyHandle h f).isLive k = w'.isLive k :=
    isLive_modifyHandle_of_ne (fun heq : h = k => hnew (heq ▸ hk)) f
  refine ⟨⟨hissued, h'.nextThread, h'.registered, h'.agenda, fun k hk => ?_, fun k hlive ht => ?_,
    h'.reply, h'.answered⟩, fun k hlive queued hmem => ?_⟩
  · rw [hkeys, howner, hother hk]
    exact h'.handle k hk
  · by_cases hk : h = k
    · subst hk
      rw [untold, hqueue, hempty]
      exact Nat.le_trans (Nat.le_of_eq (Nat.zero_sub _)) (Nat.zero_le _)
    · rw [isLive_modifyHandle_of_ne hk] at hlive
      rw [howner] at ht
      rw [untold, hqueue, howner]
      exact h'.untold k hlive ht
  · by_cases hk : k ∈ w.handles.keys
    · rw [hother hk] at hlive
      rw [hqueue]
      exact h'.settles k hlive queued hmem
    · rw [queueOf_of_not_mem hk] at hmem
      exact absurd hmem List.not_mem_nil

/-- Threads come or go, and nothing else changes. -/
theorem attends_setThreads {threads : Table ThreadId Thread} {nextThread : ThreadId}
    (hnext : w.nextThread ≤ nextThread)
    (hthreads : w.Issued → ∀ t, (threads.get? t).isSome = true → t < nextThread ∧
      (t < w.nextThread → threads.get? t = w.threads.get? t) ∧
      (w.nextThread ≤ t → threads.get? t = some {})) :
    w.Attends { w with threads, nextThread } := by
  intro hw
  have hagenda {t : ThreadId} (ht : (threads.get? t).isSome = true) :
      agendaOf { w with threads, nextThread } t = w.agendaOf t := by
    obtain ⟨-, hold, hnew⟩ := hthreads hw t ht
    by_cases hlt : t < w.nextThread
    · rw [agendaOf, agendaOf]
      exact congrArg (fun thread : Option Thread => (thread.map (·.agenda)).getD {}) (hold hlt)
    · have hnone : w.isRegistered t = false :=
        Bool.eq_false_iff.2 fun hthere => hlt (hw.thread t hthere)
      rw [agendaOf_of_not_registered hnone, agendaOf]
      exact congrArg (fun thread : Option Thread => (thread.map (·.agenda)).getD {})
        (hnew (Nat.le_of_not_lt hlt))
  refine ⟨⟨⟨fun t ht => (hthreads hw t ht).1, hw.nodup, fun h hh => ?_, hw.reply⟩, hnext,
    fun t hlt ht => ?_, fun t ht => ?_, fun _ hh => ⟨hh, rfl, id⟩, fun h hlive ht => ?_,
    fun _ hr => hr, fun _ hr => hr⟩, fun _ _ _ => .inl⟩
  · exact (hw.handle h hh).imp_right fun hlt => Nat.lt_of_lt_of_le hlt hnext
  · rwa [isRegistered, Table.contains, ← (hthreads hw t ht).2.1 hlt]
  · rw [hagenda ht]
  · exact untold_le rfl (by rw [hagenda ht]; exact Nat.le_refl _)

theorem attends_newThread (w : World) : w.Attends w.newThread.2 := by
  refine attends_setThreads (Nat.le_succ _) fun hw t ht => ?_
  rw [Table.get?_insert] at ht ⊢
  split
  · next heq =>
    subst heq
    exact ⟨Nat.lt_succ_self _, fun hlt => absurd hlt (Nat.lt_irrefl _), fun _ => rfl⟩
  · next hne =>
    rw [if_neg hne] at ht
    have hlt := hw.thread t ht
    exact ⟨Nat.lt_succ_of_lt hlt, fun _ => rfl, fun hle => absurd hlt (Nat.not_lt.2 hle)⟩

/-- Nobody serves the agenda of a thread that ended. -/
theorem attends_eraseThread (w : World) (t : ThreadId) :
    w.Attends { w with threads := w.threads.erase t } := by
  refine attends_setThreads (Nat.le_refl _) fun hw t' ht' => ?_
  rw [Table.get?_erase] at ht' ⊢
  split at ht'
  · cases ht'
  · next hne =>
    have hlt := hw.thread t' ht'
    exact ⟨hlt, fun _ => if_neg hne, fun hle => absurd hlt (Nat.not_lt.2 hle)⟩

end World

end ScriptHost
