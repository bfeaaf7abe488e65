import ScriptHost.Engine

/-!
# The handles and replies of a world
-/

namespace ScriptHost.World

variable {w : World} {h k : HandleId} {r s : ReplyId}

/-! ### Handles -/

theorem get?_modifyHandle (w : World) (h k : HandleId) (f : Handle → Handle) :
    (w.modifyHandle h f).handles.get? k =
      if h = k then (w.handles.get? k).map f else w.handles.get? k := by
  by_cases hk : h = k <;> simp [modifyHandle, Table.get?_modify, hk]

theorem get?_modifyHandle_self {handle : Handle} (hh : w.handles.get? h = some handle)
    (f : Handle → Handle) : (w.modifyHandle h f).handles.get? h = some (f handle) := by
  rw [get?_modifyHandle, if_pos rfl, hh, Option.map_some]

theorem modifyHandle_modifyHandle (w : World) (h : HandleId) (f g : Handle → Handle) :
    (w.modifyHandle h f).modifyHandle h g = w.modifyHandle h fun handle => g (f handle) := by
  simp only [modifyHandle, Table.modify_modify]

theorem modifyHandle_eq_self {f : Handle → Handle}
    (hf : ∀ handle, w.handles.get? h = some handle → f handle = handle) :
    w.modifyHandle h f = w := by
  simp only [modifyHandle, Table.modify_eq_self hf]

theorem modifyHandle_congr {f g : Handle → Handle}
    (hfg : ∀ handle, w.handles.get? h = some handle → f handle = g handle) :
    w.modifyHandle h f = w.modifyHandle h g := by
  unfold modifyHandle Table.modify
  cases hhandle : w.handles.get? h with
  | none => rfl
  | some handle => simp only [hfg handle hhandle]

theorem isDeleted_of_get? {handle : Handle} (hh : w.handles.get? h = some handle) :
    w.isDeleted h = handle.deleted := by
  rw [isDeleted, hh, Option.any_some]

theorem interpOf?_modifyHandle {f : Handle → Handle} (hf : ∀ handle, (f handle).interp = handle.interp)
    (w : World) (h k : HandleId) : (w.modifyHandle h f).interpOf? k = w.interpOf? k := by
  unfold interpOf?
  rw [get?_modifyHandle]
  split
  · cases w.handles.get? k with
    | none => rfl
    | some handle => exact hf handle
  · rfl

theorem interpOf?_startWork (w : World) (h k : HandleId) :
    (w.startWork h).interpOf? k = w.interpOf? k := by
  refine interpOf?_modifyHandle (fun handle => ?_) w h k
  rfl

/-! ### Replies -/

theorem get?_answer (w : World) (r s : ReplyId) (envelope : Envelope) :
    (w.answer r envelope).replies.get? s =
      if r = s then
        (w.replies.get? s).map fun reply =>
          if reply.answer.isSome then reply
          else { reply with answer := some (envelope, w.clock) }
      else w.replies.get? s := by
  by_cases hs : r = s <;> simp [answer, Table.get?_modify, hs]

theorem get?_answerQueued {queued : Queued} {envelope : Envelope} {reply : Reply}
    (hqueued : queued.reply = some r) (hreply : w.replies.get? r = some reply)
    (hopen : reply.answer = none) : (w.answerQueued queued envelope).replies.get? r =
      some { reply with answer := some (envelope, w.clock) } := by
  rw [answerQueued, hqueued]
  dsimp only
  rw [get?_answer, if_pos rfl, hreply, Option.map_some, hopen]
  rfl

/-- A reply was answered. -/
def Answered (w : World) (r : ReplyId) : Prop :=
  ∃ reply, w.replies.get? r = some reply ∧ reply.answer.isSome = true

theorem Answered.answer (hr : w.Answered r) (s : ReplyId) (envelope : Envelope) :
    (w.answer s envelope).Answered r := by
  obtain ⟨reply, hreply, hanswer⟩ := hr
  refine ⟨reply, ?_, hanswer⟩
  rw [get?_answer, hreply]
  split
  · rw [Option.map_some, if_pos hanswer]
  · rfl

theorem Answered.answerQueued (hr : w.Answered r) (queued : Queued) (envelope : Envelope) :
    (w.answerQueued queued envelope).Answered r := by
  rw [World.answerQueued]
  split
  · exact hr.answer _ envelope
  · exact hr

theorem Answered.foldl {α : Type} {f : World → α → World}
    (hf : ∀ w a, w.Answered r → (f w a).Answered r) (as : List α) (hr : w.Answered r) :
    (as.foldl f w).Answered r := by
  induction as generalizing w with
  | nil => exact hr
  | cons a as ih => exact ih (hf w a hr)

/-- Whoever waits for work gets the answer. -/
theorem answered_answerQueued {queued : Queued} {envelope : Envelope} {reply : Reply}
    (hqueued : queued.reply = some r) (hreply : w.replies.get? r = some reply) :
    (w.answerQueued queued envelope).Answered r := by
  rw [answerQueued, hqueued]
  refine ⟨if reply.answer.isSome then reply
    else { reply with answer := some (envelope, w.clock) }, ?_, ?_⟩
  · rw [get?_answer, if_pos rfl, hreply, Option.map_some]
  · split
    · assumption
    · rfl

theorem get?_newReply (w : World) (r : ReplyId) :
    w.newReply.2.replies.get? r =
      if w.nextReply = r then some {} else w.replies.get? r :=
  Table.get?_insert w.replies w.nextReply r {}

/-- An answer changes replies only. -/
theorem answerQueued_eq (w : World) (queued : Queued) (envelope : Envelope) :
    ∃ replies, w.answerQueued queued envelope = { w with replies } := by
  rw [answerQueued]
  split
  · exact ⟨_, rfl⟩
  · exact ⟨w.replies, rfl⟩

/-- An answer does not make a reply a lost one. -/
theorem exists_of_get?_answerQueued {queued : Queued} {envelope : Envelope} {reply : Reply}
    (h : (w.answerQueued queued envelope).replies.get? r = some reply) :
    ∃ former, w.replies.get? r = some former ∧ reply.lost = former.lost := by
  rw [answerQueued] at h
  split at h
  · rw [get?_answer] at h
    split at h
    · obtain ⟨former, hformer, rfl⟩ := Option.map_eq_some_iff.1 h
      refine ⟨former, hformer, ?_⟩
      split <;> rfl
    · exact ⟨reply, h, rfl⟩
  · exact ⟨reply, h, rfl⟩

theorem handles_answerQueued (w : World) (queued : Queued) (envelope : Envelope) :
    (w.answerQueued queued envelope).handles = w.handles := by
  rw [answerQueued]
  split <;> rfl

theorem nextReply_answerQueued (w : World) (queued : Queued) (envelope : Envelope) :
    (w.answerQueued queued envelope).nextReply = w.nextReply := by
  rw [answerQueued]
  split <;> rfl

theorem modifyHandle_answerQueued (w : World) (queued : Queued) (envelope : Envelope)
    (h : HandleId) (f : Handle → Handle) :
    (w.answerQueued queued envelope).modifyHandle h f =
      (w.modifyHandle h f).answerQueued queued envelope := by
  unfold answerQueued
  split <;> rfl

/-! ### Handing work over and taking it out -/

/-- Work for a thread that is there is put into the mailbox, and the thread is told. -/
theorem submit_of_there {handle : Handle}
    (hcalm : w.hub.interrupted = false) (hh : w.handles.get? h = some handle)
    (hlive : handle.deleted = false) (hthere : w.isRegistered handle.owner = true) (work : Work)
    (reply : Option ReplyId) :
    w.submit h work reply = (.ok (), (w.modifyHandle h fun u =>
      { u with mailbox := u.mailbox.push ⟨work, reply⟩ }).post handle.owner (.serve h)) := by
  have hthere' : (w.modifyHandle h fun u =>
      { u with mailbox := u.mailbox.push ⟨work, reply⟩ }).isRegistered handle.owner = true := hthere
  rw [submit, hcalm, if_neg Bool.false_ne_true, hh]
  dsimp only
  rw [if_pos hthere', hlive]
  rfl

theorem takeWork?_eq_some {handle : Handle} (hh : w.handles.get? h = some handle)
    {queued : Queued} {w' : World} (htake : w.takeWork? h = some (queued, w')) :
    ∃ rest, handle.mailbox.queue = queued :: rest ∧
      w'.handles.get? h = some { handle with
        mailbox := { handle.mailbox with queue := rest }, holders := handle.holders + 1 } ∧
      w'.replies = w.replies ∧ w'.nextReply = w.nextReply := by
  unfold takeWork? Mailbox.pop? at htake
  rw [hh] at htake
  dsimp only at htake
  split at htake
  · split at htake
    · cases htake
    · next first rest hqueue =>
      cases htake
      refine ⟨rest, hqueue, ?_, rfl, rfl⟩
      exact get?_modifyHandle_self (get?_modifyHandle_self hh _) _
  · cases htake

theorem exists_of_takeWork? {handle : Handle} (hh : w.handles.get? h = some handle) {queued : Queued}
    {w' : World} (htake : w.takeWork? h = some (queued, w')) : handle.exists = true := by
  rw [takeWork?, hh] at htake
  dsimp only at htake
  split at htake
  · assumption
  · cases htake

theorem eq_of_takeWork? {handle : Handle} (hh : w.handles.get? h = some handle) {queued : Queued}
    {w' : World} (htake : w.takeWork? h = some (queued, w')) :
    ∃ rest, handle.mailbox.queue = queued :: rest ∧
      w' = w.modifyHandle h fun u =>
        { u with
          mailbox := { handle.mailbox with queue := rest }
          holders := u.holders + 1 } := by
  unfold takeWork? Mailbox.pop? at htake
  rw [hh] at htake
  dsimp only at htake
  split at htake
  · split at htake
    · cases htake
    · next first rest hqueue =>
      cases htake
      exact ⟨rest, hqueue, modifyHandle_modifyHandle _ _ _ _⟩
  · cases htake

/-- Work that waits can be taken out as long as the handle exists. -/
theorem takeWork?_of_cons {handle : Handle} (hh : w.handles.get? h = some handle)
    (hexists : handle.exists = true) {queued : Queued} {rest : List Queued}
    (hqueue : handle.mailbox.queue = queued :: rest) :
    w.takeWork? h = some (queued, (w.modifyHandle h fun u =>
      { u with mailbox := { handle.mailbox with queue := rest } }).hold h) := by
  rw [takeWork?, hh]
  dsimp only
  rw [if_pos hexists, Mailbox.pop?, hqueue]
  rfl

theorem queue_eq_nil_of_takeWork? {handle : Handle} (hh : w.handles.get? h = some handle)
    (hexists : handle.exists = true) (htake : w.takeWork? h = none) :
    handle.mailbox.queue = [] := by
  unfold takeWork? Mailbox.pop? at htake
  rw [hh] at htake
  dsimp only at htake
  rw [if_pos hexists] at htake
  split at htake
  · assumption
  · cases htake

end ScriptHost.World
