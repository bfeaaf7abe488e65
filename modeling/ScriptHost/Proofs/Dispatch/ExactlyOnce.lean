import ScriptHost.Proofs.Dispatch.Calls

/-!
# Exactly once

What holds in every state of the dispatch of a handle, whatever the order of the steps of its
callers, of those who delete it and of its owner.
-/

namespace ScriptHost.Dispatch

variable {h : HandleId} {s s' : State}

/-! ### The history grows -/

/-- A step takes nothing back. -/
theorem Step.grows (hstep : Step h s s') :
    s.pushed <+: s'.pushed ∧ s.left <+: s'.left ∧ s.finished <+: s'.finished := by
  cases hstep <;> simp

theorem Steps.grows (hsteps : Steps h s s') :
    s.pushed <+: s'.pushed ∧ s.left <+: s'.left ∧ s.finished <+: s'.finished := by
  induction hsteps with
  | refl => simp
  | tail _ hstep ih =>
    obtain ⟨hpushed, hleft, hfinished⟩ := hstep.grows
    exact ⟨ih.1.trans hpushed, ih.2.1.trans hleft, ih.2.2.trans hfinished⟩

/-- A handle whose mailbox was never used is sound. -/
theorem Sound.start {w : World} {handle : Handle} (hw : w.handles.get? h = some handle)
    (hmailbox : handle.mailbox = {}) (hheld : handle.exists = true) :
    Sound h { world := w } handle := by
  refine ⟨hw, hheld, ?_, ?_, .start, .start w, ?_, ?_, ?_⟩
  · rw [hmailbox]
    rfl
  · rw [hmailbox]
    exact ⟨rfl, Nat.le_refl _⟩
  · intro _
    rw [hmailbox]
    exact Nat.zero_le _
  · intro _
    exact Multiset.notMem_zero _
  · intro _ hqueue
    exact absurd (by rw [hmailbox]) hqueue

/-! ### Every order of the steps -/

/-- **Work handed over through a handle is dispatched exactly once.**

In every state that the dispatch of a handle gets to from an unused mailbox, work has left the
mailbox once, in the order in which it was pushed, and each piece of it has one place for good:
executed and under way, executed and finished, or refused with an error. A caller holds a reply of
its own, which has the envelope of its work as soon as that is finished and no other. The counters
are exact. As long as all events could be posted, and else when nobody is clearing up, there is an
event for all that waits or a call that is about to post one. When the handle is deleted and all
calls have returned, nothing waits. Handing work over and deleting, done at one go, are runs of
these steps. -/
theorem dispatched_exactly_once {w : World} {handle₀ : Handle}
    (hw : w.handles.get? h = some handle₀) (hmailbox : handle₀.mailbox = {})
    (hheld : handle₀.exists = true) (hsteps : Steps h { world := w } s) :
    ∃ handle, s.world.handles.get? h = some handle ∧
      -- work leaves the mailbox once and in order
      s.pushed = s.left.map (·.1) ++ handle.mailbox.queue ∧
      (∀ s', Steps h s s' →
        s.pushed <+: s'.pushed ∧ s.left <+: s'.left ∧ s.finished <+: s'.finished) ∧
      -- it is executed once or refused, and never both
      (s.running.filterMap Running.number? ++ s.finished.map (·.1)).Perm
        (List.range s.left.length) ∧
      (∀ n queued, .served n queued ∈ s.running → s.left[n]? = some (queued, .executed)) ∧
      (∀ n envelope queued refusal, (n, envelope) ∈ s.finished →
        s.left[n]? = some (queued, .refused refusal) → envelope = .error refusal.error) ∧
      -- a caller gets the envelope of its own work
      (∀ (n : Nat) (queued : Queued) r, s.pushed[n]? = some queued → queued.reply = some r →
        (∀ (m : Nat) (queued' : Queued), s.pushed[m]? = some queued' →
          queued'.reply = some r → m = n) ∧
        ∃ reply, s.world.replies.get? r = some reply ∧
          ∀ envelope, reply.answer.map (·.1) = some envelope ↔ (n, envelope) ∈ s.finished) ∧
      -- the counters
      handle.mailbox.submitted =
        handle.mailbox.completed + handle.mailbox.queue.length + s.running.length ∧
      handle.mailbox.failed ≤ handle.mailbox.completed ∧
      -- the events
      (s.lost = false ∨ .draining .ownerGone ∉ s.calls →
        handle.mailbox.queue.length ≤ s.wakes + s.calls.count .pushed) ∧
      -- deletion
      (handle.deleted = true → s.calls = 0 → handle.mailbox.queue = []) ∧
      -- whole calls
      (∀ calls queued w', s.calls = .checked ::ₘ calls → s.world.Request queued w' →
        Reaches h s (w'.submit h queued.work queued.reply).2 calls) ∧
      Reaches h s (s.world.markDeleted h) s.calls := by
  obtain ⟨handle, hs⟩ := (Sound.start hw hmailbox hheld).steps hsteps
  refine ⟨handle, hs.present, hs.order, fun s' => Steps.grows, hs.history.perm,
    hs.history.executed, hs.history.refused, ?_, hs.balanced.submitted, hs.balanced.failed_le, ?_,
    ?_, fun calls queued w' => submit_reaches hs, markDeleted_reaches hs⟩
  · intro n queued r hn hr
    exact ⟨fun m queued' hm hr' => hs.answers.alone m n queued' queued r hm hn hr' hr,
      hs.answers.told n queued r hn hr⟩
  · rintro (hlost | hno)
    · exact hs.woken (hs.posts hlost)
    · exact hs.woken hno
  · intro hdeleted hcalls
    by_contra hqueue
    obtain ⟨call, hcall, -⟩ := hs.watched hdeleted hqueue
    rw [hcalls] at hcall
    exact Multiset.notMem_zero _ hcall

/-- A world with the handle of one interpreter. -/
def opened : World :=
  ((({} : World).newInterp "" false none).2.adopt 0 {}).2.hold 1

/-- Two calls hand work over. The handle is deleted while the first piece of work is being executed
and before the second call posts its event. -/
theorem dispatched_deleted_meanwhile :
    ∃ s handle, Steps 1 { world := opened } s ∧ s.world.handles.get? 1 = some handle ∧
      handle.deleted = true ∧ s.calls = 0 ∧ s.running = [] ∧
      s.left = [(⟨.eval "a", some 0⟩, .executed), (⟨.eval "b", some 1⟩, .refused .deleted)] ∧
      handle.mailbox.queue = [] := by
  have hdraining : .draining .deleted ∈ .draining .deleted ::ₘ .pushed ::ₘ (0 : Multiset Call) :=
    Multiset.mem_cons_self _ _
  have hsteps : Steps 1 { world := opened } _ :=
    .head (.check rfl) <| .head (@Step.push _ _ 0 _ _ rfl (.waiting (.eval "a"))) <|
    .head (@Step.post _ _ 0 rfl) <| .head (@Step.finishCall _ _ 0 rfl rfl) <|
    .head (.check rfl) <| .head (@Step.push _ _ 0 _ _ rfl (.waiting (.eval "b"))) <|
    .head (@Step.wake _ _ 0 _ _ 0 rfl rfl rfl) <|
    .head (.delete rfl) <| .head (@Step.refuse _ _ .deleted _ _ hdraining rfl) <|
    .head (@Step.drained _ _ (.pushed ::ₘ 0) .deleted rfl rfl) <|
    .head (@Step.post _ _ 0 rfl) <| .head (@Step.recheck _ _ 0 rfl rfl) <|
    .head (@Step.drained _ _ 0 .deleted rfl rfl) <|
    .single (@Step.finish _ _ [] 0 _ (.ok .none) rfl)
  obtain ⟨handle, hhandle, -, -, -, -, -, -, -, -, -, hqueue, -⟩ :=
    dispatched_exactly_once rfl rfl rfl hsteps
  have hdeleted : handle.deleted = true := by
    cases hhandle
    rfl
  exact ⟨_, handle, hsteps, hhandle, hdeleted, rfl, rfl, rfl, hqueue hdeleted rfl⟩

end ScriptHost.Dispatch
