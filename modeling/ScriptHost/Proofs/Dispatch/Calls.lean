import ScriptHost.Proofs.Dispatch.Sound
import ScriptHost.Proofs.Run.Action

/-!
# The calls on a handle as runs of the dispatch

What the calls on a handle and the owning thread do without interruption is a run of the machine,
in which each of them takes all its steps at once.
-/

namespace ScriptHost

/-! ### Draining piece by piece -/

theorem Mailbox.drain_of_nil {m : Mailbox} (hqueue : m.queue = []) : m.drain = ([], m) := by
  cases m
  cases hqueue
  rfl

namespace World

variable {w : World} {h : HandleId} {error : HostError} {handle : Handle}

theorem refuse?_of_nil (hh : w.handles.get? h = some handle) (hqueue : handle.mailbox.queue = []) :
    w.refuse? h error = none := by
  simp only [refuse?, hh, Mailbox.pop?, hqueue, Option.map_none]

theorem refuse?_of_cons (hh : w.handles.get? h = some handle) {queued : Queued}
    {rest : List Queued} (hqueue : handle.mailbox.queue = queued :: rest) :
    w.refuse? h error = some (queued,
      (w.modifyHandle h fun u =>
        { u with mailbox := { handle.mailbox with queue := rest }.finish true }).answerQueued queued
          (.error error)) := by
  simp only [refuse?, hh, Mailbox.pop?, hqueue, Option.map_some]

theorem drainMailbox_of_nil (hh : w.handles.get? h = some handle)
    (hqueue : handle.mailbox.queue = []) : w.drainMailbox h error = w := by
  rw [drainMailbox, hh]
  dsimp only
  rw [Mailbox.drain_of_nil hqueue]
  refine modifyHandle_eq_self fun handle' hh' => ?_
  rw [hh] at hh'
  cases hh'
  rfl

theorem drainMailbox_of_cons (hh : w.handles.get? h = some handle) {queued : Queued}
    {rest : List Queued} (hqueue : handle.mailbox.queue = queued :: rest) :
    w.drainMailbox h error =
      ((w.modifyHandle h fun u =>
        { u with mailbox := { handle.mailbox with queue := rest }.finish true }).answerQueued queued
          (.error error)).drainMailbox h error := by
  have hmailbox : handle.mailbox.drain.2 =
      ({ handle.mailbox with queue := rest }.finish true).drain.2 := by
    simp only [Mailbox.drain, Mailbox.finish, hqueue, List.length_cons, if_true]
    congr 1 <;> omega
  have hh' := get?_modifyHandle_self hh fun u =>
    { u with mailbox := { handle.mailbox with queue := rest }.finish true }
  rw [drainMailbox, hh, drainMailbox, handles_answerQueued, hh']
  dsimp only
  rw [modifyHandle_answerQueued, modifyHandle_modifyHandle, hmailbox]
  unfold Mailbox.drain
  rw [hqueue]
  rfl

end World

namespace Dispatch

variable {h : HandleId} {s s' : State} {handle : Handle} {calls : Multiset Call} {w : World}

/-- The dispatch gets to a world with some calls under way, and all that was being executed is so
again. -/
def Reaches (h : HandleId) (s : State) (w : World) (calls : Multiset Call) : Prop :=
  ∃ s', Steps h s s' ∧ s'.world = w ∧ s'.calls = calls ∧ s'.running = s.running

namespace Reaches

theorem refl (s : State) : Reaches h s s.world s.calls :=
  ⟨s, .refl, rfl, rfl, rfl⟩

theorem head (hstep : Step h s s') (hrunning : s'.running = s.running)
    (hs' : Reaches h s' w calls) : Reaches h s w calls := by
  obtain ⟨s'', hsteps, hworld, hcalls, hrunning'⟩ := hs'
  exact ⟨s'', .head hstep hsteps, hworld, hcalls, hrunning'.trans hrunning⟩

theorem rest {w' : World} (hs : Reaches h s w calls) (hw : ∀ pushed, Keeps h pushed w w') :
    Reaches h s w' calls := by
  obtain ⟨s', hsteps, rfl, hcalls, hrunning⟩ := hs
  exact ⟨{ s' with world := w' }, hsteps.tail (.rest (hw _)), rfl, hcalls, hrunning⟩

end Reaches

/-- A call that drains the mailbox finishes all waiting work. -/
theorem drainMailbox_reaches (refusal : Refusal) (hh : s.world.handles.get? h = some handle)
    (hcalls : s.calls = .draining refusal ::ₘ calls) :
    Reaches h s (s.world.drainMailbox h refusal.error) calls := by
  generalize hqueue : handle.mailbox.queue = queue
  induction queue generalizing s handle with
  | nil =>
    rw [World.drainMailbox_of_nil hh hqueue]
    exact .head (.drained hcalls (World.refuse?_of_nil hh hqueue)) rfl (.refl _)
  | cons queued rest ih =>
    rw [World.drainMailbox_of_cons hh hqueue]
    have hcall : .draining refusal ∈ s.calls := by
      rw [hcalls]
      exact Multiset.mem_cons_self _ _
    have hh' := World.get?_modifyHandle_self hh fun u =>
      { u with mailbox := { handle.mailbox with queue := rest }.finish true }
    rw [← World.handles_answerQueued _ queued (.error refusal.error)] at hh'
    exact .head (.refuse hcall (World.refuse?_of_cons hh hqueue)) rfl (ih hh' hcalls rfl)

/-! ### Changes that leave the mailbox alone -/

theorem Keeps.of_eq {pushed : List Queued} {w' : World} (hhandles : w'.handles = w.handles)
    (hreplies : w'.replies = w.replies) (hnext : w'.nextReply = w.nextReply) :
    Keeps h pushed w w' := by
  refine ⟨fun handle hh => ⟨handle, by rw [hhandles, hh], rfl, rfl, id⟩, hnext.ge,
    fun _ _ r _ reply hreply => ⟨reply, by rw [hreplies, hreply], rfl⟩⟩

theorem Keeps.modifyHandle {pushed : List Queued} {f : Handle → Handle}
    (hmailbox : ∀ u, (f u).mailbox = u.mailbox) (hdeleted : ∀ u, (f u).deleted = u.deleted)
    (hexists : ∀ u, (f u).exists = u.exists) (w : World) :
    Keeps h pushed w (w.modifyHandle h f) := by
  refine ⟨fun handle hh => ⟨f handle, World.get?_modifyHandle_self hh f, hmailbox handle,
    hdeleted handle, fun held => (hexists handle).trans held⟩, le_rfl, ?_⟩
  exact fun _ _ _ _ reply hreply => ⟨reply, hreply, rfl⟩

theorem Keeps.request {queued : Queued} (hs : Sound h s handle)
    (hreq : s.world.Request queued w) : Keeps h s.pushed s.world w := by
  cases hreq with
  | silent work => exact .of_eq rfl rfl rfl
  | waiting work =>
    refine ⟨fun handle hh => ⟨handle, hh, rfl, rfl, id⟩, Nat.le_succ _, ?_⟩
    intro queued hqueued r hr reply hreply
    obtain ⟨n, hn⟩ := List.getElem?_of_mem hqueued
    have hne : s.world.nextReply ≠ r := Nat.ne_of_gt (hs.answers.fresh n queued r hn hr)
    exact ⟨reply, by rw [World.get?_newReply, if_neg hne, hreply], rfl⟩

/-! ### Handing work over and deleting -/

/-- A call that found the handle not deleted hands its work over. -/
theorem submit_reaches {queued : Queued} (hs : Sound h s handle)
    (hcalls : s.calls = .checked ::ₘ calls) (hreq : s.world.Request queued w) :
    Reaches h s (w.submit h queued.work queued.reply).2 calls := by
  have hh : w.handles.get? h = some handle := by
    cases hreq <;> exact hs.present
  rw [World.submit]
  split
  · -- an interrupt
    exact .head (.rest (.request hs hreq)) rfl (.head (.leave hcalls) rfl (.refl _))
  rw [hh]
  dsimp only
  set w₁ := w.modifyHandle h fun u => { u with mailbox := u.mailbox.push queued } with hw₁
  have hh₁ : w₁.handles.get? h = some { handle with mailbox := handle.mailbox.push queued } :=
    World.get?_modifyHandle_self hh _
  refine .head (.push hcalls hreq) rfl ?_
  split
  · -- the owning thread is told
    have howner : w₁.ownerOf h = handle.owner := by
      simp only [World.ownerOf, hh₁, Option.map_some, Option.getD_some]
    refine .head (.post rfl) rfl ?_
    rw [← hw₁]
    dsimp only
    rw [howner]
    have hdeleted : w₁.isDeleted h = handle.deleted := by
      rw [World.isDeleted_of_get? hh₁]
    split
    · next hdel =>
      refine .head (.recheck rfl (hdeleted.trans hdel)) rfl ?_
      exact drainMailbox_reaches .deleted hh₁ rfl
    · next hlive =>
      exact .head (.finishCall rfl (hdeleted.trans (eq_false_of_ne_true hlive))) rfl (.refl _)
  · -- the owning thread is gone
    refine .head (.postLost false rfl) rfl ?_
    exact drainMailbox_reaches .ownerGone hh₁ rfl

/-- A call deletes the handle. -/
theorem markDeleted_reaches (hs : Sound h s handle) :
    Reaches h s (s.world.markDeleted h) s.calls := by
  rw [World.markDeleted, hs.present]
  dsimp only
  split
  · exact .refl s
  · next hlive =>
    have hlive' : s.world.isDeleted h = false :=
      (World.isDeleted_of_get? hs.present).trans (eq_false_of_ne_true hlive)
    let s₁ : State := { s with
      world := s.world.modifyHandle h fun u => { u with deleted := true }
      calls := .draining .deleted ::ₘ s.calls }
    let s₂ : State := { s₁ with world := s₁.world.unregister h }
    have hdelete : Step h s s₁ := .delete hlive'
    have hunregister : Step h s₁ s₂ := .rest (.of_eq rfl rfl rfl)
    have hdrain : Reaches h s₂ (s₂.world.drainMailbox h .deleted) s.calls :=
      drainMailbox_reaches .deleted (World.get?_modifyHandle_self hs.present _) rfl
    refine .head hdelete rfl (.head hunregister rfl (hdrain.rest ?_))
    intro pushed
    refine .modifyHandle ?_ ?_ ?_ _ <;> exact fun _ => rfl

/-! ### Executing work -/

theorem after_executeHere (e : Engine) (work : Work) {i : InterpId} (hi : w.interpOf? h = some i) :
    ∃ failed, (Handle.executeHere e h work).after w =
      ((Handle.execute e i work).after (w.startWork h)).finishWork h failed := by
  unfold Act.after Handle.executeHere
  rw [Act.modify_bind, Act.get_bind, World.interpOf?_startWork, hi]
  dsimp only
  cases hexec : Handle.execute e i work (w.startWork h) with
  | ok envelope w' =>
    rw [Act.bind_of_ok (Act.attempt_of_ok hexec)]
    exact ⟨_, rfl⟩
  | error halt w' =>
    rw [Act.bind_of_ok (Act.attempt_of_error hexec)]
    refine ⟨true, ?_⟩
    dsimp only
    rw [Act.modify_bind]
    cases halt with
    | unwind signal =>
      dsimp only
      rw [Act.get_bind]
      cases (w'.finishWork h true).inCallback <;> rfl
    | panic payload => rfl
    | stalled => rfl

/-- The owning thread executes work in place. What the work does may be a run of the dispatch
itself. -/
theorem executeHere_reaches (e : Engine) (work : Work)
    (hexec : ∀ i, s.world.interpOf? h = some i → ∀ s₁, Steps h s s₁ →
      s₁.world = s.world.startWork h →
      Reaches h s₁ ((Handle.execute e i work).after s₁.world) s₁.calls) :
    Reaches h s ((Handle.executeHere e h work).after s.world) s.calls := by
  have hstart : Step h s { s with world := s.world.startWork h, running := .here :: s.running } :=
    .startHere
  cases hi : s.world.interpOf? h with
  | none =>
    have hafter : (Handle.executeHere e h work).after s.world =
        (s.world.startWork h).finishWork h true := by
      rw [Act.after, Handle.executeHere]
      rw [Act.modify_bind, Act.get_bind, World.interpOf?_startWork, hi]
      rfl
    rw [hafter]
    exact ⟨_, .head hstart (.single (.finishHere true rfl)), rfl, rfl, rfl⟩
  | some i =>
    obtain ⟨s₂, hsteps, hworld, hcalls, hrunning⟩ := hexec i hi _ (.single hstart) rfl
    obtain ⟨failed, hafter⟩ := after_executeHere e work hi
    rw [hafter]
    have hfinish := (hsteps.head hstart).tail (.finishHere failed hrunning)
    rw [hworld] at hfinish
    exact ⟨_, hfinish, rfl, hcalls, rfl⟩

/-- The owning thread takes work out of the mailbox, executes it and answers its caller. -/
theorem executeQueued_reaches (e : Engine) {n : Nat} {queued : Queued} {w w' : World}
    {envelope : Envelope} {fatal : Option FatalSignal} (hwakes : s.wakes = n + 1)
    (htake : s.world.takeWork? h = some (queued, w))
    (hserve : Handle.executeQueued e h queued.work w = .ok (envelope, fatal) w')
    (hexec : ∀ i, w.interpOf? h = some i → ∀ s₁, Steps h s s₁ → s₁.world = w →
      Reaches h s₁ ((Handle.execute e i queued.work).after w) s₁.calls) :
    Reaches h s ((w'.finishWork h envelope.failed).answerQueued queued envelope) s.calls := by
  rw [Handle.executeQueued] at hserve
  rw [Act.get_bind] at hserve
  cases hi : w.interpOf? h with
  | none =>
    rw [hi] at hserve
    cases hserve
    exact .head (.wakeGone hwakes htake hi) rfl (.refl _)
  | some i =>
    rw [hi] at hserve
    have hafter : (Handle.execute e i queued.work).after w = w' := by
      rw [Act.after]
      cases hw : Handle.execute e i queued.work w with
      | ok envelope w₁ =>
        dsimp only at hserve
        rw [Act.bind_of_ok (Act.attempt_of_ok hw)] at hserve
        cases hserve
        rfl
      | error halt w₁ =>
        dsimp only at hserve
        rw [Act.bind_of_ok (Act.attempt_of_error hw)] at hserve
        cases halt <;> cases hserve <;> rfl
    have hwake := Step.wake hwakes htake hi
    obtain ⟨s₂, hsteps, hworld, hcalls, hrunning⟩ := hexec i hi _ (.single hwake) rfl
    have hfinish := (hsteps.head hwake).tail (.finish envelope hrunning)
    rw [hworld, hafter] at hfinish
    exact ⟨_, hfinish, rfl, hcalls, rfl⟩

end Dispatch

end ScriptHost
