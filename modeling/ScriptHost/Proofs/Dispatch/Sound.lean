import ScriptHost.Proofs.Dispatch.History

/-!
# What every step of the dispatch preserves

The invariant of the dispatch of one handle: work leaves the mailbox in order, the counters agree
with the mailbox and with the work under way, there is an event for all work that waits, and a call
looks after the work that waits for a deleted handle.
-/

namespace ScriptHost.Dispatch

variable {h : HandleId} {s s' : State} {handle : Handle} {m : Mailbox} {calls : Multiset Call}

/-! ### The counters -/

/-- The counters of a mailbox agree with what waits and with how much is being executed. -/
structure Balanced (m : Mailbox) (running : Nat) : Prop where
  submitted : m.submitted = m.completed + m.queue.length + running
  failed_le : m.failed ≤ m.completed

namespace Balanced

variable {running : Nat}

theorem submit (hm : Balanced m running) : Balanced m.submit (running + 1) := by
  have hsubmitted := hm.submitted
  refine ⟨?_, hm.failed_le⟩
  simp only [Mailbox.submit]
  omega

theorem push (hm : Balanced m running) (queued : Queued) : Balanced (m.push queued) running := by
  have hsubmitted := hm.submitted
  refine ⟨?_, hm.failed_le⟩
  simp only [Mailbox.push, Mailbox.submit, List.length_append, List.length_singleton]
  omega

theorem take (hm : Balanced m running) {queued : Queued} {rest : List Queued}
    (hqueue : m.queue = queued :: rest) : Balanced { m with queue := rest } (running + 1) := by
  have hsubmitted := hm.submitted
  rw [hqueue, List.length_cons] at hsubmitted
  refine ⟨?_, hm.failed_le⟩
  dsimp only
  omega

theorem finish (hm : Balanced m (running + 1)) (failed : Bool) :
    Balanced (m.finish failed) running := by
  have hsubmitted := hm.submitted
  have hfailed := hm.failed_le
  constructor
  · simp only [Mailbox.finish]
    omega
  · simp only [Mailbox.finish]
    split <;> omega

end Balanced

/-! ### The calls under way -/

/-- There is an event for all work that waits, posted already or about to be, unless a call is
clearing up because its event was lost. -/
def Woken (calls : Multiset Call) (wakes waiting : Nat) : Prop :=
  .draining .ownerGone ∉ calls → waiting ≤ wakes + calls.count .pushed

theorem Woken.cons {wakes waiting : Nat} (h : Woken calls wakes waiting) (call : Call) :
    Woken (call ::ₘ calls) wakes waiting := by
  intro hno
  have hwaiting := h fun hmem => hno (Multiset.mem_cons_of_mem hmem)
  exact hwaiting.trans (Nat.add_le_add_left (Multiset.count_le_count_cons _ _ _) _)

theorem Woken.of_cons {wakes waiting : Nat} {call : Call} (h : Woken (call ::ₘ calls) wakes waiting)
    (hgone : call ≠ .draining .ownerGone) (hpushed : call ≠ .pushed) :
    Woken calls wakes waiting := by
  intro hno
  have hwaiting := h (by simpa [hgone.symm] using hno)
  rwa [Multiset.count_cons_of_ne hpushed.symm] at hwaiting

/-- Some call is going to look for work that nobody serves. -/
def Watched (calls : Multiset Call) : Prop :=
  ∃ call ∈ calls, call.mayDrain = true

theorem Watched.of_call {call : Call} (h : call.mayDrain = true) (calls : Multiset Call) :
    Watched (call ::ₘ calls) :=
  ⟨call, Multiset.mem_cons_self _ _, h⟩

theorem Watched.cons (h : Watched calls) (call : Call) : Watched (call ::ₘ calls) := by
  obtain ⟨c, hc, hdrain⟩ := h
  exact ⟨c, Multiset.mem_cons_of_mem hc, hdrain⟩

theorem Watched.of_checked (h : Watched (.checked ::ₘ calls)) : Watched calls := by
  obtain ⟨c, hc, hdrain⟩ := h
  rcases Multiset.mem_cons.mp hc with rfl | hc
  · cases hdrain
  · exact ⟨c, hc, hdrain⟩

/-- What holds in every state. -/
structure Sound (h : HandleId) (s : State) (handle : Handle) : Prop where
  present : s.world.handles.get? h = some handle
  held : handle.exists = true
  order : s.pushed = s.left.map (·.1) ++ handle.mailbox.queue
  balanced : Balanced handle.mailbox s.running.length
  history : History s.running s.left s.finished
  answers : Answers s.pushed s.finished s.world
  woken : Woken s.calls s.wakes handle.mailbox.queue.length
  posts : s.lost = false → .draining .ownerGone ∉ s.calls
  watched : handle.deleted = true → handle.mailbox.queue ≠ [] → Watched s.calls

namespace Sound

theorem lt_pushed (hs : Sound h s handle) {n : Nat} {envelope : Envelope}
    (hn : (n, envelope) ∈ s.finished) : n < s.pushed.length := by
  have hlt := hs.history.lt_of_mem_finished hn
  rw [hs.order, List.length_append, List.length_map]
  omega

theorem getElem?_pushed (hs : Sound h s handle) {n : Nat} {queued : Queued} {fate : Fate}
    (hn : s.left[n]? = some (queued, fate)) : s.pushed[n]? = some queued := by
  have hmap : (s.left.map (·.1))[n]? = some queued := by rw [List.getElem?_map, hn]; rfl
  rw [hs.order, List.getElem?_append_left (List.getElem?_eq_some_iff.mp hmap).1, hmap]

theorem getElem?_pushed_length (hs : Sound h s handle) {queued : Queued} {rest : List Queued}
    (hqueue : handle.mailbox.queue = queued :: rest) :
    s.pushed[s.left.length]? = some queued := by
  rw [hs.order, List.getElem?_append_right (by rw [List.length_map]), List.length_map,
    Nat.sub_self, hqueue]
  rfl

theorem order_take (hs : Sound h s handle) {queued : Queued} {rest : List Queued}
    (hqueue : handle.mailbox.queue = queued :: rest) (fate : Fate) :
    s.pushed = (s.left ++ [(queued, fate)]).map (·.1) ++ rest := by
  rw [hs.order, hqueue, List.map_append, List.map_singleton, List.append_assoc]
  rfl

theorem length_not_mem_finished (hs : Sound h s handle) (envelope : Envelope) :
    (s.left.length, envelope) ∉ s.finished :=
  fun hmem => Nat.lt_irrefl _ (hs.history.lt_of_mem_finished hmem)

/-! ### What a step preserves -/

theorem rest {w : World} (hs : Sound h s handle) (hw : Keeps h s.pushed s.world w) :
    ∃ handle', Sound h { s with world := w } handle' := by
  obtain ⟨handle', hpresent, hmailbox, hdeleted, hexists⟩ := hw.handle handle hs.present
  exact ⟨handle', hpresent, hexists hs.held, hmailbox ▸ hs.order, hmailbox ▸ hs.balanced,
    hs.history, hs.answers.keep hw, hmailbox ▸ hs.woken, hs.posts,
    hmailbox ▸ hdeleted ▸ hs.watched⟩

/-- A world with the same mailbox and the same replies is as good. -/
theorem withWorld {w : World} {handle' : Handle} (hs : Sound h s handle)
    (hpresent : w.handles.get? h = some handle') (hheld : handle'.exists = true)
    (hmailbox : handle'.mailbox = handle.mailbox) (hdeleted : handle'.deleted = handle.deleted)
    (hreplies : w.replies = s.world.replies) (hnext : w.nextReply = s.world.nextReply) :
    Sound h { s with world := w } handle' :=
  ⟨hpresent, hheld, hmailbox ▸ hs.order, hmailbox ▸ hs.balanced, hs.history,
    hs.answers.congr hreplies hnext, hmailbox ▸ hs.woken, hs.posts, hmailbox ▸ hdeleted ▸ hs.watched⟩

theorem check (hs : Sound h s handle) : Sound h { s with calls := .checked ::ₘ s.calls } handle := by
  refine { hs with woken := hs.woken.cons _, posts := ?_, watched := ?_ }
  · intro hlost
    simpa using hs.posts hlost
  · intro hdeleted hqueue
    exact (hs.watched hdeleted hqueue).cons _

theorem leave (hs : Sound h s handle) (hcalls : s.calls = .checked ::ₘ calls) :
    Sound h { s with calls } handle := by
  have hwoken := hs.woken
  have hposts := hs.posts
  have hwatched := hs.watched
  rw [hcalls] at hwoken hposts hwatched
  refine { hs with woken := hwoken.of_cons nofun nofun, posts := ?_, watched := ?_ }
  · intro hlost
    simpa using hposts hlost
  · intro hdeleted hqueue
    exact (hwatched hdeleted hqueue).of_checked

theorem push {queued : Queued} {w : World} (hs : Sound h s handle)
    (hcalls : s.calls = .checked ::ₘ calls) (hreq : s.world.Request queued w) :
    Sound h { s with
        world := w.modifyHandle h fun u => { u with mailbox := u.mailbox.push queued }
        calls := .pushed ::ₘ calls
        pushed := s.pushed ++ [queued] }
      { handle with mailbox := handle.mailbox.push queued } := by
  have hpresent : w.handles.get? h = some handle := by
    cases hreq <;> exact hs.present
  have hwoken := hs.woken
  have hposts := hs.posts
  rw [hcalls] at hwoken hposts
  refine ⟨World.get?_modifyHandle_self hpresent _, hs.held, ?_, hs.balanced.push queued,
    hs.history, ?_, ?_, ?_, ?_⟩
  · rw [hs.order, List.append_assoc]
    rfl
  · exact (hs.answers.push hreq fun n envelope => hs.lt_pushed).congr rfl rfl
  · intro hno
    have hwoken := hwoken (by simpa using hno)
    simp only [Mailbox.push, List.length_append, List.length_singleton, Multiset.count_cons_self]
    simp only [Multiset.count_cons_of_ne (show Call.pushed ≠ .checked by decide)] at hwoken
    omega
  · intro hlost
    simpa using hposts hlost
  · intro _ _
    exact .of_call rfl _

theorem post (hs : Sound h s handle) (hcalls : s.calls = .pushed ::ₘ calls) :
    Sound h { s with
        world := s.world.post (s.world.ownerOf h) (.serve h)
        calls := .posted ::ₘ calls
        wakes := s.wakes + 1 } handle := by
  have hwoken := hs.woken
  have hposts := hs.posts
  rw [hcalls] at hwoken hposts
  refine ⟨hs.present, hs.held, hs.order, hs.balanced, hs.history, hs.answers.congr rfl rfl, ?_, ?_,
    ?_⟩
  · intro hno
    have hwoken := hwoken (by simpa using hno)
    rw [Multiset.count_cons_self] at hwoken
    rw [Multiset.count_cons_of_ne (by decide)]
    dsimp only
    omega
  · intro hlost
    simpa using hposts hlost
  · intro _ _
    exact .of_call rfl _

theorem postLost (hs : Sound h s handle) (told : Bool) (calls : Multiset Call) :
    Sound h { s with
        calls := .draining .ownerGone ::ₘ calls
        wakes := s.wakes + told.toNat
        lost := true } handle := by
  refine { hs with woken := ?_, posts := nofun, watched := ?_ }
  · intro hno
    exact absurd (Multiset.mem_cons_self _ _) hno
  · intro _ _
    exact .of_call rfl _

theorem finishCall (hs : Sound h s handle) (hcalls : s.calls = .posted ::ₘ calls)
    (hlive : s.world.isDeleted h = false) : Sound h { s with calls } handle := by
  rw [World.isDeleted_of_get? hs.present] at hlive
  have hwoken := hs.woken
  have hposts := hs.posts
  rw [hcalls] at hwoken hposts
  refine { hs with woken := hwoken.of_cons nofun nofun, posts := ?_, watched := ?_ }
  · intro hlost
    simpa using hposts hlost
  · intro hdeleted
    rw [hlive] at hdeleted
    cases hdeleted

theorem recheck (hs : Sound h s handle) (hcalls : s.calls = .posted ::ₘ calls) :
    Sound h { s with calls := .draining .deleted ::ₘ calls } handle := by
  have hwoken := hs.woken
  have hposts := hs.posts
  rw [hcalls] at hwoken hposts
  refine { hs with woken := (hwoken.of_cons nofun nofun).cons _, posts := ?_, watched := ?_ }
  · intro hlost
    simpa using hposts hlost
  · intro _ _
    exact .of_call rfl _

theorem delete (hs : Sound h s handle) :
    Sound h { s with
        world := s.world.modifyHandle h fun u => { u with deleted := true }
        calls := .draining .deleted ::ₘ s.calls }
      { handle with deleted := true } := by
  refine ⟨World.get?_modifyHandle_self hs.present _, hs.held, hs.order, hs.balanced, hs.history,
    hs.answers.congr rfl rfl, hs.woken.cons _, ?_, ?_⟩
  · intro hlost
    simpa using hs.posts hlost
  · intro _ _
    exact .of_call rfl _

theorem refuse {refusal : Refusal} {queued : Queued} {w : World} (hs : Sound h s handle)
    (hcall : .draining refusal ∈ s.calls)
    (hrefuse : s.world.refuse? h refusal.error = some (queued, w)) :
    ∃ handle', Sound h { s with
        world := w
        left := s.left ++ [(queued, .refused refusal)]
        finished := s.finished ++ [(s.left.length, .error refusal.error)] } handle' := by
  obtain ⟨rest, hqueue, rfl⟩ := World.refuse?_eq_some hs.present hrefuse
  refine ⟨{ handle with mailbox := { handle.mailbox with queue := rest }.finish true }, ?_, hs.held,
    hs.order_take hqueue _, (hs.balanced.take hqueue).finish true, hs.history.refuse queued refusal,
    ?_, ?_, hs.posts, ?_⟩
  · rw [World.handles_answerQueued]
    exact World.get?_modifyHandle_self hs.present _
  · refine Answers.answer ?_ (hs.getElem?_pushed_length hqueue) hs.length_not_mem_finished _
    exact hs.answers.congr rfl rfl
  · intro hno
    have hwoken := hs.woken hno
    rw [hqueue, List.length_cons] at hwoken
    simp only [Mailbox.finish]
    omega
  · intro _ _
    exact ⟨_, hcall, rfl⟩

theorem drained {refusal : Refusal} (hs : Sound h s handle)
    (hcalls : s.calls = .draining refusal ::ₘ calls)
    (hrefuse : s.world.refuse? h refusal.error = none) : Sound h { s with calls } handle := by
  have hqueue := World.queue_eq_nil_of_refuse? hs.present hrefuse
  have hposts := hs.posts
  rw [hcalls] at hposts
  refine { hs with woken := ?_, posts := ?_, watched := ?_ }
  · intro _
    rw [hqueue]
    exact Nat.zero_le _
  · intro hlost hmem
    exact hposts hlost (Multiset.mem_cons_of_mem hmem)
  · intro _ hne
    exact absurd hqueue hne

theorem wake {wakes : Nat} {queued : Queued} {w : World} (hs : Sound h s handle)
    (hwakes : s.wakes = wakes + 1) (htake : s.world.takeWork? h = some (queued, w)) :
    ∃ handle', Sound h { s with
        world := w
        wakes
        running := .served s.left.length queued :: s.running
        left := s.left ++ [(queued, .executed)] } handle' := by
  obtain ⟨rest, hqueue, hpresent, hreplies, hnext⟩ := World.takeWork?_eq_some hs.present htake
  refine ⟨_, hpresent, ?_, hs.order_take hqueue _, hs.balanced.take hqueue,
    hs.history.serve queued, hs.answers.congr hreplies hnext, ?_, hs.posts, ?_⟩
  · simp [Handle.exists]
  · intro hno
    have hwoken := hs.woken hno
    rw [hqueue, List.length_cons] at hwoken
    dsimp only
    omega
  · intro hdeleted _
    exact hs.watched hdeleted (by rw [hqueue]; exact List.cons_ne_nil _ _)

/-- Work ends that left the mailbox and was being executed. -/
theorem finish {running : List Running} {n : Nat} {queued : Queued} (hs : Sound h s handle)
    (hrunning : s.running = .served n queued :: running) (envelope : Envelope) :
    Sound h { s with
        world := (s.world.finishWork h envelope.failed).answerQueued queued envelope
        running
        finished := s.finished ++ [(n, envelope)] }
      { handle with mailbox := handle.mailbox.finish envelope.failed } := by
  have hbalanced := hs.balanced
  have hhistory := hs.history
  rw [hrunning] at hbalanced hhistory
  have hmem : .served n queued ∈ s.running := by
    rw [hrunning]
    exact List.mem_cons_self
  refine ⟨?_, hs.held, hs.order, hbalanced.finish _, hhistory.finish envelope, ?_, hs.woken,
    hs.posts, hs.watched⟩
  · rw [World.handles_answerQueued]
    exact World.get?_modifyHandle_self hs.present _
  · refine Answers.answer ?_ (hs.getElem?_pushed (hs.history.executed n queued hmem)) ?_ _
    · exact hs.answers.congr rfl rfl
    · exact fun envelope => hs.history.not_mem_finished hmem

theorem wakeGone {wakes : Nat} {queued : Queued} {w : World} (hs : Sound h s handle)
    (hwakes : s.wakes = wakes + 1) (htake : s.world.takeWork? h = some (queued, w)) :
    ∃ handle', Sound h { s with
        world := (w.finishWork h true).answerQueued queued (.error .deleted)
        wakes
        left := s.left ++ [(queued, .refused .deleted)]
        finished := s.finished ++ [(s.left.length, .error .deleted)] } handle' := by
  obtain ⟨handle', hwake⟩ := hs.wake hwakes htake
  have hfinish := hwake.finish rfl (.error .deleted)
  have horder : s.pushed =
      (s.left ++ [(queued, Fate.refused .deleted)]).map (·.1) ++ handle'.mailbox.queue := by
    simpa using hwake.order
  exact ⟨_, hfinish.present, hfinish.held, horder, hfinish.balanced,
    hs.history.refuse queued .deleted, hfinish.answers, hfinish.woken, hfinish.posts,
    hfinish.watched⟩

theorem wakeIdle {wakes : Nat} (hs : Sound h s handle) (htake : s.world.takeWork? h = none) :
    Sound h { s with wakes } handle := by
  have hqueue := World.queue_eq_nil_of_takeWork? hs.present hs.held htake
  refine { hs with woken := ?_ }
  intro _
  rw [hqueue]
  exact Nat.zero_le _

theorem startHere (hs : Sound h s handle) :
    Sound h { s with world := s.world.startWork h, running := .here :: s.running }
      { handle with mailbox := handle.mailbox.submit } :=
  ⟨World.get?_modifyHandle_self hs.present _, hs.held, hs.order, hs.balanced.submit,
    hs.history.startHere, hs.answers.congr rfl rfl, hs.woken, hs.posts, hs.watched⟩

theorem finishHere {running : List Running} (hs : Sound h s handle)
    (hrunning : s.running = .here :: running) (failed : Bool) :
    Sound h { s with world := s.world.finishWork h failed, running }
      { handle with mailbox := handle.mailbox.finish failed } := by
  have hbalanced := hs.balanced
  have hhistory := hs.history
  rw [hrunning] at hbalanced hhistory
  exact ⟨World.get?_modifyHandle_self hs.present _, hs.held, hs.order, hbalanced.finish failed,
    hhistory.finishHere, hs.answers.congr rfl rfl, hs.woken, hs.posts, hs.watched⟩

/-- Every step keeps what holds in every state. -/
theorem step (hs : Sound h s handle) (hstep : Step h s s') : ∃ handle', Sound h s' handle' := by
  cases hstep with
  | rest hw => exact hs.rest hw
  | check _ => exact ⟨_, hs.check⟩
  | leave hcalls => exact ⟨_, hs.leave hcalls⟩
  | push hcalls hreq => exact ⟨_, hs.push hcalls hreq⟩
  | post hcalls => exact ⟨_, hs.post hcalls⟩
  | postLost told _ => exact ⟨_, hs.postLost told _⟩
  | finishCall hcalls hlive => exact ⟨_, hs.finishCall hcalls hlive⟩
  | recheck hcalls _ => exact ⟨_, hs.recheck hcalls⟩
  | delete _ => exact ⟨_, hs.delete⟩
  | refuse hcall hrefuse => exact hs.refuse hcall hrefuse
  | drained hcalls hrefuse => exact ⟨_, hs.drained hcalls hrefuse⟩
  | wake hwakes htake _ => exact hs.wake hwakes htake
  | wakeGone hwakes htake _ => exact hs.wakeGone hwakes htake
  | wakeIdle _ htake => exact ⟨_, hs.wakeIdle htake⟩
  | finish envelope hrunning => exact ⟨_, hs.finish hrunning envelope⟩
  | startHere => exact ⟨_, hs.startHere⟩
  | finishHere failed hrunning => exact ⟨_, hs.finishHere hrunning failed⟩

theorem steps (hs : Sound h s handle) (hsteps : Steps h s s') : ∃ handle', Sound h s' handle' := by
  induction hsteps with
  | refl => exact ⟨handle, hs⟩
  | tail _ hstep ih =>
    obtain ⟨_, hs⟩ := ih
    exact hs.step hstep

end Sound

end ScriptHost.Dispatch
