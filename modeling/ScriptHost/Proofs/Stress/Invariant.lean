import ScriptHost.Proofs.Dispatch.Sound
import ScriptHost.Proofs.Handle.Account
import ScriptHost.Proofs.Handle.Fatal
import ScriptHost.Proofs.Stress.Callers

/-!
# What every move preserves

A run of callers is a run of the dispatch of their handle. So each caller has a reply of its own, and
work is executed once and in order. Besides, the counter is the number of pieces of work that were
executed, and each of them is answered with twice the number of its call.
-/

namespace ScriptHost.Cli.Stress

open Dispatch (Call Fate Running)

variable {p : Plan} {i : InterpId} {w w₀ : World} {handle handle₀ : Handle} {n : Nat} {s s' : State}

/-! ### The invariant -/

/-- The history of a run. -/
structure History where
  wakes : Nat := 0
  pushed : List Queued := []
  left : List (Queued × Fate) := []
  finished : List (Nat × Envelope) := []
  /-- How many pieces of work were executed. -/
  executed : Nat := 0

/-- What is being executed, as the dispatch of the handle knows it. -/
def State.running (s : State) (g : History) : List Running :=
  match s.serving with
  | none => []
  | some (queued, _) => [.served (g.left.length - 1) queued]

/-- A state of a run as one of the dispatch of the handle. -/
def State.dispatch (s : State) (g : History) : Dispatch.State where
  world := s.world
  calls := underWay s.callers
  wakes := g.wakes
  running := s.running g
  pushed := g.pushed
  left := g.left
  finished := g.finished

/-- Whether work was taken out that is not executed yet. -/
def State.begun (s : State) : Nat :=
  match s.serving with
  | some (_, none) => 1
  | _ => 0

/-- What holds at every time of a run. -/
structure Holds (p : Plan) (i : InterpId) (w₀ : World) (handle₀ : Handle) (n : Nat) (s : State)
    (g : History) (handle : Handle) : Prop where
  sound : Dispatch.Sound p.handle (s.dispatch g) handle
  events : (s.world.agendaOf p.owner).events = List.replicate g.wakes (.serve p.handle)
  owner : handle.owner = p.owner
  live : handle.deleted = false
  interp : handle.interp = some i
  held : s.serving.toList.length < handle.holders
  callback : handle.callbacks.find? p.id = some .double
  failed : handle.mailbox.failed = 0
  submitted : handle.mailbox.submitted = handle₀.mailbox.submitted + g.pushed.length
  registered : s.world.isRegistered p.owner = true
  calm : s.world.hub.interrupted = false
  counting : s.world.Counting p.handle i p.id g.executed
  doublings : s.world.doublings = w₀.doublings + g.executed
  left : g.left.length = g.executed + s.begun
  works : ∀ queued ∈ g.pushed, ∃ j r, j < p.count ∧ queued = p.work j r
  answers : ∀ (m : Nat) envelope queued, (m, envelope) ∈ g.finished → g.pushed[m]? = some queued →
    p.Answers queued envelope
  serving : ∀ queued envelope, s.serving = some (queued, some envelope) → p.Answers queued envelope
  kept : ∀ queued ∈ g.pushed, ∀ r reply, queued.reply = some r →
    s.world.replies.get? r = some reply → reply.lost = false
  account : p.Account g.pushed s.callers
  moves : n = made s.callers + g.left.length + g.executed + g.finished.length

namespace Holds

variable {g : History}

theorem present (h : Holds p i w₀ handle₀ n s g handle) :
    s.world.handles.get? p.handle = some handle :=
  h.sound.present

theorem isDeleted (h : Holds p i w₀ handle₀ n s g handle) : s.world.isDeleted p.handle = false :=
  (World.isDeleted_of_get? h.present).trans h.live

theorem ownerOf (h : Holds p i w₀ handle₀ n s g handle) : s.world.ownerOf p.handle = p.owner := by
  rw [World.ownerOf, h.present]
  exact h.owner

/-- The reply of a call holds the envelope with which its work was finished. -/
theorem told (h : Holds p i w₀ handle₀ n s g handle) {m : Nat} {queued : Queued} {r : ReplyId}
    (hm : g.pushed[m]? = some queued) (hr : queued.reply = some r) :
    ∃ reply, s.world.replies.get? r = some reply ∧
      ∀ envelope, reply.answer.map (·.1) = some envelope ↔ (m, envelope) ∈ g.finished :=
  h.sound.answers.told m queued r hm hr

/-! #### Moves of the callers -/

section

variable {before after : List Caller} {results : List (Except HostError String)} {r : ReplyId}

/-- What holds of the callers of a state, once it is known who they are. -/
theorem of_callers (h : Holds p i w₀ handle₀ n s g handle) {callers : List Caller}
    (hcallers : s.callers = callers) :
    Dispatch.Sound p.handle { s.dispatch g with calls := underWay callers } handle ∧
      p.Account g.pushed callers ∧
      n = made callers + g.left.length + g.executed + g.finished.length := by
  subst hcallers
  exact ⟨h.sound, h.account, h.moves⟩

theorem check (h : Holds p i w₀ handle₀ n s g handle)
    (hcallers : s.callers = before ++ ⟨.ready, results⟩ :: after)
    (hcount : results.length < p.count) :
    Holds p i w₀ handle₀ (n + 1) { s with callers := before ++ ⟨.checked, results⟩ :: after } g
      handle := by
  obtain ⟨hsound, haccount, hmoves⟩ := h.of_callers hcallers
  rw [underWay_of_none rfl] at hsound
  refine { h with sound := ?_, account := ?_, moves := ?_ }
  · rw [State.dispatch, underWay_of_some rfl]
    exact hsound.check
  · refine haccount.advance (fun hown => ?_) rfl
    exact ⟨hown.results, hown.le, fun _ => hcount, nofun⟩
  · rw [made_replace ⟨.ready, results⟩ rfl, hmoves]
    omega

theorem push (h : Holds p i w₀ handle₀ n s g handle)
    (hcallers : s.callers = before ++ ⟨.checked, results⟩ :: after) :
    Holds p i w₀ handle₀ (n + 1)
      { s with
        world := s.world.newReply.2.modifyHandle p.handle fun handle =>
          { handle with
            mailbox := handle.mailbox.push (p.work results.length s.world.newReply.1) }
        callers := before ++ ⟨.pushed s.world.newReply.1, results⟩ :: after }
      { g with pushed := g.pushed ++ [p.work results.length s.world.newReply.1] }
      { handle with mailbox := handle.mailbox.push (p.work results.length s.world.newReply.1) } := by
  obtain ⟨hsound, haccount, hmoves⟩ := h.of_callers hcallers
  rw [underWay_of_some rfl] at hsound
  have hsubmitted := h.submitted
  have hown : p.Follows g.pushed ⟨.checked, results⟩ :=
    haccount.follows _ (List.mem_append_right _ List.mem_cons_self)
  have hcount : results.length < p.count := hown.lt (Nat.succ_ne_zero _)
  have hpushed := hsound.push (.refl (Call.checked ::ₘ underWay (before ++ after)))
    (.waiting (.eval (script p.id results.length)))
  refine { h with
    sound := ?sound, submitted := ?submitted, counting := ?counting, works := ?works
    answers := ?answers, kept := ?kept, account := ?account, moves := ?moves }
  case sound =>
    rw [State.dispatch, underWay_of_some rfl]
    exact hpushed
  case submitted =>
    simp only [Mailbox.push, Mailbox.submit, List.length_append, List.length_singleton]
    omega
  case counting => exact h.counting.congr ⟨_, hpushed.present, h.callback⟩ rfl
  case works =>
    refine List.forall_mem_append.2 ⟨h.works, List.forall_mem_singleton.2 ?_⟩
    exact ⟨results.length, s.world.newReply.1, hcount, rfl⟩
  case answers =>
    intro m envelope queued hmem hm
    have hlt : m < g.pushed.length := h.sound.lt_pushed hmem
    exact h.answers m envelope queued hmem ((List.getElem?_append_left hlt).symm.trans hm)
  case kept =>
    intro queued hqueued r reply hr hreply
    have hget := (s.world.get?_newReply r).symm.trans hreply
    split at hget
    · cases hget
      rfl
    · next hne =>
      rcases List.mem_append.1 hqueued with hold | hnew
      · exact h.kept queued hold r reply hr hget
      · cases List.mem_singleton.1 hnew
        cases hr
        exact absurd rfl hne
  case account =>
    refine haccount.replace _ (fun _ => ?_) rfl
    refine ⟨hown.results, hown.le, fun _ => hcount, fun r hr => ⟨g.pushed.length, ?_⟩⟩
    cases hr
    exact List.getElem?_concat_length
  case moves =>
    rw [made_replace ⟨.checked, results⟩ rfl]
    dsimp only
    omega

theorem post (h : Holds p i w₀ handle₀ n s g handle)
    (hcallers : s.callers = before ++ ⟨.pushed r, results⟩ :: after) :
    Holds p i w₀ handle₀ (n + 1)
      { s with
        world := s.world.post (s.world.ownerOf p.handle) (.serve p.handle)
        callers := before ++ ⟨.posted r, results⟩ :: after }
      { g with wakes := g.wakes + 1 } handle := by
  obtain ⟨hsound, haccount, hmoves⟩ := h.of_callers hcallers
  rw [underWay_of_some rfl] at hsound
  refine { h with
    sound := ?sound, events := ?events, registered := ?registered, counting := ?counting
    account := ?account, moves := ?moves }
  case sound =>
    rw [State.dispatch, underWay_of_some rfl]
    exact hsound.post (.refl (Call.pushed ::ₘ underWay (before ++ after)))
  case events =>
    rw [h.ownerOf]
    dsimp only
    rw [World.events_post_self h.registered, h.events, List.replicate_succ']
  case registered => exact (World.isRegistered_post _ _ _ _).trans h.registered
  case counting => exact h.counting.congr ⟨_, h.present, h.callback⟩ rfl
  case account =>
    refine haccount.advance (fun hown => ?_) rfl
    exact ⟨hown.results, hown.le, fun _ => hown.lt (Nat.succ_ne_zero _), hown.own⟩
  case moves =>
    rw [made_replace ⟨.pushed r, results⟩ rfl]
    dsimp only
    omega

theorem recheck (h : Holds p i w₀ handle₀ n s g handle)
    (hcallers : s.callers = before ++ ⟨.posted r, results⟩ :: after) :
    Holds p i w₀ handle₀ (n + 1) { s with callers := before ++ ⟨.waiting r, results⟩ :: after } g
      handle := by
  obtain ⟨hsound, haccount, hmoves⟩ := h.of_callers hcallers
  rw [underWay_of_some rfl] at hsound
  refine { h with sound := ?_, account := ?_, moves := ?_ }
  · rw [State.dispatch, underWay_of_none rfl]
    exact hsound.finishCall rfl h.isDeleted
  · refine haccount.advance (fun hown => ?_) rfl
    exact ⟨hown.results, hown.le, fun _ => hown.lt (Nat.succ_ne_zero _), hown.own⟩
  · rw [made_replace ⟨.posted r, results⟩ rfl, hmoves]
    omega

/-- A caller who finds an answer gets twice the number of its call. -/
theorem textOf_of_replyState (h : Holds p i w₀ handle₀ n s g handle)
    (hcallers : s.callers = before ++ ⟨.waiting r, results⟩ :: after)
    {result : Except HostError Envelope}
    (hresult : Handle.replyState s.world p.handle r none = some result) :
    Handle.textOf (Handle.productOf result) = .ok (toString (2 * results.length)) := by
  obtain ⟨-, haccount, -⟩ := h.of_callers hcallers
  have hown : p.Follows g.pushed ⟨.waiting r, results⟩ :=
    haccount.follows _ (List.mem_append_right _ List.mem_cons_self)
  obtain ⟨m, hm⟩ := hown.own r rfl
  obtain ⟨reply, hreply, htold⟩ := h.told hm rfl
  rw [Handle.replyState, hreply] at hresult
  cases hanswer : reply.answer with
  | none =>
    have hkept := h.kept _ (List.mem_of_getElem? hm) r reply rfl hreply
    simp [hanswer, hkept] at hresult
  | some answer =>
    obtain ⟨envelope, time⟩ := answer
    have hfinished : (m, envelope) ∈ g.finished := (htold envelope).1 (by rw [hanswer]; rfl)
    have henvelope := h.answers m envelope _ hfinished hm results.length (hown.lt (Nat.succ_ne_zero _)) rfl
    dsimp only at hresult
    rw [hanswer] at hresult
    cases hresult
    rw [henvelope]
    rfl

theorem receive (h : Holds p i w₀ handle₀ n s g handle)
    (hcallers : s.callers = before ++ ⟨.waiting r, results⟩ :: after) :
    Holds p i w₀ handle₀ (n + 1)
      { s with
        callers := before ++
          ⟨.ready, results ++ [.ok (toString (2 * results.length))]⟩ :: after } g handle := by
  obtain ⟨hsound, haccount, hmoves⟩ := h.of_callers hcallers
  rw [underWay_of_none rfl] at hsound
  refine { h with sound := ?_, account := ?_, moves := ?_ }
  · rw [State.dispatch, underWay_of_none rfl]
    exact hsound
  · refine haccount.advance (fun hown => ⟨?_, ?_, nofun, nofun⟩) ?_
    · have hresults : results = expected results.length := hown.results
      rw [List.length_append, List.length_singleton, expected, List.range_succ, List.map_append]
      exact congrArg (· ++ _) hresults
    · rw [List.length_append]
      exact hown.lt (Nat.succ_ne_zero _)
    · rw [Caller.handed, List.length_append]
      rfl
  · have hlast : Caller.moves ⟨.ready, results ++ [.ok (toString (2 * results.length))]⟩ =
        Caller.moves ⟨.waiting r, results⟩ + 1 := by
      rw [Caller.moves, List.length_append, List.length_singleton, Caller.moves]
      exact Nat.mul_succ 5 _
    rw [made_replace _ hlast]
    omega

end

/-! #### Moves of the owner -/

/-- An event for the handle was the first one. -/
theorem agendaOf_takeOff (h : Holds p i w₀ handle₀ n s g handle) {a : Agenda Event Handler}
    (hnext : (s.world.as p.owner).agenda.next? .all s.world.clock =
      some (.event (.serve p.handle), a)) :
    ∃ k, g.wakes = k + 1 ∧
      (((s.world.as p.owner).takeOff a).agendaOf p.owner).events =
        List.replicate k (.serve p.handle) := by
  have hevents := Agenda.events_of_popEvent (Agenda.popEvent_of_next hnext)
  have hagenda : (((s.world.as p.owner).takeOff a).agendaOf p.owner) = a := by
    obtain ⟨thread, hthread⟩ := Option.isSome_iff_exists.1 h.registered
    have hmodify := World.agendaOf_modifyThread (s.world.as p.owner) p.owner p.owner
      fun thread => { thread with agenda := a }
    rw [if_pos rfl] at hmodify
    exact hmodify.trans (by rw [World.as, hthread]; rfl)
  have hwakes : (s.world.as p.owner).agenda.events = List.replicate g.wakes (.serve p.handle) :=
    h.events
  rw [hwakes] at hevents
  cases hk : g.wakes with
  | zero =>
    rw [hk] at hevents
    cases hevents
  | succ k =>
    rw [hk, List.replicate_succ] at hevents
    rw [hagenda]
    exact ⟨k, rfl, (List.cons.inj hevents).2.symm⟩

/-- What changes when work is taken out. -/
theorem taken (h : Holds p i w₀ handle₀ n s g handle) {a : Agenda Event Handler} {queued : Queued}
    {k : Nat} (hk : g.wakes = k + 1)
    (htake : ((s.world.as p.owner).takeOff a).takeWork? p.handle = some (queued, w)) :
    ∃ rest,
      w = ((s.world.as p.owner).takeOff a).modifyHandle p.handle (fun u =>
        { u with
          mailbox := { handle.mailbox with queue := rest }, holders := u.holders + 1 }) ∧
      Dispatch.Sound p.handle
        { s.dispatch g with
          world := w
          wakes := k
          running := .served g.left.length queued :: s.running g
          left := g.left ++ [(queued, .executed)] }
        { handle with
          mailbox := { handle.mailbox with queue := rest }, holders := handle.holders + 1 } := by
  have hpresent : ((s.world.as p.owner).takeOff a).handles.get? p.handle = some handle := h.present
  have hentered : Dispatch.Sound p.handle
      { s.dispatch g with world := (s.world.as p.owner).takeOff a } handle :=
    h.sound.withWorld hpresent h.sound.held rfl rfl rfl rfl
  obtain ⟨handle', hsound⟩ := hentered.wake hk htake
  obtain ⟨rest, -, hw⟩ := World.eq_of_takeWork? hpresent htake
  have htook := World.get?_modifyHandle_self hpresent fun u =>
    { u with mailbox := { handle.mailbox with queue := rest }, holders := u.holders + 1 }
  rw [← hw] at htook
  cases hsound.present.symm.trans htook
  exact ⟨rest, hw, hsound⟩

theorem take (h : Holds p i w₀ handle₀ n s g handle) {a : Agenda Event Handler} {queued : Queued}
    (hidle : s.serving = none)
    (hnext : (s.world.as p.owner).agenda.next? .all s.world.clock =
      some (.event (.serve p.handle), a))
    (htake : ((s.world.as p.owner).takeOff a).takeWork? p.handle = some (queued, w)) :
    ∃ g' handle', Holds p i w₀ handle₀ (n + 1)
      { s with world := w, serving := some (queued, none) } g' handle' := by
  obtain ⟨k, hk, hevents⟩ := h.agendaOf_takeOff hnext
  obtain ⟨rest, hw, hsound⟩ := h.taken hk htake
  have hheld := h.held
  have hleft := h.left
  have hmoves := h.moves
  rw [State.begun, hidle] at hleft
  rw [hidle] at hheld
  refine ⟨{ g with wakes := k, left := g.left ++ [(queued, .executed)] },
    { handle with mailbox := { handle.mailbox with queue := rest }, holders := handle.holders + 1 },
    { h with
      sound := ?sound, events := ?events, owner := h.owner, live := h.live, interp := h.interp
      held := ?held, callback := h.callback, failed := h.failed, submitted := h.submitted
      registered := ?registered, calm := ?calm, counting := ?counting, doublings := ?doublings
      left := ?left, serving := ?serving, kept := ?kept, moves := ?moves }⟩
  case sound =>
    have hserved : State.running { s with world := w, serving := some (queued, none) }
        { g with wakes := k, left := g.left ++ [(queued, Fate.executed)] } =
          .served g.left.length queued :: s.running g := by
      simp [State.running, hidle]
    rw [State.dispatch, hserved]
    exact hsound
  case events =>
    rw [hw]
    exact hevents
  case held => exact Nat.succ_lt_succ hheld
  case registered =>
    rw [hw]
    exact (World.isRegistered_setAgenda _ _ _).trans h.registered
  case calm =>
    rw [hw]
    exact h.calm
  case counting => exact h.counting.congr ⟨_, hsound.present, h.callback⟩ (by rw [hw]; rfl)
  case doublings =>
    rw [hw]
    exact h.doublings
  case left =>
    rw [List.length_append, hleft]
    rfl
  case serving =>
    intro queued' envelope heq
    cases heq
  case kept =>
    rw [hw]
    exact h.kept
  case moves =>
    rw [List.length_append, List.length_singleton]
    dsimp only
    omega

/-- What is being executed was handed over by a caller. -/
theorem exists_work (h : Holds p i w₀ handle₀ n s g handle) {queued : Queued}
    {envelope : Option Envelope} (hserving : s.serving = some (queued, envelope)) :
    g.pushed[g.left.length - 1]? = some queued ∧
      ∃ j r, j < p.count ∧ queued = p.work j r := by
  have hmem : .served (g.left.length - 1) queued ∈ s.running g := by
    rw [State.running, hserving]
    exact List.mem_singleton_self _
  have hpushed : g.pushed[g.left.length - 1]? = some queued :=
    h.sound.getElem?_pushed (h.sound.history.executed _ queued hmem)
  exact ⟨hpushed, h.works queued (List.mem_of_getElem? hpushed)⟩

/-- There are never more pieces of work than calls. -/
theorem length_pushed_le (h : Holds p i w₀ handle₀ n s g handle) :
    g.pushed.length ≤ s.callers.length * p.count := by
  have hsum : (s.callers.map Caller.handed).sum ≤ (s.callers.map Caller.handed).length • p.count :=
    List.sum_le_card_nsmul _ _ fun handed hhanded => by
      obtain ⟨caller, hcaller, rfl⟩ := List.mem_map.1 hhanded
      exact (h.account.follows caller hcaller).handed_le
  rw [List.length_map, smul_eq_mul] at hsum
  exact h.account.handed.le.trans hsum

theorem length_left_le (h : Holds p i w₀ handle₀ n s g handle) :
    g.left.length + handle.mailbox.queue.length = g.pushed.length := by
  have horder : g.pushed = g.left.map (·.1) ++ handle.mailbox.queue := h.sound.order
  rw [horder, List.length_append, List.length_map]

theorem counting_as (h : Holds p i w₀ handle₀ n s g handle) :
    (s.world.as p.owner).Counting p.handle i p.id g.executed :=
  h.counting.congr ⟨handle, h.present, h.callback⟩ rfl

theorem interpOf_as (h : Holds p i w₀ handle₀ n s g handle) :
    (s.world.as p.owner).interpOf? p.handle = some i := by
  have hpresent : (s.world.as p.owner).handles.get? p.handle = some handle := h.present
  rw [World.interpOf?, hpresent]
  exact h.interp

/-- Work that was taken out counts and is answered with twice the number of its call. -/
theorem executeQueued (h : Holds p i w₀ handle₀ n s g handle)
    (hsmall : s.callers.length * p.count < 2 ^ 62) {j : Nat} {queued : Queued}
    (hserving : s.serving = some (queued, none)) (hj : j < p.count)
    (hwork : queued.work = .eval (script p.id j)) :
    Handle.executeQueued engine p.handle queued.work (s.world.as p.owner) =
      .ok (.ok (.text (toString (2 * j))), none)
        ((s.world.as p.owner).counted p.handle i g.executed) := by
  have hleft := h.left
  have hpushed := h.length_pushed_le
  have hqueue := h.length_left_le
  have hbegun : s.begun = 1 := by rw [State.begun, hserving]
  have hcallers : p.count ≤ s.callers.length * p.count := by
    refine Nat.le_mul_of_pos_left _ (Nat.pos_of_ne_zero fun hnone => ?_)
    rw [hnone] at hpushed
    omega
  rw [hwork]
  exact h.counting_as.executeQueued_script h.interpOf_as (by omega) (by omega)

theorem execute (h : Holds p i w₀ handle₀ n s g handle)
    (hsmall : s.callers.length * p.count < 2 ^ 62) {queued : Queued} {envelope : Envelope}
    (hserving : s.serving = some (queued, none))
    (hexecute : Handle.executeQueued engine p.handle queued.work (s.world.as p.owner) =
      .ok (envelope, none) w) :
    Holds p i w₀ handle₀ (n + 1)
      { s with world := w, serving := some (queued, some envelope) }
      { g with executed := g.executed + 1 } handle := by
  obtain ⟨-, j, r, hj, hwork⟩ := h.exists_work hserving
  have hdone := h.executeQueued hsmall hserving hj (by rw [hwork]; rfl)
  rw [hexecute] at hdone
  have hw : w = (s.world.as p.owner).counted p.handle i g.executed := by
    cases hdone
    rfl
  have hpresent : w.handles.get? p.handle = some handle := by
    rw [hw]
    exact h.present
  have hrunning : State.running { s with world := w, serving := some (queued, some envelope) }
      { g with executed := g.executed + 1 } = s.running g := by
    rw [State.running, State.running, hserving]
  have hheld := h.held
  have hleft := h.left
  have hmoves := h.moves
  rw [hserving] at hheld
  rw [State.begun, hserving] at hleft
  refine { h with
    sound := ?sound, events := ?events, held := hheld, registered := ?registered, calm := ?calm
    counting := ?counting, doublings := ?doublings, left := ?left, serving := ?serving
    kept := ?kept, moves := ?moves }
  case sound =>
    rw [State.dispatch, hrunning]
    exact h.sound.withWorld hpresent h.sound.held rfl rfl (by rw [hw]; rfl) (by rw [hw]; rfl)
  case events =>
    rw [hw]
    exact h.events
  case registered =>
    rw [hw]
    exact h.registered
  case calm =>
    rw [hw]
    exact h.calm
  case counting =>
    rw [hw]
    exact h.counting_as.counted
  case doublings =>
    have hdoublings := h.doublings
    rw [hw, World.doublings_counted]
    exact congrArg (· + 1) hdoublings
  case left => exact hleft
  case serving =>
    intro queued' envelope' heq j' hj' hwork'
    cases heq
    have hsame := h.executeQueued hsmall hserving hj' hwork'
    rw [hexecute] at hsame
    cases hsame
    rfl
  case kept =>
    rw [hw]
    exact h.kept
  case moves =>
    dsimp only
    omega

/-- The envelope of work was a text, so nothing is left to be done with it. -/
theorem conclude (h : Holds p i w₀ handle₀ n s g handle) {queued : Queued} {envelope : Envelope}
    (hserving : s.serving = some (queued, some envelope)) :
    envelope.failed = false ∧
      Stress.conclude p.handle queued envelope (s.world.as p.owner) =
        .ok () ((((s.world.as p.owner).finishWork p.handle false).answerQueued queued
          envelope).modifyHandle p.handle fun u => { u with holders := u.holders - 1 }) := by
  obtain ⟨-, j, r, hj, hwork⟩ := h.exists_work hserving
  have henvelope := h.serving queued envelope hserving j hj (by rw [hwork]; rfl)
  have hheld := h.held
  rw [hserving] at hheld
  have hanswered : (((s.world.as p.owner).finishWork p.handle false).answerQueued queued
      envelope).handles.get? p.handle =
        some { handle with mailbox := handle.mailbox.finish false } := by
    rw [World.handles_answerQueued]
    exact World.get?_modifyHandle_self (w := s.world.as p.owner) h.present _
  subst henvelope
  refine ⟨rfl, ?_⟩
  exact Handle.release_of_held hanswered (.inr (.inl hheld))

/-- What changes when work that was executed is concluded. -/
theorem concluded (h : Holds p i w₀ handle₀ n s g handle) {queued : Queued} {envelope : Envelope}
    (hserving : s.serving = some (queued, some envelope))
    (hconclude : Stress.conclude p.handle queued envelope (s.world.as p.owner) = .ok () w) :
    (∃ replies handles, w = { s.world.as p.owner with replies, handles }) ∧
      (∀ r reply, w.replies.get? r = some reply →
        ∃ former, s.world.replies.get? r = some former ∧ reply.lost = former.lost) ∧
      Dispatch.Sound p.handle
        { s.dispatch g with
          world := w, running := [], finished := g.finished ++ [(g.left.length - 1, envelope)] }
        { handle with mailbox := handle.mailbox.finish false, holders := handle.holders - 1 } := by
  obtain ⟨hfailed, hdone⟩ := h.conclude hserving
  rw [hconclude] at hdone
  have hw : w = (((s.world.as p.owner).finishWork p.handle false).answerQueued queued
      envelope).modifyHandle p.handle fun u => { u with holders := u.holders - 1 } := by
    cases hdone
    rfl
  have hrunning : (s.dispatch g).running = [.served (g.left.length - 1) queued] := by
    rw [State.dispatch, State.running, hserving]
  have howned : Dispatch.Sound p.handle { s.dispatch g with world := s.world.as p.owner } handle :=
    h.sound.withWorld h.present h.sound.held rfl rfl rfl rfl
  have hfinished := howned.finish hrunning envelope
  rw [hfailed] at hfinished
  refine ⟨?_, fun r reply hreply => ?_, ?_⟩
  · obtain ⟨replies, hreplies⟩ :=
      ((s.world.as p.owner).finishWork p.handle false).answerQueued_eq queued envelope
    rw [hw, hreplies]
    exact ⟨_, _, rfl⟩
  · have hanswered : (((s.world.as p.owner).finishWork p.handle false).answerQueued queued
        envelope).replies.get? r = some reply := by
      rw [hw] at hreply
      exact hreply
    obtain ⟨former, hformer, hlost⟩ := World.exists_of_get?_answerQueued hanswered
    exact ⟨former, hformer, hlost⟩
  · have hheld := h.held
    rw [hserving] at hheld
    rw [hw]
    refine hfinished.withWorld (World.get?_modifyHandle_self hfinished.present _) ?_ rfl rfl rfl rfl
    exact Bool.or_eq_true_iff.2 (.inr (decide_eq_true (Nat.sub_pos_of_lt hheld)))

theorem finish (h : Holds p i w₀ handle₀ n s g handle) {queued : Queued} {envelope : Envelope}
    (hserving : s.serving = some (queued, some envelope))
    (hconclude : Stress.conclude p.handle queued envelope (s.world.as p.owner) = .ok () w) :
    ∃ g' handle', Holds p i w₀ handle₀ (n + 1) { s with world := w, serving := none } g' handle' := by
  obtain ⟨hpushed, -⟩ := h.exists_work hserving
  obtain ⟨⟨replies, handles, hw⟩, hformer, hsound⟩ := h.concluded hserving hconclude
  have hbegun : s.begun = 0 := by rw [State.begun, hserving]
  have hheld := h.held
  have hleft := h.left
  have hmoves := h.moves
  rw [hserving] at hheld
  refine ⟨{ g with finished := g.finished ++ [(g.left.length - 1, envelope)] },
    { handle with mailbox := handle.mailbox.finish false, holders := handle.holders - 1 },
    { h with
      sound := ?sound, events := ?events, owner := h.owner, live := h.live, interp := h.interp
      held := ?held, callback := h.callback, failed := h.failed, submitted := h.submitted
      registered := ?registered, calm := ?calm, counting := ?counting, doublings := ?doublings
      left := ?left, answers := ?answers, serving := ?serving, kept := ?kept, moves := ?moves }⟩
  case sound => exact hsound
  case events =>
    rw [hw]
    exact h.events
  case held => exact Nat.sub_pos_of_lt hheld
  case registered =>
    rw [hw]
    exact h.registered
  case calm =>
    rw [hw]
    exact h.calm
  case counting => exact h.counting.congr ⟨_, hsound.present, h.callback⟩ (by rw [hw]; rfl)
  case doublings =>
    rw [hw]
    exact h.doublings
  case left =>
    rw [hbegun] at hleft
    exact hleft
  case answers =>
    intro m envelope' queued' hmem hm
    rcases List.mem_append.1 hmem with hold | hnew
    · exact h.answers m envelope' queued' hold hm
    · cases List.mem_singleton.1 hnew
      cases hpushed.symm.trans hm
      exact h.serving _ _ hserving
  case serving =>
    intro queued' envelope heq
    cases heq
  case kept =>
    intro queued' hqueued' r reply hr hreply
    obtain ⟨former, hget, hlost⟩ := hformer r reply hreply
    rw [hlost]
    exact h.kept queued' hqueued' r former hr hget
  case moves =>
    rw [List.length_append, List.length_singleton]
    dsimp only
    omega

/-! #### What happens besides -/

theorem aside (h : Holds p i w₀ handle₀ n s g handle) (haside : Aside p s.world w) :
    ∃ handle', Holds p i w₀ handle₀ n { s with world := w } g handle' := by
  have hunasked := haside.handle
  rw [h.present, Option.map_some] at hunasked
  obtain ⟨handle', hpresent, hsame⟩ := Option.map_eq_some_iff.1 hunasked
  obtain ⟨stopRequested, rfl⟩ := exists_eq_of_unasked hsame
  have hinterp : s.world.interpOf? p.handle = some i := by
    rw [World.interpOf?, h.present]
    exact h.interp
  refine ⟨{ handle with stopRequested }, { h with
    sound := ?_, events := haside.events.trans h.events
    owner := h.owner, live := h.live, interp := h.interp, held := h.held, callback := h.callback
    failed := h.failed, submitted := h.submitted
    registered := haside.registered.trans h.registered
    calm := haside.interrupted.trans h.calm
    counting := h.counting.congr ⟨_, hpresent, h.callback⟩ (haside.interp i hinterp)
    doublings := haside.doublings.trans h.doublings
    kept := ?_ }⟩
  · exact h.sound.withWorld hpresent h.sound.held rfl rfl haside.replies haside.nextReply
  · dsimp only
    rw [haside.replies]
    exact h.kept

theorem vain (h : Holds p i w₀ handle₀ n s g handle) {a : Agenda Event Handler}
    (hnext : (s.world.as p.owner).agenda.next? .all s.world.clock =
      some (.event (.serve p.handle), a))
    (htake : ((s.world.as p.owner).takeOff a).takeWork? p.handle = none) :
    ∃ g', Holds p i w₀ handle₀ n { s with world := (s.world.as p.owner).takeOff a } g' handle := by
  obtain ⟨k, -, hevents⟩ := h.agendaOf_takeOff hnext
  have htaken : Dispatch.Sound p.handle
      { s.dispatch g with world := (s.world.as p.owner).takeOff a } handle :=
    h.sound.withWorld h.present h.sound.held rfl rfl rfl rfl
  refine ⟨{ g with wakes := k }, { h with
    sound := ?_, events := hevents, registered := ?_, counting := ?_ }⟩
  · exact htaken.wakeIdle htake
  · exact (World.isRegistered_setAgenda _ _ _).trans h.registered
  · exact h.counting.congr ⟨_, h.present, h.callback⟩ rfl

/-! #### Moves -/

theorem move (h : Holds p i w₀ handle₀ n s g handle) (hsmall : s.callers.length * p.count < 2 ^ 62)
    (hmove : Move p s s') : ∃ g' handle', Holds p i w₀ handle₀ (n + 1) s' g' handle' := by
  cases hmove with
  | check hcallers hcount _ => exact ⟨g, handle, h.check hcallers hcount⟩
  | push hcallers _ => exact ⟨_, _, h.push hcallers⟩
  | post hcallers _ => exact ⟨_, handle, h.post hcallers⟩
  | recheck hcallers _ => exact ⟨g, handle, h.recheck hcallers⟩
  | receive hcallers hresult =>
    rw [h.textOf_of_replyState hcallers hresult]
    exact ⟨g, handle, h.receive hcallers⟩
  | take hidle hnext htake => exact h.take hidle hnext htake
  | execute hserving hexecute => exact ⟨_, handle, h.execute hsmall hserving hexecute⟩
  | finish hserving hconclude => exact h.finish hserving hconclude

theorem rest (h : Holds p i w₀ handle₀ n s g handle) (hrest : Rest p s s') :
    ∃ g' handle', Holds p i w₀ handle₀ n s' g' handle' := by
  cases hrest with
  | aside haside =>
    obtain ⟨handle', hs'⟩ := h.aside haside
    exact ⟨g, handle', hs'⟩
  | vain _ hnext htake =>
    obtain ⟨g', hs'⟩ := h.vain hnext htake
    exact ⟨g', handle, hs'⟩

end Holds

/-! ### What the loop of the owner does besides -/

namespace Aside

/-- Time passes. -/
theorem tick (w : World) (t : Time) : Aside p w { w with clock := t } :=
  ⟨rfl, fun _ _ => rfl, rfl, rfl, rfl, rfl, rfl, rfl⟩

theorem modifyLoop (w : World) (l : LoopId) (f : Loop → Loop) : Aside p w (w.modifyLoop l f) :=
  ⟨rfl, fun _ _ => rfl, rfl, rfl, rfl, rfl, rfl, rfl⟩

/-- The loop asks whether it is to stop. -/
theorem handleDone (w : World) : Aside p w ((EventLoop.handleDone p.handle).after w) := by
  have hdone : (EventLoop.handleDone p.handle).after w = w ∨
      (EventLoop.handleDone p.handle).after w = w.modifyHandle p.handle unasked := by
    rw [Act.after, EventLoop.handleDone, Act.get_bind]
    cases w.handles.get? p.handle with
    | none => exact .inl rfl
    | some handle =>
      dsimp only
      cases handle.deleted with
      | false => exact .inr rfl
      | true => exact .inl rfl
  rcases hdone with hdone | hdone
  · rw [hdone]
    exact .tick w w.clock
  · rw [hdone]
    refine ⟨?_, fun _ _ => rfl, rfl, rfl, rfl, rfl, rfl, rfl⟩
    rw [World.get?_modifyHandle, if_pos rfl, Option.map_map]
    rfl

/-- The loop arms its timer. -/
theorem armKeepalive (w : World) (l : LoopId) : Aside p w (w.armKeepalive l) := by
  rcases World.armKeepalive_cases w l with hforgets | ⟨_, deadline, -, -, hadds⟩
  · rw [hforgets]
    exact .modifyLoop w l _
  · rw [hadds]
    refine ⟨rfl, fun _ _ => rfl, rfl, rfl, ?_, ?_, rfl, rfl⟩
    · exact World.events_setAgenda (a := (w.agenda.addTimer deadline _).2) rfl p.owner
    · exact World.isRegistered_setAgenda _ _ _

theorem ensureArmed (w : World) (l : LoopId) : Aside p w (w.ensureArmed l) := by
  rw [World.ensureArmed]
  split
  · exact .tick w w.clock
  · exact .armKeepalive w l

end Aside

end ScriptHost.Cli.Stress
