import ScriptHost.Proofs.Stress.Invariant

/-!
# Results are neither lost nor mixed up

Every move brings a run nearer to its end, and as long as it is not there, somebody can move. At the
end everybody has the results of all calls.
-/

namespace ScriptHost.Cli.Stress

variable {p : Plan} {i : InterpId} {w w₀ : World} {handle handle₀ : Handle} {n : Nat} {s s' : State}

/-! ### Runs -/

section

variable {g : History} {callers : Nat}

/-- What a run starts with. -/
theorem Holds.start (hw : p.Ready w i handle) (callers : Nat) :
    Holds p i w handle 0 (State.start w callers) {} handle := by
  have hnone : underWay (State.start w callers).callers = 0 := by
    simp [underWay, State.start, Caller.call?, Stage.call?]
  have hsubmitted : handle.mailbox.submitted = handle.mailbox.completed := hw.completed.symm
  refine
    { sound := ?_, events := hw.events, owner := hw.owner, live := hw.live, interp := hw.interp
      held := hw.held, callback := hw.callback, failed := hw.failed, submitted := rfl
      registered := hw.registered, calm := hw.calm, counting := hw.counting, doublings := rfl
      left := rfl, works := List.forall_mem_nil _
      answers := fun _ _ _ hmem => absurd hmem List.not_mem_nil
      serving := fun _ _ hnothing => absurd hnothing.symm (Option.some_ne_none _)
      kept := List.forall_mem_nil _, account := ?_, moves := ?_ }
  · rw [State.dispatch, hnone]
    refine ⟨hw.present, ?_, ?_, ?_, .start, .start w, ?_, ?_, ?_⟩
    · exact Bool.or_eq_true_iff.2 (.inr (decide_eq_true hw.held))
    · rw [hw.queue]
      rfl
    · refine ⟨?_, ?_⟩
      · rw [hw.queue, hsubmitted]
        rfl
      · rw [hw.failed]
        exact Nat.zero_le _
    · intro _
      rw [hw.queue]
      exact Nat.zero_le _
    · intro _
      exact Multiset.notMem_zero _
    · intro _ hqueue
      exact absurd hw.queue hqueue
  · refine ⟨fun caller hcaller => ?_, ?_⟩
    · rw [List.eq_of_mem_replicate hcaller]
      exact ⟨rfl, Nat.zero_le _, fun hmoves => absurd rfl hmoves,
        fun r hr => absurd hr.symm (Option.some_ne_none r)⟩
    · simp [State.start, Caller.handed, Stage.reply?]
  · simp [State.start, made, Caller.moves, Stage.moves]

/-- There are as many callers as before. -/
theorem Move.length_callers (h : Move p s s') : s'.callers.length = s.callers.length := by
  cases h with
  | check hcallers | push hcallers | post hcallers | recheck hcallers | receive hcallers =>
    rw [hcallers, List.length_append, List.length_append]
    rfl
  | take | execute | finish => rfl

theorem Run.length_callers (h : Run p s n s') : s'.callers.length = s.callers.length := by
  induction h with
  | start => rfl
  | move _ hmove ih => exact hmove.length_callers.trans ih
  | rest _ hrest ih => cases hrest <;> exact ih

/-- What a run preserves. -/
theorem Holds.run (hw : p.Ready w i handle) (hsmall : callers * p.count < 2 ^ 62)
    (hrun : Run p (State.start w callers) n s) :
    s.callers.length = callers ∧ ∃ g handle', Holds p i w handle n s g handle' := by
  have hlength : (State.start w callers).callers.length = callers := List.length_replicate
  refine ⟨hrun.length_callers.trans hlength, ?_⟩
  induction hrun with
  | start => exact ⟨{}, handle, .start hw callers⟩
  | move hrun hmove ih =>
    obtain ⟨g, handle', hs⟩ := ih
    have hcallers := hrun.length_callers.trans hlength
    exact hs.move (by rwa [hcallers]) hmove
  | rest _ hrest ih =>
    obtain ⟨g, handle', hs⟩ := ih
    exact hs.rest hrest

/-! ### What is done at one go -/

/-- A caller who found that the handle is not deleted hands its work over at one go. -/
theorem Holds.submitForReply (h : Holds p i w₀ handle₀ n s g handle)
    {before after : List Caller} {results : List (Except HostError String)}
    (hcallers : s.callers = before ++ ⟨.checked, results⟩ :: after) :
    ∃ w, Handle.submitForReply p.handle (.eval (script p.id results.length)) s.world =
        .ok (.ok s.world.newReply.1) w ∧
      Run p s 3 { s with
        world := w
        callers := before ++ ⟨.waiting s.world.newReply.1, results⟩ :: after } := by
  have hpushed := h.push hcallers
  have hposted := hpushed.post rfl
  have hrun := ((Run.start.move (.push hcallers h.calm)).move
    (.post rfl (by rw [hpushed.ownerOf]; exact hpushed.registered))).move
      (.recheck rfl hposted.isDeleted)
  have hthere : s.world.newReply.2.isRegistered handle.owner = true := by
    rw [h.owner]
    exact h.registered
  have hsubmit := World.submit_of_there (w := s.world.newReply.2) h.calm h.present h.live hthere
    (.eval (script p.id results.length)) (some s.world.newReply.1)
  refine ⟨_, ?_, hrun⟩
  dsimp only
  rw [hpushed.ownerOf, ← h.owner, Handle.submitForReply, Act.get_bind]
  dsimp only
  rw [hsubmit]
  rfl

/-- The owner serves work at one go. -/
theorem Holds.serveOne (h : Holds p i w₀ handle₀ n s g handle)
    (hsmall : s.callers.length * p.count < 2 ^ 62) {a : Agenda Event Handler} {queued : Queued}
    (hidle : s.serving = none)
    (hnext : (s.world.as p.owner).agenda.next? .all s.world.clock =
      some (.event (.serve p.handle), a))
    (htake : ((s.world.as p.owner).takeOff a).takeWork? p.handle = some (queued, w)) :
    ∃ w', Handle.serveOne engine p.handle ((s.world.as p.owner).takeOff a) = .ok () w' ∧
      Run p s 3 { s with world := w', serving := none } := by
  obtain ⟨g₁, handle₁, htaken⟩ := h.take hidle hnext htake
  have hpresent : ((s.world.as p.owner).takeOff a).handles.get? p.handle = some handle := h.present
  have howner : w.as p.owner = w := by
    obtain ⟨rest, -, rfl⟩ := World.eq_of_takeWork? hpresent htake
    rfl
  obtain ⟨-, j, r, hj, hwork⟩ := htaken.exists_work rfl
  have hexecute := htaken.executeQueued hsmall rfl hj (by rw [hwork]; rfl)
  have hexecuted := htaken.execute hsmall rfl hexecute
  obtain ⟨hfailed, hconclude⟩ := hexecuted.conclude rfl
  have hrun := ((Run.start.move (.take hidle hnext htake)).move (.execute rfl hexecute)).move
    (.finish rfl hconclude)
  refine ⟨_, ?_, hrun⟩
  have hcurrent : (w.counted p.handle i g₁.executed).as p.owner =
      w.counted p.handle i g₁.executed := by
    have hkept : ((w.as p.owner).counted p.handle i g₁.executed).as p.owner =
        (w.as p.owner).counted p.handle i g₁.executed := rfl
    rwa [howner] at hkept
  dsimp only at hexecute hconclude ⊢
  rw [howner] at hexecute hconclude ⊢
  rw [hcurrent] at hconclude ⊢
  rw [Handle.serveOne, Act.get_bind, htake]
  dsimp only
  rw [Act.set_bind, Act.bind_of_ok hexecute]
  have hserved := Act.bind_of_ok hconclude fun _ => (pure () : Act Unit)
  simp only [Stress.conclude, bind_assoc] at hserved
  exact hserved

/-! ### The end of a run -/

namespace Holds

/-- Work that left the mailbox is being executed or finished. -/
theorem length_finished (h : Holds p i w₀ handle₀ n s g handle) :
    g.finished.length + s.serving.toList.length = g.left.length := by
  have hperm : (Dispatch.numbers (s.running g) g.finished).length = g.left.length :=
    h.sound.history.perm.length_eq.trans List.length_range
  rw [Dispatch.numbers, List.length_append, List.length_map, Nat.add_comm] at hperm
  rw [← hperm, State.running]
  cases s.serving <;> rfl

/-- A call takes its caller five moves and the owner three. -/
theorem moves_le (h : Holds p i w₀ handle₀ n s g handle) :
    n ≤ 8 * (s.callers.length * p.count) := by
  have hmoves := h.moves
  have hmade := made_le h.account.follows
  have hpushed := h.length_pushed_le
  have hqueue := h.length_left_le
  have hfinished := h.length_finished
  have hleft := h.left
  rw [Nat.mul_left_comm] at hmade
  omega

/-- Work that left the mailbox is finished as soon as nothing is being executed. -/
theorem exists_mem_finished (h : Holds p i w₀ handle₀ n s g handle) (hidle : s.serving = none)
    {m : Nat} (hm : m < g.left.length) : ∃ envelope, (m, envelope) ∈ g.finished := by
  have hperm : (Dispatch.numbers (s.running g) g.finished).Perm (List.range g.left.length) :=
    h.sound.history.perm
  have hnone : s.running g = [] := by rw [State.running, hidle]
  rw [hnone] at hperm
  obtain ⟨⟨m', envelope⟩, hmem, rfl⟩ := List.mem_map.1 (hperm.mem_iff.2 (List.mem_range.2 hm))
  exact ⟨envelope, hmem⟩

/-! #### Somebody can move -/

/-- A caller who does not wait goes on. -/
theorem exists_move_of_call (h : Holds p i w₀ handle₀ n s g handle) {caller : Caller}
    (hcaller : caller ∈ s.callers) (hcall : caller.call? ≠ none) : ∃ s', Move p s s' := by
  obtain ⟨before, after, hsplit⟩ := List.append_of_mem hcaller
  obtain ⟨stage, results⟩ := caller
  cases stage with
  | ready | waiting r => exact absurd rfl hcall
  | checked => exact ⟨_, .push hsplit h.calm⟩
  | pushed r => exact ⟨_, .post hsplit (by rw [h.ownerOf]; exact h.registered)⟩
  | posted r => exact ⟨_, .recheck hsplit h.isDeleted⟩

/-- A caller makes its next call. -/
theorem exists_move_of_ready (h : Holds p i w₀ handle₀ n s g handle)
    {results : List (Except HostError String)} (hcaller : ⟨.ready, results⟩ ∈ s.callers)
    (hcount : results.length < p.count) : ∃ s', Move p s s' := by
  obtain ⟨before, after, hsplit⟩ := List.append_of_mem hcaller
  exact ⟨_, .check hsplit hcount h.isDeleted⟩

/-- A caller is answered once all work is done. -/
theorem exists_move_of_waiting (h : Holds p i w₀ handle₀ n s g handle) (hidle : s.serving = none)
    (hqueue : handle.mailbox.queue = []) {r : ReplyId} {results : List (Except HostError String)}
    (hcaller : ⟨.waiting r, results⟩ ∈ s.callers) : ∃ s', Move p s s' := by
  obtain ⟨before, after, hsplit⟩ := List.append_of_mem hcaller
  obtain ⟨m, hm⟩ := (h.account.follows _ hcaller).own r rfl
  have hlength := h.length_left_le
  rw [hqueue, List.length_nil, Nat.add_zero] at hlength
  have hlt : m < g.left.length := by
    rw [hlength]
    exact (List.getElem?_eq_some_iff.1 hm).1
  obtain ⟨envelope, hfinished⟩ := h.exists_mem_finished hidle hlt
  obtain ⟨reply, hreply, htold⟩ := h.told hm rfl
  obtain ⟨⟨envelope', time⟩, hanswer, rfl⟩ := Option.map_eq_some_iff.1 ((htold envelope).2 hfinished)
  have hresult : Handle.replyState s.world p.handle r none = some (.ok envelope') := by
    rw [Handle.replyState, hreply]
    dsimp only
    rw [hanswer]
    rfl
  exact ⟨_, .receive hsplit hresult⟩

/-- The owner takes work that waits, as an event was posted for it. -/
theorem exists_move_of_queue (h : Holds p i w₀ handle₀ n s g handle) (hidle : s.serving = none)
    (hcalls : ∀ caller ∈ s.callers, caller.call? = none) (hqueue : handle.mailbox.queue ≠ []) :
    ∃ s', Move p s s' := by
  have hnone : underWay s.callers = 0 := by
    rw [underWay, List.filterMap_eq_nil_iff.2 hcalls]
    rfl
  have hwoken : Dispatch.Woken (underWay s.callers) g.wakes handle.mailbox.queue.length :=
    h.sound.woken
  rw [hnone] at hwoken
  have hwaiting := hwoken (Multiset.notMem_zero _)
  rw [Multiset.count_zero, Nat.add_zero] at hwaiting
  obtain ⟨k, hk⟩ := Nat.exists_eq_add_one_of_ne_zero
    (Nat.ne_of_gt ((List.length_pos_iff.2 hqueue).trans_le hwaiting))
  have hevents : (s.world.as p.owner).agenda.events =
      .serve p.handle :: List.replicate k (.serve p.handle) := by
    rw [← List.replicate_succ, ← hk]
    exact h.events
  have hnext := Agenda.next?_of_event hevents s.world.clock
  obtain ⟨queued, rest, hcons⟩ := List.exists_cons_of_ne_nil hqueue
  have hpresent (a : Agenda Event Handler) :
      ((s.world.as p.owner).takeOff a).handles.get? p.handle = some handle := h.present
  exact ⟨_, .take hidle hnext (World.takeWork?_of_cons (hpresent _) h.sound.held hcons)⟩

/-- As long as not all moves are made, somebody can move. -/
theorem exists_move (h : Holds p i w₀ handle₀ n s g handle)
    (hsmall : s.callers.length * p.count < 2 ^ 62)
    (hlt : n < 8 * (s.callers.length * p.count)) : ∃ s', Move p s s' := by
  cases hserving : s.serving with
  | some serving =>
    obtain ⟨queued, envelope⟩ := serving
    cases envelope with
    | none =>
      obtain ⟨-, j, r, hj, hwork⟩ := h.exists_work hserving
      exact ⟨_, .execute hserving (h.executeQueued hsmall hserving hj (by rw [hwork]; rfl))⟩
    | some envelope => exact ⟨_, .finish hserving (h.conclude hserving).2⟩
  | none =>
    by_contra hnobody
    have hcalls : ∀ caller ∈ s.callers, caller.call? = none := fun caller hcaller =>
      by_contra fun hcall => hnobody (h.exists_move_of_call hcaller hcall)
    have hqueue : handle.mailbox.queue = [] :=
      by_contra fun hqueue => hnobody (h.exists_move_of_queue hserving hcalls hqueue)
    -- so all callers made all their calls, and all work is finished
    have hdone : ∀ caller ∈ s.callers, caller = { results := expected p.count } := by
      rintro ⟨stage, results⟩ hcaller
      have hfollows := h.account.follows _ hcaller
      cases stage with
      | ready =>
        have hle : results.length ≤ p.count := hfollows.le
        have hcount : ¬ results.length < p.count := fun hcount =>
          hnobody (h.exists_move_of_ready hcaller hcount)
        refine hfollows.eq_of_moves ?_
        rw [Caller.moves, Stage.moves, Nat.add_zero, Nat.le_antisymm hle (Nat.not_lt.1 hcount)]
      | checked | pushed r | posted r => exact absurd (hcalls _ hcaller) (Option.some_ne_none _)
      | waiting r => exact absurd (h.exists_move_of_waiting hserving hqueue hcaller) hnobody
    obtain ⟨hmade, hhanded⟩ := sums_of_done hdone
    have hmoves := h.moves
    have hpushed := h.account.handed
    have hlength := h.length_left_le
    have hfinished := h.length_finished
    have hleft := h.left
    have hbegun : s.begun = 0 := by rw [State.begun, hserving]
    rw [Nat.mul_left_comm] at hmade
    rw [hqueue, List.length_nil] at hlength
    rw [hserving, Option.toList_none, List.length_nil] at hfinished
    omega

/-- What is true once all moves are made. -/
theorem done (h : Holds p i w₀ handle₀ n s g handle)
    (hn : n = 8 * (s.callers.length * p.count)) :
    s.callers = List.replicate s.callers.length { results := expected p.count } ∧
      (s.world.interp i).global? "counter" = some (toString (s.callers.length * p.count)) ∧
      s.world.doublings = w₀.doublings + s.callers.length * p.count ∧
      handle.mailbox.submitted = handle₀.mailbox.submitted + s.callers.length * p.count ∧
      handle.mailbox.completed = handle.mailbox.submitted ∧ handle.mailbox.failed = 0 := by
  have hmoves := h.moves
  have hmade := made_le h.account.follows
  have hpushed := h.length_pushed_le
  have hlength := h.length_left_le
  have hfinished := h.length_finished
  have hleft := h.left
  have hmul : s.callers.length * (5 * p.count) = 5 * (s.callers.length * p.count) :=
    Nat.mul_left_comm _ _ _
  have hall : g.executed = s.callers.length * p.count := by omega
  have hcallers := eq_of_made h.account.follows (by omega)
  have hsubmitted := h.submitted
  have hbalanced : handle.mailbox.submitted = handle.mailbox.completed +
      handle.mailbox.queue.length + (s.running g).length := h.sound.balanced.submitted
  have hrunning : (s.running g).length = s.serving.toList.length := by
    rw [State.running]
    cases s.serving <;> rfl
  refine ⟨List.eq_replicate_iff.2 ⟨rfl, hcallers⟩, ?_, ?_, ?_, ?_, h.failed⟩
  · rw [← hall]
    exact h.counting.counter
  · rw [← hall]
    exact h.doublings
  · omega
  · omega

end Holds

/-- All moves can be made. -/
theorem exists_run (hw : p.Ready w i handle) (hsmall : callers * p.count < 2 ^ 62)
    (hn : n ≤ 8 * (callers * p.count)) : ∃ s, Run p (State.start w callers) n s := by
  induction n with
  | zero => exact ⟨_, .start⟩
  | succ n ih =>
    obtain ⟨s, hrun⟩ := ih (Nat.le_of_succ_le hn)
    obtain ⟨rfl, g, handle', hs⟩ := Holds.run hw hsmall hrun
    obtain ⟨s', hmove⟩ := hs.exists_move hsmall hn
    exact ⟨s', hrun.move hmove⟩

/-- **Results are neither lost nor mixed up.**

Any number of callers make `p.count` calls each, one after the other, and the owner of the handle
serves them in its loop. Whatever the order of the moves: every caller has got twice the number of
its call for each call that it made. Somebody can move until all moves are made, which are eight for
a call. Then every caller has the results of all its calls, the counter is the number of the calls,
the closure was run once for each of them, and the mailbox says that all of it was completed and
nothing failed. -/
theorem results_paired (hw : p.Ready w i handle) (hsmall : callers * p.count < 2 ^ 62)
    (hrun : Run p (State.start w callers) n s) :
    (∀ caller ∈ s.callers, caller.results = expected caller.results.length) ∧
      n ≤ 8 * (callers * p.count) ∧
      (n < 8 * (callers * p.count) → ∃ s', Move p s s') ∧
      (n = 8 * (callers * p.count) →
        s.callers = List.replicate callers { results := expected p.count } ∧
        (s.world.interp i).global? "counter" = some (toString (callers * p.count)) ∧
        s.world.doublings = w.doublings + callers * p.count ∧
        ∃ handle', s.world.handles.get? p.handle = some handle' ∧
          handle'.mailbox.submitted = handle.mailbox.submitted + callers * p.count ∧
          handle'.mailbox.completed = handle'.mailbox.submitted ∧ handle'.mailbox.failed = 0) := by
  obtain ⟨rfl, g, handle', hs⟩ := Holds.run hw hsmall hrun
  refine ⟨fun caller hcaller => (hs.account.follows caller hcaller).results, hs.moves_le,
    hs.exists_move hsmall, fun hn => ?_⟩
  obtain ⟨hcallers, hcounter, hdoublings, hmailbox⟩ := hs.done hn
  exact ⟨hcallers, hcounter, hdoublings, handle', hs.present, hmailbox⟩

/-- A world with a worker whose interpreter has the counter and the closure. -/
def prepared : World :=
  ((Handle.register 1 .double).after ((Worker.spawn {}).after {})).modifyInterp 0
    (·.setVar "counter" "0")

/-- Two calls for every caller of that worker. -/
def trial : Plan where
  handle := 1
  owner := 1
  id := "cb1"
  count := 2

theorem ready_prepared : ∃ handle, trial.Ready prepared 0 handle := by
  refine ⟨_, ⟨rfl, rfl, rfl, rfl, Nat.succ_pos _, rfl, rfl, rfl, rfl, rfl, rfl, rfl, ?_⟩⟩
  exact ⟨⟨_, rfl, rfl⟩, rfl, rfl, rfl, ⟨_, rfl⟩, rfl, rfl⟩

/-- Three callers make two calls each. -/
theorem results_paired_trial :
    ∃ s, Run trial (State.start prepared 3) 48 s ∧
      s.callers = List.replicate 3 { results := [.ok "0", .ok "2"] } ∧
      (s.world.interp 0).global? "counter" = some "6" ∧
      ∃ handle, s.world.handles.get? 1 = some handle ∧ handle.mailbox.completed = 6 ∧
        handle.mailbox.submitted = 6 ∧ handle.mailbox.failed = 0 := by
  obtain ⟨handle, hready⟩ := ready_prepared
  have hsmall : 3 * trial.count < 2 ^ 62 := by decide
  obtain ⟨s, hrun⟩ := exists_run hready hsmall (Nat.le_refl (8 * (3 * trial.count)))
  obtain ⟨-, -, -, hend⟩ := results_paired hready hsmall hrun
  obtain ⟨hcallers, hcounter, -, handle', hhandle', hsubmitted, hcompleted, hfailed⟩ := hend rfl
  have hnone : handle.mailbox.submitted = 0 := by
    cases hready.present
    rfl
  rw [hnone] at hsubmitted
  exact ⟨s, hrun, hcallers, hcounter, handle', hhandle', hcompleted.trans hsubmitted, hsubmitted,
    hfailed⟩

end

end ScriptHost.Cli.Stress
