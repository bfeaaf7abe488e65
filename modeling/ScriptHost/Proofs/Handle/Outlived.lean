import ScriptHost.EventLoop
import ScriptHost.Proofs.Handle.Bookkeeping
import ScriptHost.Proofs.Handle.Fatal
import ScriptHost.Proofs.Run.Handle
import ScriptHost.Proofs.World.Removal

/-!
# Work that outlives its handle

When the last holder of a handle goes, the owning thread serves the work that is still queued, piece
by piece, and then gives the interpreter up. Pieces may fail and panic, and they may delete the
interpreter. Only a fatal signal stops this, and then the pieces behind it are lost and the
interpreter stays.
-/

namespace ScriptHost

variable {e : Engine} {h : HandleId} {w u v w' : World} {i : InterpId}

namespace Handle

/-! ### One piece of work -/

/-- Executing some work comes to an envelope without a fatal signal. -/
inductive Yields (e : Engine) (h : HandleId) (work : Work) (w : World) : Envelope → World → Prop
  /-- The interpreter has been deleted by now. -/
  | gone (hi : w.interpOf? h = none) : Yields e h work w (.error .deleted) w
  | value {i : InterpId} {envelope : Envelope} {u : World} (hi : w.interpOf? h = some i)
      (hrun : execute e i work w = .ok envelope u) : Yields e h work w envelope u
  | panic {i : InterpId} {payload : PanicPayload} {u : World} (hi : w.interpOf? h = some i)
      (hrun : execute e i work w = .error (.panic payload) u) :
      Yields e h work w (.error (.eval s!"queued command panicked: {payload.message}")) u

/-- A fatal signal cuts some work short. -/
def Raises (e : Engine) (h : HandleId) (work : Work) (w : World) (signal : FatalSignal)
    (u : World) : Prop :=
  ∃ i, w.interpOf? h = some i ∧ execute e i work w = .error (.unwind signal) u

theorem executeQueued_eq_none_iff {work : Work} {envelope : Envelope} :
    executeQueued e h work w = .ok (envelope, none) u ↔ Yields e h work w envelope u := by
  rw [executeQueued_eq]
  constructor
  · intro hrun
    cases hi : w.interpOf? h with
    | none =>
      rw [hi] at hrun
      cases hrun
      exact .gone hi
    | some i =>
      rw [hi] at hrun
      dsimp only at hrun
      split at hrun
      · next hexecute =>
        cases hrun
        exact .value hi hexecute
      · next hexecute =>
        cases hrun
        exact .panic hi hexecute
      · cases hrun
      · cases hrun
  · rintro (hi | ⟨hi, hexecute⟩ | ⟨hi, hexecute⟩)
    · rw [hi]
    · rw [hi]
      dsimp only
      rw [hexecute]
    · rw [hi]
      dsimp only
      rw [hexecute]

theorem executeQueued_eq_some_iff {work : Work} {envelope : Envelope} {signal : FatalSignal} :
    executeQueued e h work w = .ok (envelope, some signal) u ↔
      envelope = .error (.fatal signal) ∧ Raises e h work w signal u := by
  rw [executeQueued_eq]
  constructor
  · intro hrun
    cases hi : w.interpOf? h with
    | none =>
      rw [hi] at hrun
      cases hrun
    | some i =>
      rw [hi] at hrun
      dsimp only at hrun
      split at hrun
      · cases hrun
      · cases hrun
      · next hexecute =>
        cases hrun
        exact ⟨rfl, i, hi, hexecute⟩
      · cases hrun
  · rintro ⟨rfl, i, hi, hexecute⟩
    rw [hi]
    dsimp only
    rw [hexecute]

/-! ### All pieces -/

/-- Some pieces of work are served one after the other, and each is answered when it is done. -/
inductive Serves (e : Engine) (h : HandleId) : World → List (Queued × Envelope) → World → Prop
  | done (w : World) : Serves e h w [] w
  | piece {w u w' : World} {queued : Queued} {envelope : Envelope}
      {served : List (Queued × Envelope)} (hfirst : Yields e h queued.work w envelope u)
      (hrest : Serves e h (u.answerDetached queued envelope) served w') :
      Serves e h w ((queued, envelope) :: served) w'

theorem serveDetached_of_yields {queued : Queued} {envelope : Envelope} (rest : List Queued)
    (hfirst : Yields e h queued.work w envelope u) :
    serveDetached e h (queued :: rest) w =
      serveDetached e h rest (u.answerDetached queued envelope) := by
  rw [serveDetached, Act.bind_of_ok (executeQueued_eq_none_iff.2 hfirst)]
  rfl

theorem serveDetached_of_raises {queued : Queued} {signal : FatalSignal} (rest : List Queued)
    (hfirst : Raises e h queued.work w signal u) :
    serveDetached e h (queued :: rest) w =
      .error (.unwind signal)
        ((u.answerDetached queued (.error (.fatal signal))).loseReplies rest) := by
  rw [serveDetached, Act.bind_of_ok (executeQueued_eq_some_iff.2 ⟨rfl, hfirst⟩)]
  rfl

theorem Serves.serveDetached {served : List (Queued × Envelope)} (hserves : Serves e h w served u)
    (rest : List Queued) :
    serveDetached e h (served.map (·.1) ++ rest) w = serveDetached e h rest u := by
  induction hserves with
  | done => rfl
  | piece hfirst _ ih => exact (serveDetached_of_yields _ hfirst).trans ih

/-- How serving some pieces of work may end. -/
theorem serveDetached_cases (e : Engine) (h : HandleId) (pending : List Queued) (w : World) :
    (∃ served u, Serves e h w served u ∧ served.map (·.1) = pending) ∨
    (∃ served queued rest u signal v, Serves e h w served u ∧
      pending = served.map (·.1) ++ queued :: rest ∧ Raises e h queued.work u signal v) ∨
    ∃ v, serveDetached e h pending w = .error .stalled v := by
  induction pending generalizing w with
  | nil => exact .inl ⟨[], w, .done w, rfl⟩
  | cons queued rest ih =>
    cases hrun : executeQueued e h queued.work w with
    | ok result u =>
      obtain ⟨envelope, _ | signal⟩ := result
      · have hfirst := executeQueued_eq_none_iff.1 hrun
        rcases ih (u.answerDetached queued envelope) with
          ⟨served, v, hserves, rfl⟩ | ⟨served, former, rest', v, signal, v', hserves, rfl, hraises⟩ |
            ⟨v, hstalls⟩
        · exact .inl ⟨_, v, .piece hfirst hserves, rfl⟩
        · exact .inr (.inl ⟨_, former, rest', v, signal, v', .piece hfirst hserves, rfl, hraises⟩)
        · exact .inr (.inr ⟨v, (serveDetached_of_yields rest hfirst).trans hstalls⟩)
      · have hraises := (executeQueued_eq_some_iff.1 hrun).2
        exact .inr (.inl ⟨[], queued, rest, w, signal, u, .done w, rfl, hraises⟩)
    | error halt u =>
      have hstalled : halt = .stalled := by
        rw [executeQueued_eq] at hrun
        split at hrun
        · cases hrun
        · split at hrun
          · cases hrun
          · cases hrun
          · cases hrun
          · cases hrun
            rfl
      subst hstalled
      refine .inr (.inr ⟨u, ?_⟩)
      rw [serveDetached, Act.bind_of_error hrun]

/-- All pieces are served if and only if none of them raises a fatal signal. -/
theorem serveDetached_ok_iff {pending : List Queued} :
    serveDetached e h pending w = .ok () w' ↔
      ∃ served, Serves e h w served w' ∧ served.map (·.1) = pending := by
  constructor
  · intro hserve
    rcases serveDetached_cases e h pending w with
      ⟨served, u, hserves, rfl⟩ | ⟨served, queued, rest, u, signal, v, hserves, rfl, hraises⟩ |
        ⟨v, hstalls⟩
    · have hdone := hserves.serveDetached []
      rw [List.append_nil, hserve] at hdone
      cases hdone
      exact ⟨served, hserves, rfl⟩
    · rw [hserves.serveDetached, serveDetached_of_raises rest hraises] at hserve
      cases hserve
    · rw [hserve] at hstalls
      cases hstalls
  · rintro ⟨served, hserves, rfl⟩
    have hdone := hserves.serveDetached []
    rwa [List.append_nil] at hdone

/-- A fatal signal comes out if and only if a piece raises it, and then the pieces behind that one
are lost. -/
theorem serveDetached_unwind_iff {pending : List Queued} {signal : FatalSignal} :
    serveDetached e h pending w = .error (.unwind signal) w' ↔
      ∃ served queued rest u v, Serves e h w served u ∧
        pending = served.map (·.1) ++ queued :: rest ∧ Raises e h queued.work u signal v ∧
        w' = (v.answerDetached queued (.error (.fatal signal))).loseReplies rest := by
  constructor
  · intro hserve
    rcases serveDetached_cases e h pending w with
      ⟨served, u, hserves, rfl⟩ | ⟨served, queued, rest, u, signal', v, hserves, rfl, hraises⟩ |
        ⟨v, hstalls⟩
    · rw [serveDetached_ok_iff.2 ⟨served, hserves, rfl⟩] at hserve
      cases hserve
    · rw [hserves.serveDetached, serveDetached_of_raises rest hraises] at hserve
      cases hserve
      exact ⟨served, queued, rest, u, v, hserves, rfl, hraises, rfl⟩
    · rw [hserve] at hstalls
      cases hstalls
  · rintro ⟨served, queued, rest, u, v, hserves, rfl, hraises, rfl⟩
    rw [hserves.serveDetached, serveDetached_of_raises rest hraises]

/-! ### Answers -/

end Handle

namespace World

variable {r : ReplyId}

theorem Answered.drainMailbox (hr : w.Answered r) (h : HandleId) (error : HostError) :
    (w.drainMailbox h error).Answered r := by
  rw [World.drainMailbox]
  split
  · exact hr
  · exact .foldl (fun w queued hr => hr.answerQueued queued _) _ hr

theorem Answered.markDeleted (hr : w.Answered r) (h : HandleId) :
    (w.markDeleted h).Answered r := by
  rw [World.markDeleted]
  split
  · exact hr
  · split
    · exact hr
    · exact Answered.drainMailbox (w := (w.modifyHandle h _).unregister h) hr h .deleted

theorem Answered.untrack (hr : w.Answered r) (h : HandleId) : (w.untrack h).Answered r := by
  rw [World.untrack]
  split
  · split
    · exact Answered.markDeleted (w := (w.modifyHandle h _).unregister h) hr h
    · exact hr
  · exact hr

theorem Answered.detach (hr : w.Answered r) (record : Interpreter) :
    (w.detach record).Answered r := by
  rw [World.detach]
  split <;> exact hr

theorem Answered.cancelAfters (hr : w.Answered r) (i : InterpId) :
    (w.cancelAfters i).Answered r := by
  refine .foldl (fun w token hr => ?_) _ hr
  cases token <;> exact hr

theorem Answered.runs {job : Removal} {ran : List HookRun} (hruns : job.Runs w ran w')
    (hr : w.Answered r) : w'.Answered r := by
  induction hruns with
  | gone | noTrees | noHooks | log | install => exact hr
  | tree _ _ _ ih ih' => exact ih' ((ih hr).detach _ |>.cancelAfters _)
  | trees _ _ ih ih' => exact ih' (ih hr)
  | untrack => exact hr.untrack _
  | delete _ ih => exact ih hr
  | late _ _ ih => exact ih hr
  | hooks _ _ ih ih' => exact ih' (ih hr)

/-- Giving an interpreter up takes no answer back. -/
theorem Answered.giveUp (hr : w.Answered r) (h : HandleId) : (w.giveUp h).Answered r := by
  rw [giveUp_eq]
  cases w.interpOf? h with
  | none => exact hr
  | some i =>
    change ((w.takeInterp h).2.deleteInterp i).Answered r
    rw [deleteInterp]
    split
    · exact hr
    · obtain ⟨ran, hruns⟩ := Removal.exists_runs_delete (w.takeInterp h).2 i
      exact Answered.runs hruns hr

theorem Answered.discard (hr : w.Answered r) (h : HandleId) : (w.discard h).Answered r := by
  rw [World.discard]
  split
  · exact hr
  · split
    · exact hr
    · exact Answered.giveUp (w := (w.unhold h).unregister h) hr h

/-- Whoever waits for work that outlived its handle gets an answer. -/
theorem answered_answerDetached {queued : Queued} {envelope : Envelope} {reply : Reply}
    (hqueued : queued.reply = some r) (hreply : w.replies.get? r = some reply) :
    (w.answerDetached queued envelope).Answered r := by
  have hanswered : (w.answerQueued queued envelope).Answered r :=
    answered_answerQueued hqueued hreply
  unfold answerDetached
  dsimp only
  split
  · split
    · exact hanswered.discard _
    · exact hanswered
  · exact hanswered

end World

namespace Handle

/-! ### Giving the interpreter up -/

/-- The interpreter of a handle was given up in a world: the handle has none any more, and the
interpreter is deleted, or if a command of it is running its deletion is put off. -/
structure GivenUp (h : HandleId) (w w' : World) : Prop where
  slot : w'.interpOf? h = none
  deleted : ∀ i, w.interpOf? h = some i → (w.interp i).isBusy = false →
    (w'.interp i).deleted = true
  putOff : ∀ i, w.interpOf? h = some i → (w.interp i).isBusy = true →
    (w.threads.get? w.current).isSome = true → w'.PutOff i

theorem interpOf?_giveUp (w : World) (h : HandleId) : (w.giveUp h).interpOf? h = none := by
  cases hs : w.standing? h with
  | some s =>
    obtain ⟨s', hs', -, hnone⟩ := World.interp_giveUp hs
    rw [World.interpOf?_eq_of_standing hs', hnone]
  | none =>
    have hget : w.handles.get? h = none := Option.map_eq_none_iff.1 hs
    have hinterp : w.interpOf? h = none := by rw [World.interpOf?, hget]; rfl
    rw [World.giveUp_eq, hinterp]
    change (w.modifyHandle h _).interpOf? h = none
    rw [World.interpOf?, World.get?_modifyHandle, if_pos rfl, hget]
    rfl

theorem givenUp_giveUp (w : World) (h : HandleId) : GivenUp h w (w.giveUp h) where
  slot := interpOf?_giveUp w h
  deleted i hi hidle := by
    rw [World.giveUp_eq, hi]
    change (((w.takeInterp h).2.deleteInterp i).interp i).deleted = true
    rw [World.deleteInterp, if_neg (by rw [Bool.not_eq_true]; exact hidle)]
    exact World.deleted_delete _ i
  putOff i hi hbusy hhere := by
    rw [World.giveUp_eq, hi]
    change ((w.takeInterp h).2.deleteInterp i).PutOff i
    have hbusy' : ((w.takeInterp h).2.interp i).isBusy = true := hbusy
    rw [World.deleteInterp, if_pos hbusy']
    refine ⟨w.agenda.nextToken, ?_⟩
    rw [World.agenda_setAgenda (w := (w.takeInterp h).2) hhere]
    exact List.mem_append_right _ List.mem_cons_self

theorem releaseHere_ok_iff {pending : List Queued} :
    releaseHere e h pending w = .ok () w' ↔
      ∃ served u, Serves e h w served u ∧ served.map (·.1) = pending ∧ w' = u.giveUp h := by
  rw [releaseHere]
  cases hserve : serveDetached e h pending w with
  | ok a u =>
    rw [Act.bind_of_ok hserve]
    obtain ⟨served, hserves, hpending⟩ := serveDetached_ok_iff.1 hserve
    constructor
    · intro hmodify
      cases hmodify
      exact ⟨served, u, hserves, hpending, rfl⟩
    · rintro ⟨served', u', hserves', hpending', rfl⟩
      rw [serveDetached_ok_iff.2 ⟨served', hserves', hpending'⟩] at hserve
      cases hserve
      rfl
  | error halt u =>
    rw [Act.bind_of_error hserve]
    refine iff_of_false nofun ?_
    rintro ⟨served, u', hserves, hpending, -⟩
    rw [serveDetached_ok_iff.2 ⟨served, hserves, hpending⟩] at hserve
    cases hserve

theorem releaseHere_unwind_iff {pending : List Queued} {signal : FatalSignal} :
    releaseHere e h pending w = .error (.unwind signal) w' ↔
      serveDetached e h pending w = .error (.unwind signal) w' := by
  rw [releaseHere]
  cases hserve : serveDetached e h pending w with
  | ok a u =>
    rw [Act.bind_of_ok hserve]
    exact iff_of_false nofun nofun
  | error halt u => rw [Act.bind_of_error hserve]

/-! ### The last holder goes -/

/-- **What becomes of the work that waits when the last holder of a live handle goes.**

On the owning thread the work is served and the interpreter given up at once, from another thread
when the owner serves the event that is posted to it. This comes to its end if and only if no piece
of the work raises a fatal signal: then every piece was executed once, in the order of the queue, and
answered, whatever it came to, and the interpreter was given up. If a piece raises a signal, it is
answered and the signal goes on unwinding, but the pieces behind it are lost, and nothing is given
up. -/
theorem release_completes_iff (e : Engine) {handle : Handle}
    (hhandle : (w.unhold h).handles.get? h = some handle)
    (hgone : (handle.exists || handle.deleted) = false) :
    -- where the release is run
    ((w.dropped h handle).onOwner h = true →
      release e h w = releaseHere e h handle.mailbox.queue (w.dropped h handle)) ∧
    ((w.dropped h handle).onOwner h = false →
      (w.dropped h handle).isRegistered handle.owner = true →
      release e h w = .ok ()
        ((w.dropped h handle).post handle.owner (.release h handle.mailbox.queue))) ∧
    runEvent e (.release h handle.mailbox.queue) = releaseHere e h handle.mailbox.queue ∧
    -- whoever waits for a piece is answered when it is done
    (∀ (v : World) (queued : Queued) (envelope : Envelope) (r : ReplyId) (reply : Reply),
      queued.reply = some r → v.replies.get? r = some reply →
      (v.answerDetached queued envelope).Answered r) ∧
    -- what the release does
    ∀ u : World,
      ((∃ w', releaseHere e h handle.mailbox.queue u = .ok () w') ↔
        ∃ served v, Serves e h u served v ∧ served.map (·.1) = handle.mailbox.queue) ∧
      (∀ w', releaseHere e h handle.mailbox.queue u = .ok () w' →
        ∃ served v, Serves e h u served v ∧ served.map (·.1) = handle.mailbox.queue ∧
          GivenUp h v w' ∧ ∀ r, v.Answered r → w'.Answered r) ∧
      (∀ signal w', releaseHere e h handle.mailbox.queue u = .error (.unwind signal) w' ↔
        ∃ served queued rest v v', Serves e h u served v ∧
          handle.mailbox.queue = served.map (·.1) ++ queued :: rest ∧
          Raises e h queued.work v signal v' ∧
          w' = (v'.answerDetached queued (.error (.fatal signal))).loseReplies rest) ∧
      ∀ payload w', releaseHere e h handle.mailbox.queue u ≠ .error (.panic payload) w' := by
  refine ⟨release_eq_of_owner hhandle hgone, fun howner hregistered => ?_, rfl,
    fun v queued envelope r reply hqueued hreply => World.answered_answerDetached hqueued hreply,
    fun u => ?_⟩
  · rw [release_of_gone hhandle hgone, vanish_eq, howner, hregistered]
    rfl
  refine ⟨?_, ?_, ?_, ?_⟩
  · constructor
    · rintro ⟨w', hrelease⟩
      obtain ⟨served, v, hserves, hpending, -⟩ := releaseHere_ok_iff.1 hrelease
      exact ⟨served, v, hserves, hpending⟩
    · rintro ⟨served, v, hserves, hpending⟩
      exact ⟨_, releaseHere_ok_iff.2 ⟨served, v, hserves, hpending, rfl⟩⟩
  · intro w' hrelease
    obtain ⟨served, v, hserves, hpending, rfl⟩ := releaseHere_ok_iff.1 hrelease
    exact ⟨served, v, hserves, hpending, givenUp_giveUp v h, fun r hr => hr.giveUp h⟩
  · intro signal w'
    rw [releaseHere_unwind_iff, serveDetached_unwind_iff]
  · intro payload w' hrelease
    rw [releaseHere] at hrelease
    cases hserve : serveDetached e h handle.mailbox.queue u with
    | ok a v =>
      rw [Act.bind_of_ok hserve] at hrelease
      cases hrelease
    | error halt v =>
      rw [Act.bind_of_error hserve] at hrelease
      cases hrelease
      exact (exists_halted_of_serveDetached hserve).1 payload rfl

/-! ### A closure that ends the process while a handle goes -/

/-- The only handle of an interpreter, for which a piece of work waits that panics and another one
that logs a label. -/
def leaving : World :=
  (exiting.push 1 ⟨.job (.panic "p"), none⟩).push 1 ⟨.job (.log "x"), none⟩

theorem release_leaving :
    (∃ w', release engine 1 leaving = .ok () w' ∧ w'.interpOf? 1 = none) ∧
    ((release engine 1).after leaving).log = ["x"] := by
  have hknown : ((leaving.unhold 1).handles.get? 1).isSome = true := rfl
  obtain ⟨hhere, -, -, -, hserve⟩ := release_completes_iff engine (Option.some_get hknown).symm rfl
  obtain ⟨hcompletes, hsettled, -⟩ := hserve (leaving.dropped 1 (Option.get _ hknown))
  obtain ⟨w', hrelease⟩ := hcompletes.2
    ⟨[(⟨.job (.panic "p"), none⟩, _), (⟨.job (.log "x"), none⟩, _)], _,
      .piece (.panic rfl rfl) (.piece (.value rfl rfl) (.done _)), rfl⟩
  obtain ⟨served, v, -, -, hgiven, -⟩ := hsettled w' hrelease
  exact ⟨⟨w', (hhere rfl).trans hrelease, hgiven.slot⟩, by decide +kernel⟩

/-- In front of the piece that logs a label another one waits that raises a signal. -/
def exitingLast : World :=
  (exiting.push 1 ⟨.eval exitScript, none⟩).push 1 ⟨.job (.log "x"), none⟩

/-- The last holder of a live handle goes, and a fatal signal keeps the second piece of work from being
executed and the interpreter from being deleted. -/
theorem release_loses_work :
    ((exitingLast.handles.get? 1).map fun handle =>
      (handle.holders, handle.pinned, handle.deleted, handle.mailbox.queue.length)) =
        some (1, false, false, 2) ∧
    (release engine 1).signal? exitingLast = some (.exit 3) ∧
    ((release engine 1).after exitingLast).log = [] ∧
    ((release engine 1).after exitingLast).interpOf? 1 = some 0 ∧
    (((release engine 1).after exitingLast).interp 0).deleted = false := by
  decide +kernel

end Handle

end ScriptHost
