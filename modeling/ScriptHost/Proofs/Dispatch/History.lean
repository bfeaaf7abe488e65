import ScriptHost.Proofs.Dispatch.Machine

/-!
# What became of the work of one handle

Work that left the mailbox is executed or refused. `History` says that each piece of it has exactly
one place: among the work that is being executed or among the work that is finished. `Answers` says
that the callers are told about their own work and nothing else.
-/

namespace ScriptHost.Dispatch

variable {running : List Running} {pushed : List Queued} {left : List (Queued × Fate)}
  {finished : List (Nat × Envelope)} {n : Nat} {queued : Queued} {envelope : Envelope}

theorem getElem?_concat_of_some {α : Type} {l : List α} {a : α} (b : α) (h : l[n]? = some a) :
    (l ++ [b])[n]? = some a := by
  rw [List.getElem?_append_left (List.getElem?_eq_some_iff.mp h).1, h]

theorem eq_or_getElem?_of_concat {α : Type} {l : List α} {a b : α} (h : (l ++ [b])[n]? = some a) :
    n = l.length ∧ a = b ∨ l[n]? = some a := by
  rcases Nat.lt_or_ge n l.length with hn | hn
  · rw [List.getElem?_append_left hn] at h
    exact .inr h
  · have hlength := (List.getElem?_eq_some_iff.mp h).1
    rw [List.length_append, List.length_singleton] at hlength
    obtain rfl : n = l.length := by omega
    rw [List.getElem?_concat_length] at h
    exact .inl ⟨rfl, (Option.some.inj h).symm⟩

/-! ### The places of work -/

/-- The numbers of work that left the mailbox: being executed first, then finished. -/
def numbers (running : List Running) (finished : List (Nat × Envelope)) : List Nat :=
  running.filterMap Running.number? ++ finished.map (·.1)

/-- Each piece of work that left the mailbox has exactly one place, and it is executed if and only
if that is its fate. -/
structure History (running : List Running) (left : List (Queued × Fate))
    (finished : List (Nat × Envelope)) : Prop where
  perm : (numbers running finished).Perm (List.range left.length)
  executed : ∀ n queued, .served n queued ∈ running → left[n]? = some (queued, .executed)
  refused : ∀ n envelope queued refusal, (n, envelope) ∈ finished →
    left[n]? = some (queued, .refused refusal) → envelope = .error refusal.error

namespace History

theorem start : History [] [] [] := by
  constructor <;> simp [numbers]

theorem lt_of_mem_finished (hs : History running left finished) (hn : (n, envelope) ∈ finished) :
    n < left.length := by
  have hmem : n ∈ numbers running finished :=
    List.mem_append_right _ (List.mem_map_of_mem hn)
  exact List.mem_range.mp (hs.perm.mem_iff.mp hmem)

/-- Work that is being executed is not finished. -/
theorem not_mem_finished (hs : History running left finished) (hn : .served n queued ∈ running) :
    (n, envelope) ∉ finished := by
  intro hfinished
  have hnodup : (numbers running finished).Nodup := hs.perm.nodup_iff.mpr List.nodup_range
  have hleft : n ∈ running.filterMap Running.number? :=
    List.mem_filterMap.mpr ⟨_, hn, rfl⟩
  exact (List.disjoint_of_nodup_append hnodup) hleft (List.mem_map_of_mem (f := Prod.fst) hfinished)

theorem serve (hs : History running left finished) (queued : Queued) :
    History (.served left.length queued :: running) (left ++ [(queued, .executed)]) finished := by
  constructor
  · rw [List.length_append, List.length_singleton, List.range_succ]
    exact (hs.perm.cons _).trans (List.perm_append_singleton _ _).symm
  · intro n queued' hn
    rcases List.mem_cons.mp hn with heq | hn
    · cases heq
      exact List.getElem?_concat_length
    · exact getElem?_concat_of_some _ (hs.executed n queued' hn)
  · intro n envelope queued' refusal hn hleft
    rcases eq_or_getElem?_of_concat hleft with ⟨_, heq⟩ | hleft
    · cases heq
    · exact hs.refused n envelope queued' refusal hn hleft

theorem refuse (hs : History running left finished) (queued : Queued) (refusal : Refusal) :
    History running (left ++ [(queued, .refused refusal)])
      (finished ++ [(left.length, .error refusal.error)]) := by
  constructor
  · rw [List.length_append, List.length_singleton, List.range_succ, numbers, List.map_append,
      ← List.append_assoc]
    exact hs.perm.append_right _
  · intro n queued' hn
    exact getElem?_concat_of_some _ (hs.executed n queued' hn)
  · intro n envelope queued' refusal' hn hleft
    rcases List.mem_append.mp hn with hn | hn
    · rcases eq_or_getElem?_of_concat hleft with ⟨rfl, _⟩ | hleft
      · exact absurd (hs.lt_of_mem_finished hn) (Nat.lt_irrefl _)
      · exact hs.refused n envelope queued' refusal' hn hleft
    · cases List.mem_singleton.mp hn
      rw [List.getElem?_concat_length] at hleft
      cases hleft
      rfl

theorem finish (hs : History (.served n queued :: running) left finished) (envelope : Envelope) :
    History running left (finished ++ [(n, envelope)]) := by
  constructor
  · have hperm : (numbers running (finished ++ [(n, envelope)])).Perm
        (numbers (.served n queued :: running) finished) := by
      rw [numbers, List.map_append, ← List.append_assoc]
      exact List.perm_append_singleton _ _
    exact hperm.trans hs.perm
  · intro n' queued' hn
    exact hs.executed n' queued' (List.mem_cons_of_mem _ hn)
  · intro n' envelope' queued' refusal hn hleft
    rcases List.mem_append.mp hn with hn | hn
    · exact hs.refused n' envelope' queued' refusal hn hleft
    · cases List.mem_singleton.mp hn
      rw [hs.executed n queued List.mem_cons_self] at hleft
      cases hleft

theorem startHere (hs : History running left finished) : History (.here :: running) left finished :=
  ⟨hs.perm, fun n queued hn => hs.executed n queued ((List.mem_cons.mp hn).resolve_left nofun),
    hs.refused⟩

theorem finishHere (hs : History (.here :: running) left finished) : History running left finished :=
  ⟨hs.perm, fun n queued hn => hs.executed n queued (List.mem_cons_of_mem _ hn), hs.refused⟩

end History

/-! ### The answers to the callers -/

/-- Each caller has a reply of its own, and that holds the envelope of its work and no other. -/
structure Answers (pushed : List Queued) (finished : List (Nat × Envelope)) (w : World) : Prop where
  fresh : ∀ (n : Nat) (queued : Queued) r, pushed[n]? = some queued → queued.reply = some r → r < w.nextReply
  alone : ∀ (m n : Nat) (queued queued' : Queued) r, pushed[m]? = some queued → pushed[n]? = some queued' →
    queued.reply = some r → queued'.reply = some r → m = n
  told : ∀ (n : Nat) (queued : Queued) r, pushed[n]? = some queued → queued.reply = some r →
    ∃ reply, w.replies.get? r = some reply ∧
      ∀ envelope, reply.answer.map (·.1) = some envelope ↔ (n, envelope) ∈ finished

namespace Answers

variable {w w' : World} {h : HandleId}

theorem start (w : World) : Answers [] [] w := by
  constructor <;> simp

theorem keep (hs : Answers pushed finished w) (hw : Keeps h pushed w w') :
    Answers pushed finished w' := by
  refine ⟨fun n queued r hn hr => ?_, hs.alone, fun n queued r hn hr => ?_⟩
  · exact Nat.lt_of_lt_of_le (hs.fresh n queued r hn hr) hw.nextReply
  · obtain ⟨reply, hreply, htold⟩ := hs.told n queued r hn hr
    obtain ⟨reply', hreply', hanswer⟩ := hw.answer queued (List.mem_of_getElem? hn) r hr reply hreply
    exact ⟨reply', hreply', hanswer ▸ htold⟩

/-- The answers do not depend on anything else in the world. -/
theorem congr (hs : Answers pushed finished w) (hreplies : w'.replies = w.replies)
    (hnext : w'.nextReply = w.nextReply) : Answers pushed finished w' :=
  ⟨hnext ▸ hs.fresh, hs.alone, hreplies ▸ hs.told⟩

theorem push_silent (hs : Answers pushed finished w) (hqueued : queued.reply = none) :
    Answers (pushed ++ [queued]) finished w := by
  have hold : ∀ {n : Nat} {queued' : Queued} {r : ReplyId},
      (pushed ++ [queued])[n]? = some queued' → queued'.reply = some r →
      pushed[n]? = some queued' := by
    intro n queued' r hn hr
    rcases eq_or_getElem?_of_concat hn with ⟨_, rfl⟩ | hn
    · rw [hqueued] at hr
      cases hr
    · exact hn
  refine ⟨fun n queued' r hn hr => ?_, fun m n q q' r hm hn hr hr' => ?_,
    fun n queued' r hn hr => ?_⟩
  · exact hs.fresh n queued' r (hold hn hr) hr
  · exact hs.alone m n q q' r (hold hm hr) (hold hn hr') hr hr'
  · exact hs.told n queued' r (hold hn hr) hr

theorem push_waiting (hs : Answers pushed finished w) (work : Work)
    (hfinished : ∀ n envelope, (n, envelope) ∈ finished → n < pushed.length) :
    Answers (pushed ++ [⟨work, some w.newReply.1⟩]) finished w.newReply.2 := by
  have hnew : ∀ {n : Nat} {queued : Queued} {r : ReplyId},
      (pushed ++ [⟨work, some w.newReply.1⟩])[n]? = some queued → queued.reply = some r →
      n = pushed.length ∧ r = w.nextReply ∨ pushed[n]? = some queued ∧ r < w.nextReply := by
    intro n queued r hn hr
    rcases eq_or_getElem?_of_concat hn with ⟨rfl, rfl⟩ | hn
    · exact .inl ⟨rfl, (Option.some.inj hr).symm⟩
    · exact .inr ⟨hn, hs.fresh n queued r hn hr⟩
  refine ⟨fun n queued r hn hr => ?_, fun m n q q' r hm hn hr hr' => ?_,
    fun n queued r hn hr => ?_⟩
  · rcases hnew hn hr with ⟨_, rfl⟩ | ⟨_, hr⟩
    · exact Nat.lt_succ_self _
    · exact Nat.lt_succ_of_lt hr
  · rcases hnew hm hr with ⟨hm', hr₁⟩ | ⟨hm', hr₁⟩
    · rcases hnew hn hr' with ⟨hn', _⟩ | ⟨_, hr₂⟩
      · exact hm'.trans hn'.symm
      · exact absurd hr₁ (Nat.ne_of_lt hr₂)
    · rcases hnew hn hr' with ⟨_, hr₂⟩ | ⟨hn', _⟩
      · exact absurd hr₂ (Nat.ne_of_lt hr₁)
      · exact hs.alone m n q q' r hm' hn' hr hr'
  · rcases hnew hn hr with ⟨rfl, rfl⟩ | ⟨hn', hr'⟩
    · refine ⟨{}, by rw [World.get?_newReply, if_pos rfl], fun envelope => ⟨nofun, fun hmem => ?_⟩⟩
      exact absurd (hfinished _ _ hmem) (Nat.lt_irrefl _)
    · rw [World.get?_newReply, if_neg (Nat.ne_of_gt hr')]
      exact hs.told n queued r hn' hr

theorem push (hs : Answers pushed finished w) (hreq : w.Request queued w')
    (hfinished : ∀ n envelope, (n, envelope) ∈ finished → n < pushed.length) :
    Answers (pushed ++ [queued]) finished w' := by
  cases hreq with
  | silent work => exact hs.push_silent rfl
  | waiting work => exact hs.push_waiting work hfinished

/-- A caller whose work is finished gets the envelope. -/
theorem answer (hs : Answers pushed finished w) (hn : pushed[n]? = some queued)
    (hopen : ∀ envelope, (n, envelope) ∉ finished) (envelope : Envelope) :
    Answers pushed (finished ++ [(n, envelope)]) (w.answerQueued queued envelope) := by
  refine ⟨fun m queued' r hm hr => ?_, hs.alone, fun m queued' r hm hr => ?_⟩
  · rw [World.nextReply_answerQueued]
    exact hs.fresh m queued' r hm hr
  obtain ⟨reply, hreply, htold⟩ := hs.told m queued' r hm hr
  by_cases hr' : queued.reply = some r
  · -- the caller of this work: nobody else has its reply, and it is still open
    obtain rfl := hs.alone m n queued' queued r hm hn hr hr'
    have hanswer : reply.answer = none := by
      cases ha : reply.answer with
      | none => rfl
      | some answer => exact absurd ((htold answer.1).mp (by rw [ha]; rfl)) (hopen _)
    refine ⟨{ reply with answer := some (envelope, w.clock) }, ?_, fun envelope' => ?_⟩
    · rw [World.answerQueued, hr']
      dsimp only
      rw [World.get?_answer, if_pos rfl, hreply, Option.map_some, hanswer]
      rfl
    · simp [hopen, eq_comm]
  · -- the caller of other work
    refine ⟨reply, ?_, fun envelope' => ?_⟩
    · rw [World.answerQueued]
      cases hq : queued.reply with
      | none => exact hreply
      | some r' =>
        dsimp only
        have hne : r' ≠ r := by
          rintro rfl
          exact hr' hq
        rw [World.get?_answer, if_neg hne, hreply]
    · have hne : m ≠ n := by
        rintro rfl
        rw [hm] at hn
        cases hn
        exact hr' hr
      simp [htold, hne]

end Answers

end ScriptHost.Dispatch
