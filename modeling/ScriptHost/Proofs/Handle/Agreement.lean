import ScriptHost.Proofs.Handle.CutShort
import ScriptHost.Proofs.Run.Calls

/-!
# The books agree between two operations

A host that acts on one thread goes from one operation to the next: it makes handles, calls them,
clones and drops them and serves what is pending, which may be work that other threads handed over.
Whenever none is under way, the table of interpreters, the registry, the pins and the handles tell
the same story.
-/

namespace ScriptHost

open Run

/-! ### Operations -/

/-- What a host does on the one thread that acts. -/
inductive Operation
  /-- Make an interpreter and its handle. -/
  | create (config : HandleConfig)
  /-- Make a call on a handle, such as an evaluation, the creation of a child or a deletion. -/
  | call (h : HandleId) (asked : Session.HandleCall)
  /-- Hold a handle once more that somebody holds. -/
  | clone (h : HandleId)
  /-- Let one holder of a handle go. -/
  | drop (h : HandleId)
  /-- Keep a handle under a name, by which host closures find it. -/
  | keep (name : String) (h : HandleId)
  /-- Serve one piece of pending work. -/
  | serve (flags : EventFlags)
  /-- Run the loop of the thread. -/
  | loop (untilIdle : Bool)
  /-- Find that another thread handed work for a handle over, and whether it waits for a reply. -/
  | submit (h : HandleId) (work : Work) (wait : Bool)

namespace Operation

/-- Go through an operation. -/
def run : Operation → Act Unit
  | .create config => do
    let _ ← Worker.create config
  | .call h asked => do
    let _ ← asked.run h
  | .clone h => do
    let w ← get
    if (w.handles.get? h).any Handle.exists then set (w.hold h)
  | .drop h => Handle.release engine h
  | .keep name h => Session.keep name h
  | .serve flags => do
    let _ ← processOneEvent engine flags
  | .loop untilIdle => do
    let _ ← EventLoop.global engine untilIdle
  | .submit h work wait => do
    if wait then
      let _ ← Handle.submitForReply h work
    else modify fun w => (w.submit h work none).2

/-- The world after some operations, each of which a fatal signal or a panic may have cut short. If one
of them never comes to an end, it is the world that this one found. -/
def runAll : List Operation → World → World
  | [], w => w
  | op :: ops, w =>
    match op.run w with
    | .error .stalled _ => w
    | .error _ w' => runAll ops w'
    | .ok _ w' => runAll ops w'

/-- In the course of some operations, a fatal signal cuts the work of a handle short that was let
go. -/
def CutShort (h : HandleId) : List Operation → World → Prop
  | [], _ => False
  | op :: ops, w =>
    ¬op.run.Stalls w ∧ ((∃ lost, Course lost w (op.run.after w) ∧ h ∈ lost) ∨
      CutShort h ops (op.run.after w))

/-- Operations of the thread itself are what its code may do. -/
theorem moves_run {L R : World → World → Prop} [Tracks L R] [Roams L]
    [∀ fuel, Notes ⟨fuel, runWithin fuel⟩ L] [∀ fuel, Notes ⟨fuel, runWithin fuel⟩ R]
    [∀ l, Tends R l]
    (op : Operation) (hop : ∀ h work wait, op ≠ .submit h work wait) : op.run.Moves R := by
  cases op with
  | create config => exact .bind (Worker.moves_create config) fun _ => .pure _
  | call h asked => exact .bind (asked.moves_run h) fun _ => .pure _
  | clone h =>
    refine .get_bind fun w => ?_
    split
    · next hexists =>
      obtain ⟨handle, hhandle, hheld⟩ := (Option.any_eq_true _ _).1 hexists
      exact .set (Follows.hold ⟨_, World.standing?_of_get? hhandle, hheld⟩)
    · exact .refl w rfl
  | drop h => exact Handle.moves_release moves_engine h
  | keep name h => exact Session.moves_keep name h
  | serve flags => exact .bind (moves_processOneEvent moves_engine flags) fun _ => .pure _
  | loop untilIdle => exact .bind (EventLoop.moves_global moves_engine untilIdle) fun _ => .pure _
  | submit h work wait => exact absurd rfl (hop h work wait)

/-- Other threads only put work into mailboxes. -/
theorem after_run_submit (h : HandleId) (work : Work) (wait : Bool) (w : World) :
    ∃ w₁ reply, w.Rests w₁ ∧ (submit h work wait).run.after w = (w₁.submit h work reply).2 := by
  cases wait with
  | true => exact ⟨w.newReply.2, some w.newReply.1, .of_tables_eq rfl, rfl⟩
  | false => exact ⟨w, none, .refl w, rfl⟩

end Operation

/-! ### The books of a host -/

namespace World

variable {w w' : World} {h : HandleId} {i : InterpId} {lost : Set HandleId}

/-- A host that has not done anything yet. -/
def fresh (files : Machine.Files) (globalTimerMs : Nat) : World :=
  { files, hub := { globalTimerMs } }

theorem tidy_fresh (files : Machine.Files) (globalTimerMs : Nat) :
    (fresh files globalTimerMs).Tidy :=
  tidy_of_no_interps rfl

theorem Stands.solo (hw : w.Stands w') (hsolo : w.Solo) : w'.Solo := by
  refine ⟨?_, fun h s hs => ?_, hw.threads.passive hsolo.passive⟩
  · rw [hw.current, hw.threads.isSome_eq]
    exact hsolo.here
  · rw [hw.standing] at hs
    rw [hw.current]
    exact hsolo.owner h s hs

/-- What a host that acts on one thread keeps from one operation to the next. -/
structure Sound (w : World) : Prop where
  tidy : w.Tidy
  solo : w.Solo
  books : w.Books ∅ ∅ ∅

end World

/-! ### From one operation to the next -/

namespace Operation

variable {w : World} {h : HandleId} {op : Operation} {ops : List Operation}

/-- An operation that comes to an end is in the course of the thread's own code, or another thread put
work into a mailbox. -/
theorem course_or_submit (hw : w.Sound) (hends : ¬op.run.Stalls w) :
    (∃ lost, Course lost w (op.run.after w) ∧ World.Ages lost w (op.run.after w) ∧
      (op.run.after w).Books ∅ ∅ ∅) ∨
    ∃ k work wait, op = .submit k work wait ∧ w.Stands (op.run.after w) ∧
      ∀ l queued, (op.run.after w).Waits l queued →
        w.Waits l queued ∨ k = l ∧ queued.work = work := by
  by_cases hop : ∃ k work wait, op = .submit k work wait
  · obtain ⟨k, work, wait, rfl⟩ := hop
    obtain ⟨w₁, reply, hrests, hafter⟩ := after_run_submit k work wait w
    refine .inr ⟨k, work, wait, rfl, ?_, fun l queued hqueued => ?_⟩
    · rw [hafter]
      exact hrests.toStands.trans (w₁.stands_submit k work reply)
    · rw [hafter] at hqueued
      rcases hqueued.of_submit with hold | ⟨hk, rfl⟩
      · exact .inl (hrests.waits l queued hold)
      · exact .inr ⟨hk, rfl⟩
  · simp only [not_exists] at hop
    obtain ⟨lost, hcourse⟩ : Proceeds w _ := (op.moves_run hop w hw.tidy).rel fun hstalls => absurd hstalls hends
    obtain ⟨hbooks, hages⟩ := hcourse.books hw.tidy hw.solo hw.books
    exact .inl ⟨lost, hcourse, hages, hbooks⟩

theorem sound_after (hw : w.Sound) (hends : ¬op.run.Stalls w) : (op.run.after w).Sound := by
  rcases course_or_submit hw hends with ⟨lost, hcourse, hages, hbooks⟩ | ⟨k, work, wait, -, hstands, -⟩
  · exact ⟨hcourse.leads.tidy hw.tidy, hages.solo hw.solo, hbooks⟩
  · exact ⟨hw.tidy.of_interpreters_eq hstands.interpreters, hstands.solo hw.solo,
      hw.books.stands hstands⟩

/-- What threatens to cut work short was there before, or another thread brought it. -/
theorem endangers_after (hw : w.Sound) (hends : ¬op.run.Stalls w)
    (hdanger : (op.run.after w).Endangers h) :
    w.Endangers h ∨ ∃ work wait, op = .submit h work wait ∧ work.MayRaise := by
  rcases course_or_submit hw hends with ⟨lost, -, hages, -⟩ | ⟨k, work, wait, hop, -, hwaits⟩
  · exact .inl (hdanger.mono hages.waits)
  · obtain ⟨queued, hqueued, hraises⟩ := hdanger
    rcases hwaits h queued hqueued with hold | ⟨rfl, rfl⟩
    · exact .inl ⟨queued, hold, hraises⟩
    · exact .inr ⟨queued.work, wait, hop, hraises⟩

/-! ### Whole runs -/

/-- Work is cut short only by a fatal signal of work that was there, or that another thread handed
over. -/
theorem CutShort.submitted (hcut : CutShort h ops w) (hw : w.Sound) :
    w.Endangers h ∨ ∃ work wait, .submit h work wait ∈ ops ∧ work.MayRaise := by
  induction ops generalizing w with
  | nil => exact hcut.elim
  | cons op ops ih =>
    obtain ⟨hends, ⟨lost, hcourse, hlost⟩ | hcut⟩ := hcut
    · exact .inl (hcourse.endangers hw.tidy hw.solo hw.books h hlost)
    · rcases ih hcut (sound_after hw hends) with hdanger | ⟨work, wait, hmem, hraises⟩
      · refine (endangers_after hw hends hdanger).imp_right ?_
        rintro ⟨work, wait, rfl, hraises⟩
        exact ⟨work, wait, List.mem_cons_self, hraises⟩
      · exact .inr ⟨work, wait, List.mem_cons_of_mem _ hmem, hraises⟩

end Operation

end ScriptHost
