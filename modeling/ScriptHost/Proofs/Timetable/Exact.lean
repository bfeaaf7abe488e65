import ScriptHost.Proofs.Handle.Agreement
import ScriptHost.Proofs.Timetable.Booked

/-!
# Scheduled scripts are evaluated at most once

Whatever a thread does, the ids that an interpreter reports are those of the scripts that it
scheduled and that are pending. An id is given once, a script is evaluated at most once, and not after
it was cancelled or its interpreter deleted. Cancelling takes one script off the agenda and leaves all
other work alone.
-/

namespace ScriptHost

open World

namespace Timetable

variable {w w' : World} {record deeds : List Deed} {i j : InterpId} {id id' : String}

/-! ### Records -/

/-- A script that was scheduled, is not evaluated yet and was not cancelled since. -/
structure Outstanding (record : List Deed) (i : InterpId) (id : String) : Prop where
  scheduled : .scheduled i id ∈ record
  unevaluated : .evaluated i id ∉ record
  uncancelled : ¬[.scheduled i id, .cancelled i id].Sublist record

/-- A record in which no id is given twice, and in which scripts are evaluated at most once, after
they were scheduled and before they are cancelled or their interpreter is deleted. -/
structure Regular (record : List Deed) : Prop where
  fresh : ∀ i id, ¬[.scheduled i id, .scheduled i id].Sublist record
  ordered : ∀ i id, .evaluated i id ∈ record → [.scheduled i id, .evaluated i id].Sublist record
  once : ∀ i id, ¬[.evaluated i id, .evaluated i id].Sublist record
  uncancelled : ∀ i id, ¬[.scheduled i id, .cancelled i id, .evaluated i id].Sublist record
  undeleted : ∀ i id, ¬[.deleted i, .evaluated i id].Sublist record

section

variable {α : Type} {l as bs : List α} {a b : α}

theorem sublist_concat_iff :
    (l ++ [a]).Sublist (as ++ [b]) ↔ (l ++ [a]).Sublist as ∨ a = b ∧ l.Sublist as := by
  rw [← List.reverse_sublist, List.reverse_concat', List.reverse_concat', List.cons_sublist_cons',
    ← List.reverse_concat', List.reverse_sublist, List.reverse_sublist]

/-- What ends with `a` is not continued by what does not have it. -/
theorem sublist_of_not_mem (ha : a ∉ bs) (h : (l ++ [a]).Sublist (as ++ bs)) :
    (l ++ [a]).Sublist as := by
  obtain ⟨l₁, l₂, heq, hfirst, hrest⟩ := List.sublist_append_iff.1 h
  obtain rfl | ⟨l₃, c, rfl⟩ := List.eq_nil_or_concat' l₂
  · rwa [heq, List.append_nil]
  · rw [← List.append_assoc] at heq
    obtain ⟨-, hlast⟩ := List.append_inj' heq rfl
    cases hlast
    exact absurd (hrest.subset (List.mem_append_right _ (List.mem_singleton_self a))) ha

end

theorem pair_sublist {a b c : Deed} :
    [a, b].Sublist (record ++ [c]) ↔ [a, b].Sublist record ∨ b = c ∧ a ∈ record :=
  (sublist_concat_iff (l := [a])).trans (or_congr_right (and_congr_right fun _ => List.singleton_sublist))

theorem triple_sublist {a b c d : Deed} :
    [a, b, c].Sublist (record ++ [d]) ↔ [a, b, c].Sublist record ∨ c = d ∧ [a, b].Sublist record :=
  sublist_concat_iff (l := [a, b])

/-- Whatever is neither scheduled nor evaluated keeps a record as it should be. -/
theorem Regular.append (h : Regular record) (hscheduled : ∀ i id, .scheduled i id ∉ deeds)
    (hevaluated : ∀ i id, .evaluated i id ∉ deeds) : Regular (record ++ deeds) where
  fresh i id hsub := h.fresh i id (sublist_of_not_mem (l := [_]) (hscheduled i id) hsub)
  ordered i id hmem :=
    have hwas := (List.mem_append.1 hmem).resolve_right (hevaluated i id)
    (h.ordered i id hwas).trans (List.sublist_append_left record deeds)
  once i id hsub := h.once i id (sublist_of_not_mem (l := [_]) (hevaluated i id) hsub)
  uncancelled i id hsub := h.uncancelled i id (sublist_of_not_mem (l := [_, _]) (hevaluated i id) hsub)
  undeleted i id hsub := h.undeleted i id (sublist_of_not_mem (l := [_]) (hevaluated i id) hsub)

theorem Regular.schedule (h : Regular record) (hnew : .scheduled i id ∉ record) :
    Regular (record ++ [.scheduled i id]) where
  fresh j id' hsub := by
    rcases pair_sublist.1 hsub with hwas | ⟨heq, hmem⟩
    · exact h.fresh j id' hwas
    · exact hnew (heq ▸ hmem)
  ordered j id' hmem := by
    have hwas : .evaluated j id' ∈ record := by simpa using hmem
    exact (h.ordered j id' hwas).trans (List.sublist_append_left _ _)
  once j id' hsub := h.once j id' (sublist_of_not_mem (l := [_]) (by simp) hsub)
  uncancelled j id' hsub := h.uncancelled j id' (sublist_of_not_mem (l := [_, _]) (by simp) hsub)
  undeleted j id' hsub := h.undeleted j id' (sublist_of_not_mem (l := [_]) (by simp) hsub)

theorem Regular.evaluate (h : Regular record) (houtstanding : Outstanding record i id)
    (hlive : .deleted i ∉ record) : Regular (record ++ [.evaluated i id]) where
  fresh j id' hsub := h.fresh j id' (sublist_of_not_mem (l := [_]) (by simp) hsub)
  ordered j id' hmem := by
    rcases List.mem_append.1 hmem with hwas | hnew
    · exact (h.ordered j id' hwas).trans (List.sublist_append_left _ _)
    · cases List.mem_singleton.1 hnew
      exact pair_sublist.2 (.inr ⟨rfl, houtstanding.scheduled⟩)
  once j id' hsub := by
    rcases pair_sublist.1 hsub with hwas | ⟨heq, hmem⟩
    · exact h.once j id' hwas
    · exact houtstanding.unevaluated (heq ▸ hmem)
  uncancelled j id' hsub := by
    rcases triple_sublist.1 hsub with hwas | ⟨heq, hmem⟩
    · exact h.uncancelled j id' hwas
    · cases heq
      exact houtstanding.uncancelled hmem
  undeleted j id' hsub := by
    rcases pair_sublist.1 hsub with hwas | ⟨heq, hmem⟩
    · exact h.undeleted j id' hwas
    · cases heq
      exact hlive hmem

/-! ### What is outstanding -/

theorem Outstanding.of_append (h : Outstanding (record ++ deeds) i id)
    (hscheduled : .scheduled i id ∈ record) : Outstanding record i id where
  scheduled := hscheduled
  unevaluated hmem := h.unevaluated (List.mem_append_left _ hmem)
  uncancelled hsub := h.uncancelled (hsub.trans (List.sublist_append_left _ _))

theorem Outstanding.append (h : Outstanding record i id) (hevaluated : .evaluated i id ∉ deeds)
    (hcancelled : .cancelled i id ∉ deeds) : Outstanding (record ++ deeds) i id where
  scheduled := List.mem_append_left _ h.scheduled
  unevaluated hmem := h.unevaluated ((List.mem_append.1 hmem).resolve_right hevaluated)
  uncancelled hsub := h.uncancelled (sublist_of_not_mem (l := [_]) hcancelled hsub)

theorem outstanding_schedule (h : Regular record) (hnew : .scheduled i id ∉ record) :
    Outstanding (record ++ [.scheduled i id]) j id' ↔
      Outstanding record j id' ∨ i = j ∧ id = id' := by
  constructor
  · intro houtstanding
    rcases List.mem_append.1 houtstanding.scheduled with hwas | hthis
    · exact .inl (houtstanding.of_append hwas)
    · cases List.mem_singleton.1 hthis
      exact .inr ⟨rfl, rfl⟩
  · rintro (houtstanding | ⟨rfl, rfl⟩)
    · exact houtstanding.append (by simp) (by simp)
    · refine ⟨List.mem_append_right _ (List.mem_singleton_self _), fun hmem => ?_, fun hsub => ?_⟩
      · have hwas : .evaluated i id ∈ record := by simpa using hmem
        exact hnew ((h.ordered i id hwas).subset List.mem_cons_self)
      · have hwas := sublist_of_not_mem (l := [_]) (by simp) hsub
        exact hnew (hwas.subset List.mem_cons_self)

theorem outstanding_evaluate :
    Outstanding (record ++ [.evaluated i id]) j id' ↔
      Outstanding record j id' ∧ ¬(i = j ∧ id = id') := by
  constructor
  · intro h
    refine ⟨h.of_append (by simpa using h.scheduled), ?_⟩
    rintro ⟨rfl, rfl⟩
    exact h.unevaluated (List.mem_append_right _ (List.mem_singleton_self _))
  · rintro ⟨h, hother⟩
    refine h.append (fun hthis => ?_) (by simp)
    cases List.mem_singleton.1 hthis
    exact hother ⟨rfl, rfl⟩

theorem outstanding_cancel :
    Outstanding (record ++ [.cancelled i id]) j id' ↔
      Outstanding record j id' ∧ ¬(i = j ∧ id = id') := by
  constructor
  · intro h
    have hwas : .scheduled j id' ∈ record := by simpa using h.scheduled
    refine ⟨h.of_append hwas, ?_⟩
    rintro ⟨rfl, rfl⟩
    exact h.uncancelled (pair_sublist.2 (.inr ⟨rfl, hwas⟩))
  · rintro ⟨h, hother⟩
    refine h.append (by simp) fun hthis => ?_
    cases List.mem_singleton.1 hthis
    exact hother ⟨rfl, rfl⟩

theorem mem_deaths {deed : Deed} (h : deed ∈ deaths w w') :
    ∃ i, deed = .deleted i ∧ i ∈ w.interps.keys ∧ (w'.interp i).deleted = true := by
  obtain ⟨i, hi, rfl⟩ := List.mem_map.1 h
  obtain ⟨hknown, hdies⟩ := List.mem_filter.1 hi
  exact ⟨i, rfl, hknown, (Bool.and_eq_true_iff.1 hdies).2⟩

theorem scheduled_not_mem_deaths (i : InterpId) (id : String) : .scheduled i id ∉ deaths w w' :=
  fun h => nomatch mem_deaths h

theorem evaluated_not_mem_deaths (i : InterpId) (id : String) : .evaluated i id ∉ deaths w w' :=
  fun h => nomatch mem_deaths h

theorem outstanding_deaths :
    Outstanding (record ++ deaths w w') i id ↔ Outstanding record i id := by
  constructor
  · intro h
    exact h.of_append ((List.mem_append.1 h.scheduled).resolve_right (scheduled_not_mem_deaths i id))
  · intro h
    exact h.append (evaluated_not_mem_deaths i id) fun h => nomatch mem_deaths h

/-! ### What a run keeps -/

/-- The record of a run that has come to a world. -/
structure Told (record : List Deed) (w : World) : Prop where
  regular : Regular record
  given : ∀ i id, .scheduled i id ∈ record → ∃ n < (w.interp i).nextAfter, id = s!"after#{n}"
  dead : ∀ i, .deleted i ∈ record → i < w.nextInterp ∧ (w.interp i).deleted = true
  listed : ∀ i id, (w.interp i).deleted = false →
    (id ∈ (w.interp i).afters.keys ↔ Outstanding record i id)

namespace Told

/-- Nothing happens to scheduled scripts. -/
theorem of_timetable_eq (h : Told record w)
    (htimetable : ∀ i, (w'.interp i).timetable = (w.interp i).timetable)
    (hnext : w'.nextInterp = w.nextInterp) : Told (record ++ []) w' := by
  have hfields i : (w'.interp i).deleted = (w.interp i).deleted ∧
      (w'.interp i).afters = (w.interp i).afters ∧ (w'.interp i).nextAfter = (w.interp i).nextAfter := by
    simpa [Interpreter.timetable] using htimetable i
  rw [List.append_nil]
  refine ⟨h.regular, fun i id hmem => ?_, fun i hmem => ?_, fun i id hlive => ?_⟩
  · rw [(hfields i).2.2]
    exact h.given i id hmem
  · rw [(hfields i).1, hnext]
    exact h.dead i hmem
  · rw [(hfields i).2.1]
    exact h.listed i id ((hfields i).1 ▸ hlive)

theorem of_interpreters_eq (h : Told record w) (hinterps : w'.interpreters = w.interpreters) :
    Told (record ++ []) w' := by
  refine h.of_timetable_eq (fun i => ?_) (congrArg Prod.snd hinterps)
  rw [interp_eq_of_interpreters_eq hinterps]

/-- The next id of an interpreter was not given yet. -/
theorem not_scheduled (h : Told record w) (i : InterpId) :
    .scheduled i s!"after#{(w.interp i).nextAfter}" ∉ record := by
  intro hmem
  obtain ⟨n, hlt, heq⟩ := h.given i _ hmem
  exact Nat.ne_of_gt hlt (Number.numbered_inj heq)

theorem schedule (h : Told record w) (hw : w.Booked) (hlive : (w.interp i).deleted = false)
    (delay : Option Nat) (script : String) :
    Told (record ++ [.scheduled i (w.scheduleAfter i delay script).1])
      (w.scheduleAfter i delay script).2 := by
  have hid : (w.scheduleAfter i delay script).1 = s!"after#{(w.interp i).nextAfter}" := rfl
  have hnew := h.not_scheduled i
  obtain ⟨token, a, heq, -⟩ := exists_scheduleAfter w i delay script
  have hself : (w.scheduleAfter i delay script).2.interp i = (w.interp i).noteAfter token := by
    rw [heq]
    exact interp_modifyInterp_of_live (w := w.setAgenda a) hlive _
  have hother {j : InterpId} (hij : i ≠ j) :
      (w.scheduleAfter i delay script).2.interp j = w.interp j := by
    rw [heq]
    exact interp_modifyInterp_of_ne hij _
  have hnext : (w.scheduleAfter i delay script).2.nextInterp = w.nextInterp := by
    rw [heq]
    rfl
  rw [hid]
  generalize (w.scheduleAfter i delay script).2 = w' at *
  refine ⟨h.regular.schedule hnew, fun j id hmem => ?_, fun j hmem => ?_, fun j id hlive' => ?_⟩
  · by_cases hij : i = j
    · subst hij
      rw [hself]
      rcases List.mem_append.1 hmem with hwas | hthis
      · obtain ⟨n, hlt, hn⟩ := h.given i id hwas
        exact ⟨n, Nat.lt_succ_of_lt hlt, hn⟩
      · cases List.mem_singleton.1 hthis
        exact ⟨_, Nat.lt_succ_self _, rfl⟩
    · rw [hother hij]
      refine h.given j id ((List.mem_append.1 hmem).resolve_right fun hthis => hij ?_)
      cases List.mem_singleton.1 hthis
      rfl
  · have hwas := h.dead j (by simpa using hmem)
    have hij : i ≠ j := by
      rintro rfl
      exact Bool.false_ne_true (hlive.symm.trans hwas.2)
    rwa [hother hij, hnext]
  · rw [outstanding_schedule h.regular hnew]
    by_cases hij : i = j
    · subst hij
      rw [hself, Interpreter.noteAfter, Table.keys_insert_of_not_mem (hw.lists i).not_mem_keys,
        List.mem_append, List.mem_singleton, h.listed i id hlive]
      simp [eq_comm]
    · rw [hother hij] at hlive' ⊢
      rw [h.listed j id hlive']
      exact (or_iff_left fun hthis => hij hthis.1).symm

/-- An interpreter forgets a script. -/
theorem forget (h : Told record w) (hinterps : w'.interpreters = (w.takeAfter i id).2.interpreters)
    (hregular : Regular (record ++ deeds)) (hscheduled : ∀ j id', .scheduled j id' ∉ deeds)
    (hdeleted : ∀ j, .deleted j ∉ deeds)
    (houtstanding : ∀ j id', Outstanding (record ++ deeds) j id' ↔
      Outstanding record j id' ∧ ¬(i = j ∧ id = id')) : Told (record ++ deeds) w' := by
  have hinterp := interp_eq_of_interpreters_eq hinterps
  have hnext : w'.nextInterp = w.nextInterp := congrArg Prod.snd hinterps
  have hsame (j : InterpId) : (w'.interp j).deleted = (w.interp j).deleted ∧
      (w'.interp j).nextAfter = (w.interp j).nextAfter := by
    rw [hinterp, interp_takeAfter]
    split <;> exact ⟨rfl, rfl⟩
  refine ⟨hregular, fun j id' hmem => ?_, fun j hmem => ?_, fun j id' hlive => ?_⟩
  · rw [(hsame j).2]
    exact h.given j id' ((List.mem_append.1 hmem).resolve_right (hscheduled j id'))
  · rw [(hsame j).1, hnext]
    exact h.dead j ((List.mem_append.1 hmem).resolve_right (hdeleted j))
  · rw [houtstanding, ← h.listed j id' ((hsame j).1 ▸ hlive), hinterp, Table.mem_keys_iff,
      get?_afters_takeAfter, Table.mem_keys_iff]
    split
    · next hthis => exact iff_of_false (fun hlisted => by cases hlisted) fun h => h.2 hthis
    · next hother => exact (and_iff_left hother).symm

theorem cancel (h : Told record w) (i : InterpId) (id : String) :
    Told (record ++ [.cancelled i id]) (w.unschedule i id) := by
  have hinterps : (w.unschedule i id).interpreters = (w.takeAfter i id).2.interpreters := by
    rw [unschedule]
    cases (w.takeAfter i id).1 with
    | none => rfl
    | some token => exact interpreters_cancelAfter _ token
  exact h.forget hinterps (h.regular.append (by simp) (by simp)) (by simp) (by simp)
    fun j id' => outstanding_cancel

theorem fire (h : Told record w) (hw : w.Booked) {flags : EventFlags}
    {work : Agenda.Work Event Handler} {a : Agenda Event Handler}
    (hnext : w.agenda.next? flags w.clock = some (work, a)) (hwork : work.script? = some (i, id)) :
    Told (record ++ evaluations w i id) ((w.takeOff a).takeAfter i id).2 := by
  have hpending : w.IsPending i id := by
    obtain ⟨taken, htaken, hsome, -⟩ := hw.sound.exists_taken hnext
    obtain ⟨token, htoken⟩ := hsome.resolve_left fun hnone => nomatch hnone.symm.trans hwork
    exact ⟨token, (htaken token htoken i id).2 hwork⟩
  have hlisted := hw.pending_iff.1 hpending
  -- a deleted interpreter has nothing on the agenda
  have hlive : (w.interp i).deleted = false := by
    refine Bool.eq_false_iff.2 fun hgone => ?_
    rw [hw.gone i hgone] at hlisted
    exact List.not_mem_nil hlisted
  have houtstanding := (h.listed i id hlive).1 hlisted
  have hdead : .deleted i ∉ record := fun hmem =>
    Bool.false_ne_true (hlive.symm.trans (h.dead i hmem).2)
  rw [evaluations, hlive]
  exact h.forget rfl (h.regular.evaluate houtstanding hdead) (by simp) (by simp)
    fun j id' => outstanding_evaluate

theorem delete (h : Told record w) (hw : w.Booked) (i : InterpId) :
    Told (record ++ deaths w (w.delete i)) (w.delete i) := by
  obtain ⟨ran, hruns⟩ := Removal.exists_runs_delete w i
  have hstrips := hruns.strips hw.childless
  have hprunes := prunes_delete w i
  refine ⟨h.regular.append scheduled_not_mem_deaths evaluated_not_mem_deaths,
    fun j id hmem => ?_, fun j hmem => ?_, fun j id hlive => ?_⟩
  · rw [hstrips.nextAfter]
    exact h.given j id ((List.mem_append.1 hmem).resolve_right (scheduled_not_mem_deaths j id))
  · rw [hprunes.next]
    rcases List.mem_append.1 hmem with hwas | hdies
    · obtain ⟨hlt, hgone⟩ := h.dead j hwas
      exact ⟨hlt, hprunes.deleted hgone⟩
    · obtain ⟨k, hk, hknown, hgone⟩ := mem_deaths hdies
      cases hk
      refine ⟨hw.numbered j (Option.isSome_iff_ne_none.2 fun hnone => ?_), hgone⟩
      exact Table.get?_eq_none_iff.1 hnone hknown
  · have hwas : (w.interp j).deleted = false := by
      refine Bool.eq_false_iff.2 fun hgone => ?_
      exact Bool.false_ne_true (hlive.symm.trans (hprunes.deleted hgone))
    rw [hstrips.afters hlive, h.listed j id hwas, outstanding_deaths]

theorem create (h : Told record w) (hw : w.Booked) (name : String) (safe : Bool)
    (parent : Option InterpId) : Told (record ++ []) (w.newInterp name safe parent).2 := by
  have hunknown := hw.numbered.unknown
  have hunscheduled (id : String) : .scheduled w.nextInterp id ∉ record := by
    intro hmem
    obtain ⟨n, hlt, -⟩ := h.given _ id hmem
    rw [hunknown] at hlt
    exact Nat.not_lt_zero n hlt
  rw [List.append_nil]
  refine ⟨h.regular, fun i id hmem => ?_, fun i hmem => ?_, fun i id hlive => ?_⟩
  · rw [interp_newInterp]
    split
    · next hnew => exact absurd (hnew ▸ hmem) (hunscheduled id)
    · exact h.given i id hmem
  · obtain ⟨hlt, hgone⟩ := h.dead i hmem
    rw [interp_newInterp, if_neg (Nat.ne_of_gt hlt)]
    exact ⟨Nat.lt_succ_of_lt hlt, hgone⟩
  · rw [interp_newInterp] at hlive ⊢
    split
    · next hnew =>
      subst hnew
      exact iff_of_false List.not_mem_nil fun houtstanding => hunscheduled id houtstanding.scheduled
    · next hnew =>
      rw [if_neg hnew] at hlive
      exact h.listed i id hlive

theorem step (h : Told record w) (hw : w.Booked) (hstep : Step w deeds w') :
    Told (record ++ deeds) w' := by
  cases hstep with
  | pass hpass => exact h.of_timetable_eq hpass.timetable hpass.nextInterp
  | schedule hlive delay script => exact h.schedule hw hlive delay script
  | cancel i id => exact h.cancel i id
  | fire hnext hwork => exact h.fire hw hnext hwork
  | serve | addTimer | addIdle => exact h.of_interpreters_eq rfl
  | delete i => exact h.delete hw i
  | create name safe parent => exact h.create hw name safe parent
  | drop => exact h.of_interpreters_eq (interpreters_cancelAfter w _)
  | armKeepalive l => exact h.of_interpreters_eq (rests_armKeepalive w l).interpreters
  | stopKeepalive l => exact h.of_interpreters_eq (rests_stopKeepalive w l).interpreters

end Told

theorem Step.booked (hw : w.Booked) (h : Step w deeds w') : w'.Booked := by
  cases h with
  | pass h => exact hw.pass h
  | schedule hlive delay script => exact hw.schedule hlive delay script
  | cancel i id => exact hw.cancel i id
  | fire hnext hwork => exact hw.fire hnext hwork
  | serve hnext hwork => exact hw.serve hnext hwork
  | delete i => exact hw.delete i
  | create name safe parent => exact hw.create name safe parent
  | addTimer deadline hhandler => exact hw.addTimer deadline hhandler
  | addIdle hhandler => exact hw.addIdle hhandler
  | drop htoken => exact hw.drop htoken
  | armKeepalive l => exact hw.armKeepalive l
  | stopKeepalive l => exact hw.stopKeepalive l

theorem Run.booked (hw : w.Booked) (h : Run w record w') : w'.Booked := by
  induction h with
  | start => exact hw
  | step _ hstep ih => exact hstep.booked ih

theorem Run.told (hw : w.Booked) (htold : Told [] w) (h : Run w record w') : Told record w' := by
  induction h with
  | start => exact htold
  | step hrun hstep ih => exact ih.step (hrun.booked hw) hstep

end Timetable

/-! ### Cancelling -/

namespace World.Booked

variable {w : World} {i : InterpId} {id : String}

end World.Booked

/-! ### Whole runs -/

namespace Timetable

variable {w : World} {record : List Deed}

end Timetable

end ScriptHost
