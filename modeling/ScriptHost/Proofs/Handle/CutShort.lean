import ScriptHost.Proofs.Handle.Bookkeeping
import ScriptHost.Proofs.Run.Handle

/-!
# Work that is cut short

What waits for a handle is served when its last holder goes. As long as one thread acts, nothing but
a fatal signal of a piece of this work cuts that short.
-/

namespace ScriptHost

/-- Executing some work can end in a fatal signal. -/
def Work.MayRaise (work : Work) : Prop :=
  ∃ (fuel : Nat) (i : InterpId) (signal : FatalSignal) (w w' : World),
    Handle.execute ⟨fuel, runWithin fuel⟩ i work w = .error (.unwind signal) w'

/-- Some work that waits for a handle can end in a fatal signal. -/
def World.Endangers (w : World) (h : HandleId) : Prop :=
  ∃ queued, w.Waits h queued ∧ queued.work.MayRaise

variable {w w' : World} {h : HandleId}

theorem World.Endangers.mono (h' : w'.Endangers h)
    (hwaits : ∀ h queued, w'.Waits h queued → w.Waits h queued) : w.Endangers h := by
  obtain ⟨queued, hqueued, hraises⟩ := h'
  exact ⟨queued, hwaits h queued hqueued, hraises⟩

theorem World.Waits.of_unhold {k : HandleId} {queued : Queued}
    (h' : (w.unhold h).Waits k queued) : w.Waits k queued := by
  apply h'.of_modifyHandle
  intro handle _
  exact List.Subset.refl _

/-- A fatal signal gets out when the last holder of a handle goes. -/
theorem Handle.endangers_of_release {fuel : Nat} {signal : FatalSignal} (hsolo : w.Solo)
    (hgone : (w.unhold h).Gone h)
    (hcut : Handle.release ⟨fuel, runWithin fuel⟩ h w = .error (.unwind signal) w') :
    w.Endangers h := by
  obtain ⟨s, hs, hgone⟩ := hgone
  obtain ⟨handle, hhandle, rfl⟩ := Option.map_eq_some_iff.1 hs
  by_cases hstays : (handle.exists || handle.deleted) = true
  · rw [release_of_stays fun former hformer => by
      cases hhandle.symm.trans hformer
      exact hstays] at hcut
    cases hcut
  · have howner : (w.dropped h handle).onOwner h = true := by
      by_contra hnot
      exact World.not_solo_of_dropped hhandle (Bool.eq_false_iff.2 hnot) hsolo
    rw [release_eq_of_owner hhandle (Bool.eq_false_iff.2 hstays) howner, releaseHere] at hcut
    cases hserve : serveDetached ⟨fuel, runWithin fuel⟩ h handle.mailbox.queue
        (w.dropped h handle) with
    | ok a w₂ =>
      rw [Act.bind_of_ok hserve] at hcut
      cases hcut
    | error halt w₂ =>
      rw [Act.bind_of_error hserve] at hcut
      cases hcut
      obtain ⟨-, queued, hmem, i, u, u', hrun⟩ := exists_halted_of_serveDetached hserve
      have hwaits : (w.unhold h).Waits h queued := ⟨handle, hhandle, hmem⟩
      exact ⟨queued, hwaits.of_unhold, fuel, i, signal, u, u', hrun⟩

namespace Run

variable {lost : Set HandleId}

theorem endangers_of_dropped {w₁ : World} (htidy : w.Tidy) (hsolo : w.Solo) (hw : w.Books ∅ ∅ ∅)
    (hgone : (w.unhold h).Gone h) (hdropped : ((w.unhold h).unregister h).Rests w₁)
    (hserved : w₁.Tidy → w₁.Solo → w₁.Books ∅ ∅ ∅ → ∀ k ∈ lost, w₁.Endangers k) :
    ∀ k ∈ lost, w.Endangers k := by
  obtain ⟨htidy₁, hsolo₁, hbooks₁, hages⟩ := books_dropped htidy hsolo hw hgone hdropped
  exact fun k hk => (hserved htidy₁ hsolo₁ hbooks₁ k hk).mono hages.waits

theorem endangers_of_modifyInterp {i : InterpId} {f : Interpreter → Interpreter} (hsolo : w.Solo)
    (hw : w.Books ∅ ∅ ∅)
    (hinner : (w.modifyInterp i f).Solo → (w.modifyInterp i f).Books ∅ ∅ ∅ →
      ∀ k ∈ lost, (w.modifyInterp i f).Endangers k)
    (hf : ∀ r, (f r).plans = r.plans) : ∀ k ∈ lost, w.Endangers k := by
  have hages := World.ages_modifyInterp w i f
  exact fun k hk => (hinner (hages.solo hsolo) (hw.of_plans_eq i hf) k hk).mono hages.waits

/-- Only handles are lost for which work waited that can end in a fatal signal. -/
theorem Course.endangers (hcourse : Course lost w w') (htidy : w.Tidy) (hsolo : w.Solo)
    (hw : w.Books ∅ ∅ ∅) : ∀ k ∈ lost, w.Endangers k := by
  induction hcourse with
  | trans h h' ih ih' =>
    obtain ⟨hbooks, hages⟩ := h.books htidy hsolo hw
    rintro k (hk | hk)
    · exact ih htidy hsolo hw k hk
    · exact (ih' (h.leads.tidy htidy) (hages.solo hsolo) hbooks k hk).mono hages.waits
  | call _ _ ih =>
    exact endangers_of_modifyInterp hsolo hw (ih (htidy.modifyInterp fun r hr => hr)) fun r => rfl
  | aside _ _ ih =>
    exact endangers_of_modifyInterp hsolo hw (ih (htidy.modifyInterp fun r hr => hr)) fun r => rfl
  | command _ hdepth _ ih =>
    exact endangers_of_modifyInterp hsolo hw (ih (htidy.modifyInterp fun r _ => hdepth)) fun r => rfl
  | release hgone hdropped _ ih => exact endangers_of_dropped htidy hsolo hw hgone hdropped ih
  | cut hgone hdropped _ hcut ih =>
    rintro k (rfl | hk)
    · exact Handle.endangers_of_release hsolo hgone hcut
    · exact endangers_of_dropped htidy hsolo hw hgone hdropped ih k hk
  | _ => exact nofun

end Run

end ScriptHost
