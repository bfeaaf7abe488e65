import ScriptHost.Proofs.Dispatch.Machine
import ScriptHost.Proofs.Stress.Machine
import Mathlib.Algebra.Group.Action.Defs
import Mathlib.Algebra.Order.BigOperators.Group.List

/-!
# What the callers of a run have done

How many moves some callers made, how much work they handed over, and that each of them has got what
it was to get.
-/

namespace ScriptHost.Cli.Stress

open Dispatch (Call)

variable {p : Plan}

/-- A call as the dispatch of the handle knows it. -/
def Stage.call? : Stage → Option Call
  | ready => none
  | checked => some .checked
  | pushed _ => some .pushed
  | posted _ => some .posted
  | waiting _ => none

/-- The reply of the work that was handed over. -/
def Stage.reply? : Stage → Option ReplyId
  | ready | checked => none
  | pushed r | posted r | waiting r => some r

/-- How many moves of a call were made. -/
def Stage.moves : Stage → Nat
  | ready => 0
  | checked => 1
  | pushed _ => 2
  | posted _ => 3
  | waiting _ => 4

/-- How many moves a caller made. -/
def Caller.moves (caller : Caller) : Nat :=
  5 * caller.results.length + caller.stage.moves

/-- How many pieces of work a caller handed over. -/
def Caller.handed (caller : Caller) : Nat :=
  caller.results.length + caller.stage.reply?.toList.length

/-- The results that a caller is to get for its first calls. -/
def expected (calls : Nat) : List (Except HostError String) :=
  (List.range calls).map fun j => .ok (toString (2 * j))

/-- A caller has got what it is to get, and what it waits for is its own work. -/
structure Plan.Follows (p : Plan) (pushed : List Queued) (caller : Caller) : Prop where
  results : caller.results = expected caller.results.length
  le : caller.results.length ≤ p.count
  lt : caller.stage.moves ≠ 0 → caller.results.length < p.count
  own : ∀ r, caller.stage.reply? = some r →
    ∃ m : Nat, pushed[m]? = some (p.work caller.results.length r)

/-- The envelope of some work of a run is what its caller is to get. -/
def Plan.Answers (p : Plan) (queued : Queued) (envelope : Envelope) : Prop :=
  ∀ j, j < p.count → queued.work = .eval (script p.id j) →
    envelope = .ok (.text (toString (2 * j)))

/-- A call under way as the dispatch of the handle knows it. -/
def Caller.call? (caller : Caller) : Option Call :=
  caller.stage.call?

/-- The calls under way as the dispatch of the handle knows them. -/
def underWay (callers : List Caller) : Multiset Call :=
  callers.filterMap Caller.call?

/-- How many moves some callers made. -/
def made (callers : List Caller) : Nat :=
  (callers.map Caller.moves).sum

/-- Every caller has got what it is to get, and they handed over all work that there is. -/
structure Plan.Account (p : Plan) (pushed : List Queued) (callers : List Caller) : Prop where
  follows : ∀ caller ∈ callers, p.Follows pushed caller
  handed : pushed.length = (callers.map Caller.handed).sum

section Callers

variable {before after : List Caller} {caller caller' : Caller} {pushed : List Queued}

theorem underWay_of_some {call : Call} (h : caller.call? = some call) :
    underWay (before ++ caller :: after) = call ::ₘ underWay (before ++ after) := by
  rw [underWay, underWay, List.filterMap_append, List.filterMap_cons_some h, List.filterMap_append]
  exact Multiset.coe_eq_coe.2 List.perm_middle

theorem underWay_of_none (h : caller.call? = none) :
    underWay (before ++ caller :: after) = underWay (before ++ after) := by
  rw [underWay, underWay, List.filterMap_append, List.filterMap_cons_none h, List.filterMap_append]

theorem made_replace (caller : Caller) (h : caller'.moves = caller.moves + 1) :
    made (before ++ caller' :: after) = made (before ++ caller :: after) + 1 := by
  simp only [made, List.map_append, List.map_cons, List.sum_append, List.sum_cons, h]
  omega

namespace Plan.Follows

theorem mono (h : p.Follows pushed caller) (more : List Queued) :
    p.Follows (pushed ++ more) caller := by
  refine ⟨h.results, h.le, h.lt, fun r hr => ?_⟩
  obtain ⟨m, hm⟩ := h.own r hr
  exact ⟨m, (List.getElem?_append_left (List.getElem?_eq_some_iff.1 hm).1).trans hm⟩

theorem handed_le (h : p.Follows pushed caller) : caller.handed ≤ p.count := by
  have hle := h.le
  have hlt := h.lt
  rw [Caller.handed]
  cases hstage : caller.stage with
  | ready | checked => exact hle
  | pushed r | posted r | waiting r =>
    rw [hstage] at hlt
    exact hlt (Nat.succ_ne_zero _)

theorem moves_le (h : p.Follows pushed caller) : caller.moves ≤ 5 * p.count := by
  have hle := h.le
  have hlt := h.lt
  rw [Caller.moves]
  cases hstage : caller.stage with
  | ready =>
    rw [Stage.moves]
    omega
  | checked | pushed r | posted r | waiting r =>
    rw [hstage] at hlt
    have hlt := hlt (Nat.succ_ne_zero _)
    rw [Stage.moves]
    omega

/-- A caller who made all moves made all calls. -/
theorem eq_of_moves (h : p.Follows pushed caller) (hmoves : caller.moves = 5 * p.count) :
    caller = { results := expected p.count } := by
  obtain ⟨stage, results⟩ := caller
  have hresults : results = expected results.length := h.results
  have hmoves : 5 * results.length + stage.moves = 5 * p.count := hmoves
  cases stage with
  | ready =>
    have hlength : results.length = p.count := Nat.eq_of_mul_eq_mul_left (by decide) hmoves
    rw [hresults, hlength]
  | checked | pushed r | posted r | waiting r =>
    rw [Stage.moves] at hmoves
    omega

end Plan.Follows

/-- No callers make more moves than their calls take. -/
theorem made_le {callers : List Caller} (h : ∀ caller ∈ callers, p.Follows pushed caller) :
    made callers ≤ callers.length * (5 * p.count) := by
  have hsum : (callers.map Caller.moves).sum ≤ (callers.map Caller.moves).length • (5 * p.count) :=
    List.sum_le_card_nsmul _ _ fun moves hmoves => by
      obtain ⟨caller, hcaller, rfl⟩ := List.mem_map.1 hmoves
      exact (h caller hcaller).moves_le
  rwa [List.length_map, smul_eq_mul] at hsum

/-- Callers who made all moves that there are made all calls. -/
theorem eq_of_made {callers : List Caller} (h : ∀ caller ∈ callers, p.Follows pushed caller)
    (hmade : made callers = callers.length * (5 * p.count)) :
    ∀ caller ∈ callers, caller = { results := expected p.count } := by
  induction callers with
  | nil => exact nofun
  | cons first rest ih =>
    obtain ⟨hfirst, hrest⟩ := List.forall_mem_cons.1 h
    have hmoves := hfirst.moves_le
    have hle := made_le hrest
    have hsum : made (first :: rest) = first.moves + made rest := rfl
    rw [hsum, List.length_cons, Nat.succ_mul] at hmade
    refine List.forall_mem_cons.2 ⟨hfirst.eq_of_moves (by omega), ih hrest (by omega)⟩

/-- Callers who made all calls made all moves and handed over all work. -/
theorem sums_of_done {callers : List Caller}
    (h : ∀ caller ∈ callers, caller = { results := expected p.count }) :
    made callers = callers.length * (5 * p.count) ∧
      (callers.map Caller.handed).sum = callers.length * p.count := by
  rw [List.eq_replicate_of_mem h]
  simp [made, Caller.moves, Caller.handed, Stage.moves, Stage.reply?, expected]

/-- A caller goes on, and may hand over work. -/
theorem Plan.Account.replace (h : p.Account pushed (before ++ caller :: after))
    (more : List Queued) (hfollows : p.Follows pushed caller → p.Follows (pushed ++ more) caller')
    (hhanded : caller'.handed = caller.handed + more.length) :
    p.Account (pushed ++ more) (before ++ caller' :: after) := by
  have hall := h.follows
  rw [List.forall_mem_append, List.forall_mem_cons] at hall
  obtain ⟨hfront, hcaller, hback⟩ := hall
  refine ⟨List.forall_mem_append.2 ⟨fun other hother => (hfront other hother).mono more,
    List.forall_mem_cons.2 ⟨hfollows hcaller, fun other hother => (hback other hother).mono more⟩⟩, ?_⟩
  have hsum := h.handed
  simp only [List.map_append, List.map_cons, List.sum_append, List.sum_cons, List.length_append,
    hhanded] at hsum ⊢
  omega

/-- A caller goes on without handing over work. -/
theorem Plan.Account.advance (h : p.Account pushed (before ++ caller :: after))
    (hfollows : p.Follows pushed caller → p.Follows pushed caller')
    (hhanded : caller'.handed = caller.handed) : p.Account pushed (before ++ caller' :: after) := by
  have hfollows' : p.Follows pushed caller → p.Follows (pushed ++ []) caller' := by
    rwa [List.append_nil]
  have hreplace := h.replace [] hfollows' hhanded
  rwa [List.append_nil] at hreplace

end Callers

end ScriptHost.Cli.Stress
