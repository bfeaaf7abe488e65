import Mathlib.Data.Option.Basic
import Mathlib.Data.List.Nodup
import Mathlib.Data.List.Perm.Basic
import ScriptHost.Agenda

/-!
# Timers, their deadlines and tokens

An agenda keeps its timers in the order in which they are due, and beside them a table with the
deadline of every one, by which a timer is found again that is to be cancelled. Every change of an
agenda keeps the two in step, and no token is given away twice.
-/

namespace ScriptHost

namespace Agenda

variable {ε η : Type} {a a' : Agenda ε η}

/-- The tokens of what is pending. -/
def tokens (a : Agenda ε η) : List Token :=
  a.timers.map (·.token) ++ a.idle.map (·.1)

/-- The timers and their deadlines describe the same pairs, and tokens are unique and were given
away. -/
structure Sound (a : Agenda ε η) : Prop where
  deadlines : a.deadlines.entries.Perm (a.timers.map fun t => (t.token, t.deadline))
  nodup : a.tokens.Nodup
  fresh : ∀ token ∈ a.tokens, token < a.nextToken

theorem sound_empty : ({} : Agenda ε η).Sound where
  deadlines := .nil
  nodup := List.nodup_nil
  fresh _ h := absurd h List.not_mem_nil

namespace Sound

theorem nodup_timers (h : a.Sound) : (a.timers.map (·.token)).Nodup :=
  (List.nodup_append.1 h.nodup).1

theorem timer_lt (h : a.Sound) {t : Timer η} (ht : t ∈ a.timers) : t.token < a.nextToken :=
  h.fresh _ (List.mem_append_left _ (List.mem_map_of_mem ht))

/-- Of one token there is one timer. -/
theorem timer_eq (h : a.Sound) {t t' : Timer η} (ht : t ∈ a.timers) (ht' : t' ∈ a.timers)
    (htoken : t.token = t'.token) : t = t' :=
  List.inj_on_of_nodup_map h.nodup_timers ht ht' htoken

theorem nodup_idle (h : a.Sound) : (a.idle.map (·.1)).Nodup :=
  (List.nodup_append.1 h.nodup).2.1

/-- Of one token there is one idle handler. -/
theorem idle_eq (h : a.Sound) {entry entry' : Token × η} (hentry : entry ∈ a.idle)
    (hentry' : entry' ∈ a.idle) (htoken : entry.1 = entry'.1) : entry = entry' :=
  List.inj_on_of_nodup_map h.nodup_idle hentry hentry' htoken

theorem keys_perm (h : a.Sound) : a.deadlines.keys.Perm (a.timers.map (·.token)) := by
  have hkeys := h.deadlines.map Prod.fst
  rwa [List.map_map] at hkeys

/-- A deadline is found exactly for a timer that is pending. -/
theorem get?_deadlines (h : a.Sound) (token : Token) (deadline : Time) :
    a.deadlines.get? token = some deadline ↔
      ∃ t ∈ a.timers, t.token = token ∧ t.deadline = deadline := by
  constructor
  · intro hget
    obtain ⟨t, ht, heq⟩ := List.mem_map.1 (h.deadlines.subset (Table.mem_of_get? hget))
    obtain ⟨htoken, hdeadline⟩ := Prod.mk.inj heq
    exact ⟨t, ht, htoken, hdeadline⟩
  · rintro ⟨t, ht, rfl, rfl⟩
    have hkeys : a.deadlines.keys.Nodup := h.keys_perm.nodup_iff.2 h.nodup_timers
    exact Table.get?_of_mem hkeys (h.deadlines.symm.subset (List.mem_map_of_mem ht))

/-- What is left of an agenda when work is taken off. -/
theorem sublist (h : a.Sound) (htokens : a'.tokens.Sublist a.tokens)
    (hdeadlines : a'.deadlines.entries.Perm (a'.timers.map fun t => (t.token, t.deadline)))
    (hnext : a'.nextToken = a.nextToken) : a'.Sound where
  deadlines := hdeadlines
  nodup := h.nodup.sublist htokens
  fresh token htoken := hnext ▸ h.fresh token (htokens.subset htoken)

end Sound

/-! ### Adding work -/

theorem insertTimer_perm (t : Timer η) (timers : List (Timer η)) :
    (insertTimer t timers).Perm (t :: timers) := by
  induction timers with
  | nil => rfl
  | cons s rest ih =>
    rw [insertTimer]
    split
    · exact (ih.cons s).trans (.swap t s rest)
    · rfl

theorem mem_insertTimer {s t : Timer η} {timers : List (Timer η)} :
    s ∈ insertTimer t timers ↔ s = t ∨ s ∈ timers :=
  (insertTimer_perm t timers).mem_iff.trans List.mem_cons

theorem Sound.post (h : a.Sound) (event : ε) : (a.post event).Sound where
  deadlines := h.deadlines
  nodup := h.nodup
  fresh := h.fresh

theorem Sound.alert (h : a.Sound) : a.alert.Sound where
  deadlines := h.deadlines
  nodup := h.nodup
  fresh := h.fresh

theorem tokens_addTimer (a : Agenda ε η) (deadline : Time) (handler : η) :
    (a.addTimer deadline handler).2.tokens.Perm (a.nextToken :: a.tokens) :=
  ((insertTimer_perm _ a.timers).map (·.token)).append_right _

theorem tokens_addIdle (a : Agenda ε η) (handler : η) :
    (a.addIdle handler).2.tokens.Perm (a.nextToken :: a.tokens) := by
  have hidle : (a.addIdle handler).2.tokens =
      a.timers.map (·.token) ++ (a.idle.map (·.1) ++ [a.nextToken]) := by
    simp [tokens, addIdle]
  rw [hidle, ← List.append_assoc]
  exact List.perm_append_singleton _ _

/-- The next token may be given away. -/
theorem Sound.give (h : a.Sound) (htokens : a'.tokens.Perm (a.nextToken :: a.tokens))
    (hdeadlines : a'.deadlines.entries.Perm (a'.timers.map fun t => (t.token, t.deadline)))
    (hnext : a'.nextToken = a.nextToken + 1) : a'.Sound := by
  refine ⟨hdeadlines, htokens.nodup_iff.2 (List.nodup_cons.2 ⟨fun hmem => ?_, h.nodup⟩),
    fun token htoken => ?_⟩
  · exact Nat.lt_irrefl _ (h.fresh _ hmem)
  · rw [hnext]
    rcases List.mem_cons.1 (htokens.subset htoken) with rfl | hold
    · exact Nat.lt_succ_self _
    · exact Nat.lt_succ_of_lt (h.fresh token hold)

theorem Sound.addTimer (h : a.Sound) (deadline : Time) (handler : η) :
    (a.addTimer deadline handler).2.Sound := by
  refine h.give (a.tokens_addTimer deadline handler) ?_ rfl
  have habsent : a.nextToken ∉ a.deadlines.keys := by
    intro hmem
    obtain ⟨t, ht, htoken⟩ := List.mem_map.1 (h.keys_perm.subset hmem)
    exact Nat.ne_of_lt (h.timer_lt ht) htoken
  have hinsert := Table.entries_insert_of_not_mem habsent deadline
  have htimers := (insertTimer_perm ⟨deadline, a.nextToken, handler⟩ a.timers).map
    fun t => (t.token, t.deadline)
  refine (hinsert ▸ List.perm_append_singleton _ _).trans (.trans ?_ htimers.symm)
  exact h.deadlines.cons _

theorem Sound.addIdle (h : a.Sound) (handler : η) : (a.addIdle handler).2.Sound :=
  h.give (a.tokens_addIdle handler) h.deadlines rfl

/-! ### Cancelling work -/

/-- Timers of which all but those of one token stay. -/
theorem Sound.dropTimer (h : a.Sound) (token : Token) (record : List (Deed ε)) :
    Sound { a with
      timers := a.timers.filter fun t => ¬t.token = token
      deadlines := a.deadlines.erase token
      record } := by
  refine h.sublist ((List.filter_sublist.map _).append_right _) ?_ rfl
  have hfilter := h.deadlines.filter fun entry => decide ¬entry.1 = token
  rwa [List.filter_map] at hfilter

/-- A timer is cancelled by its token alone. -/
theorem Sound.cancelTimer_eq (h : a.Sound) (token : Token) :
    a.cancelTimer token =
      (a.timers.any fun t => t.token = token,
        { a with
          timers := a.timers.filter fun t => ¬t.token = token
          deadlines := a.deadlines.erase token
          record := if a.timers.any fun t => t.token = token then
            .cancelled token :: a.record else a.record }) := by
  rw [cancelTimer]
  split
  · next hnone =>
    have hother : ∀ t ∈ a.timers, ¬t.token = token := by
      intro t ht htoken
      rw [(h.get?_deadlines token t.deadline).2 ⟨t, ht, htoken, rfl⟩] at hnone
      cases hnone
    have hany : (a.timers.any fun t => t.token = token) = false := by simpa using hother
    have hfilter : (a.timers.filter fun t => ¬t.token = token) = a.timers :=
      List.filter_eq_self.2 fun t ht => decide_eq_true (hother t ht)
    have herase : a.deadlines.erase token = a.deadlines := by
      refine congrArg Table.mk (List.filter_eq_self.2 fun entry hentry => decide_eq_true fun hkey => ?_)
      exact Table.get?_eq_none_iff.1 hnone (hkey ▸ List.mem_map_of_mem hentry)
    rw [hany, hfilter, herase, if_neg Bool.false_ne_true]
  · next deadline hget =>
    obtain ⟨t₀, ht₀, rfl, rfl⟩ := (h.get?_deadlines token deadline).1 hget
    have hsame : ∀ t ∈ a.timers,
        (t.deadline = t₀.deadline ∧ t.token = t₀.token) ↔ t.token = t₀.token := by
      intro t ht
      refine ⟨And.right, fun htoken => ?_⟩
      rw [h.timer_eq ht ht₀ htoken]
      exact ⟨rfl, rfl⟩
    have hany : (a.timers.any fun t => t.deadline = t₀.deadline ∧ t.token = t₀.token) =
        a.timers.any fun t => t.token = t₀.token := by
      rw [Bool.eq_iff_iff, List.any_eq_true, List.any_eq_true]
      refine exists_congr fun t => and_congr_right fun ht => ?_
      rw [decide_eq_true_iff, decide_eq_true_iff, hsame t ht]
    have hfilter : (a.timers.filter fun t => ¬(t.deadline = t₀.deadline ∧ t.token = t₀.token)) =
        a.timers.filter fun t => ¬t.token = t₀.token :=
      List.filter_congr fun t ht => decide_eq_decide.2 (not_congr (hsame t ht))
    dsimp only
    rw [hany, hfilter]

theorem Sound.cancelTimer (h : a.Sound) (token : Token) : (a.cancelTimer token).2.Sound := by
  rw [h.cancelTimer_eq]
  exact h.dropTimer token _

theorem Sound.cancelIdle (h : a.Sound) (token : Token) : (a.cancelIdle token).2.Sound :=
  h.sublist ((List.filter_sublist.map _).append_left _) h.deadlines rfl

/-! ### Taking work off -/

variable {work : Work ε η}

theorem popEvent?_eq_some (h : a.popEvent? = some (work, a')) :
    ∃ event rest, a.events = event :: rest ∧ work = .event event ∧
      a' = { a with events := rest, record := .served event :: a.record } := by
  unfold popEvent? at h
  split at h
  · cases h
  · next event rest hevents =>
    cases h
    exact ⟨event, rest, hevents, rfl, rfl⟩

theorem popTimer?_eq_some {now : Time} (h : a.popTimer? now = some (work, a')) :
    ∃ t rest, a.timers = t :: rest ∧ t.deadline ≤ now ∧ work = .timer t.handler ∧
      a' = { a with
        timers := rest
        deadlines := a.deadlines.erase t.token
        record := .started t.token :: a.record } := by
  unfold popTimer? at h
  split at h
  · cases h
  · next t rest htimers =>
    split at h
    · cases h
    · next hdue =>
      cases h
      exact ⟨t, rest, htimers, Nat.not_lt.1 hdue, rfl, rfl⟩

theorem popIdle?_eq_some (h : a.popIdle? = some (work, a')) :
    ∃ token handler rest, a.idle = (token, handler) :: rest ∧ work = .idle handler ∧
      a' = { a with idle := rest, record := .started token :: a.record } := by
  unfold popIdle? at h
  split at h
  · cases h
  · next token handler rest hidle =>
    cases h
    exact ⟨token, handler, rest, hidle, rfl, rfl⟩

/-- The work to serve next is a posted event, a timer or the first idle handler. -/
theorem next?_cases {flags : EventFlags} {now : Time} (h : a.next? flags now = some (work, a')) :
    a.popEvent? = some (work, a') ∨ a.popTimer? now = some (work, a') ∨
      a.popIdle? = some (work, a') := by
  rw [next?] at h
  rcases (Option.orElse_eq_some _ _ _).1 h with hevent | ⟨-, h⟩
  · left
    split at hevent
    · exact hevent
    · cases hevent
  · rcases (Option.orElse_eq_some _ _ _).1 h with htimer | ⟨-, hidle⟩
    · right; left
      split at htimer
      · exact htimer
      · cases htimer
    · right; right
      split at hidle
      · exact hidle
      · cases hidle

/-- No work can be served of the kinds that the flags cover; timers that are pending are not due. -/
theorem next?_eq_none_iff {flags : EventFlags} {now : Time} :
    a.next? flags now = none ↔
      (flags.intersects .posted = true → a.events = []) ∧
      (flags.contains .timer = true → ∀ t ∈ a.timers.head?, now < t.deadline) ∧
      (flags.contains .idle = true → a.idle = []) := by
  have hevent : a.popEvent? = none ↔ a.events = [] := by
    rw [popEvent?]
    split <;> simp_all
  have htimer : a.popTimer? now = none ↔ ∀ t ∈ a.timers.head?, now < t.deadline := by
    rw [popTimer?]
    split <;> simp_all
  have hidle : a.popIdle? = none ↔ a.idle = [] := by
    rw [popIdle?]
    split <;> simp_all
  simp only [next?, Option.orElse_eq_orElse, Option.orElse_eq_or, Option.or_eq_none_iff,
    ite_eq_right_iff, hevent, htimer, hidle]

theorem nextToken_next? {flags : EventFlags} {now : Time}
    (h : a.next? flags now = some (work, a')) : a'.nextToken = a.nextToken := by
  rcases next?_cases h with hpop | hpop | hpop
  · obtain ⟨event, rest, -, -, rfl⟩ := popEvent?_eq_some hpop
    rfl
  · obtain ⟨t, rest, -, -, -, rfl⟩ := popTimer?_eq_some hpop
    rfl
  · obtain ⟨token, handler, rest, -, -, rfl⟩ := popIdle?_eq_some hpop
    rfl

/-- Taking the first timer off is cancelling it. -/
theorem Sound.timers_tail (h : a.Sound) {t : Timer η} {rest : List (Timer η)}
    (htimers : a.timers = t :: rest) : rest = a.timers.filter fun s => ¬s.token = t.token := by
  have hnodup := h.nodup_timers
  rw [htimers, List.map_cons, List.nodup_cons] at hnodup
  rw [htimers, List.filter_cons_of_neg (by simp)]
  refine (List.filter_eq_self.2 fun s hs => ?_).symm
  have hother : ¬s.token = t.token := fun htoken =>
    hnodup.1 (htoken ▸ List.mem_map_of_mem hs)
  exact decide_eq_true hother

/-- Taking the first idle handler off is cancelling it. -/
theorem Sound.idle_tail (h : a.Sound) {token : Token} {handler : η} {rest : List (Token × η)}
    (hidle : a.idle = (token, handler) :: rest) : rest = a.idle.filter fun entry => entry.1 ≠ token := by
  have hnodup := h.nodup_idle
  rw [hidle, List.map_cons, List.nodup_cons] at hnodup
  rw [hidle, List.filter_cons_of_neg (by simp)]
  refine (List.filter_eq_self.2 fun entry hentry => ?_).symm
  have hother : entry.1 ≠ token := fun htoken =>
    hnodup.1 (htoken ▸ List.mem_map_of_mem (f := (·.1)) hentry)
  exact decide_eq_true hother

theorem Sound.next? (h : a.Sound) {flags : EventFlags} {now : Time}
    (hnext : a.next? flags now = some (work, a')) : a'.Sound := by
  rcases next?_cases hnext with hpop | hpop | hpop
  · obtain ⟨event, rest, -, -, rfl⟩ := popEvent?_eq_some hpop
    exact ⟨h.deadlines, h.nodup, h.fresh⟩
  · obtain ⟨t, rest, htimers, -, -, rfl⟩ := popTimer?_eq_some hpop
    rw [h.timers_tail htimers]
    exact h.dropTimer t.token _
  · obtain ⟨token, handler, rest, hidle, -, rfl⟩ := popIdle?_eq_some hpop
    refine h.sublist (List.Sublist.append_left ?_ _) h.deadlines rfl
    rw [hidle, List.map_cons]
    exact List.sublist_cons_self _ _

end Agenda

end ScriptHost
