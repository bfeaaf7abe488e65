import Mathlib.Algebra.Order.Group.Multiset
import Mathlib.Logic.Relation
import ScriptHost.Proofs.Agenda.Sound

/-!
# The record of an agenda

An agenda keeps a record of what becomes of the work on it. Whatever is done with the agenda, the record
grows, and what it gains accounts for all work: events are served in the order in which they were posted,
each once, and a timer or an idle handler that was pending or is created is either started once, or
cancelled, or still pending.
-/

namespace ScriptHost

namespace Agenda

variable {ε η : Type} {a a' a'' : Agenda ε η}

/-! ### What may be done with an agenda -/

/-- One thing that is done with an agenda. -/
inductive Step (a : Agenda ε η) : Agenda ε η → Prop
  | post (event : ε) : Step a (a.post event)
  | setAlerted (alerted : Bool) : Step a { a with alerted }
  | addTimer (deadline : Time) (handler : η) : Step a (a.addTimer deadline handler).2
  | addIdle (handler : η) : Step a (a.addIdle handler).2
  | cancelTimer (token : Token) : Step a (a.cancelTimer token).2
  | cancelIdle (token : Token) : Step a (a.cancelIdle token).2
  | take {flags : EventFlags} {now : Time} {work : Work ε η} {a' : Agenda ε η}
      (hnext : a.next? flags now = some (work, a')) : Step a a'

/-- Any number of such things. -/
abbrev Course : Agenda ε η → Agenda ε η → Prop :=
  Relation.ReflTransGen Step

theorem Step.sound (h : Step a a') (ha : a.Sound) : a'.Sound := by
  cases h with
  | post event => exact ha.post event
  | setAlerted alerted => exact ⟨ha.deadlines, ha.nodup, ha.fresh⟩
  | addTimer deadline handler => exact ha.addTimer deadline handler
  | addIdle handler => exact ha.addIdle handler
  | cancelTimer token => exact ha.cancelTimer token
  | cancelIdle token => exact ha.cancelIdle token
  | take hnext => exact ha.next? hnext

theorem Course.sound (h : Course a a') (ha : a.Sound) : a'.Sound := by
  induction h with
  | refl => exact ha
  | tail _ hstep ih => exact hstep.sound ih

/-! ### Reading a record -/

namespace Deed

def posted? : Deed ε → Option ε
  | posted event => some event
  | _ => none

def served? : Deed ε → Option ε
  | served event => some event
  | _ => none

def created? : Deed ε → Option Token
  | created token => some token
  | _ => none

def started? : Deed ε → Option Token
  | started token => some token
  | _ => none

def cancelled? : Deed ε → Option Token
  | cancelled token => some token
  | _ => none

end Deed

/-- What a record, the newest first, says about something, the oldest first. -/
def noted {α : Type} (f : Deed ε → Option α) (record : List (Deed ε)) : List α :=
  record.reverse.filterMap f

section

variable {α : Type} (f : Deed ε → Option α) (new new' : List (Deed ε))

@[simp] theorem noted_nil : noted f [] = [] := rfl

@[simp] theorem noted_singleton (deed : Deed ε) : noted f [deed] = (f deed).toList := by
  cases h : f deed <;> simp [noted, h]

@[simp] theorem noted_append : noted f (new' ++ new) = noted f new ++ noted f new' := by
  rw [noted, List.reverse_append, List.filterMap_append]
  rfl

end

/-! ### What a record accounts for -/

/-- What the record gains on the way from one agenda to another accounts for all work. -/
structure Accounts (new : List (Deed ε)) (a a' : Agenda ε η) : Prop where
  record : a'.record = new ++ a.record
  events : a.events ++ noted Deed.posted? new = noted Deed.served? new ++ a'.events
  /-- Tokens are given away one after the other. -/
  created : List.range' a.nextToken (noted Deed.created? new).length = noted Deed.created? new
  nextToken : a'.nextToken = a.nextToken + (noted Deed.created? new).length
  tokens : (a.tokens ++ noted Deed.created? new).Perm
    (noted Deed.started? new ++ noted Deed.cancelled? new ++ a'.tokens)

namespace Accounts

variable {new new' : List (Deed ε)}

theorem refl (a : Agenda ε η) : Accounts [] a a where
  record := rfl
  events := List.append_nil _
  created := rfl
  nextToken := rfl
  tokens := by simp

/-- The next step accounts for what is gained by it. -/
theorem trans (h : Accounts new a a') (h' : Accounts new' a' a'') :
    Accounts (new' ++ new) a a'' where
  record := by rw [h'.record, h.record, List.append_assoc]
  events := by
    rw [noted_append, noted_append, ← List.append_assoc, h.events, List.append_assoc, h'.events,
      List.append_assoc]
  created := by
    have hlater := h'.created
    rw [h.nextToken] at hlater
    rw [noted_append, List.length_append, ← List.range'_append_1, h.created, hlater]
  nextToken := by rw [h'.nextToken, h.nextToken, noted_append, List.length_append, Nat.add_assoc]
  tokens := by
    have hfirst := Multiset.coe_eq_coe.2 h.tokens
    have hlater := Multiset.coe_eq_coe.2 h'.tokens
    simp only [← Multiset.coe_add] at hfirst hlater
    rw [← Multiset.coe_eq_coe]
    simp only [noted_append, ← Multiset.coe_add]
    rw [← add_assoc, hfirst, add_assoc, hlater]
    ac_rfl

/-- The tokens of what was pending and of what was created are all different. -/
theorem nodup (h : Accounts new a a') (ha : a.Sound) :
    (a.tokens ++ noted Deed.created? new).Nodup := by
  rw [← h.created]
  refine List.nodup_append.2 ⟨ha.nodup, List.nodup_range', fun token htoken token' htoken' => ?_⟩
  exact Nat.ne_of_lt (Nat.lt_of_lt_of_le (ha.fresh token htoken) (List.mem_range'_1.1 htoken').1)

/-! #### Steps -/

/-- Nothing is gained, and the same is pending. -/
theorem of_same (hrecord : a'.record = a.record) (hevents : a'.events = a.events)
    (hnext : a'.nextToken = a.nextToken) (htokens : a.tokens.Perm a'.tokens) : Accounts [] a a' where
  record := hrecord
  events := by simp [hevents]
  created := rfl
  nextToken := hnext
  tokens := by simpa using htokens

theorem post (a : Agenda ε η) (event : ε) : Accounts [.posted event] a (a.post event) where
  record := rfl
  events := rfl
  created := rfl
  nextToken := rfl
  tokens := by
    simp only [noted_singleton]
    exact .of_eq (List.append_nil _)

/-- A timer or an idle handler is created. -/
theorem create (hrecord : a'.record = .created a.nextToken :: a.record) (hevents : a'.events = a.events)
    (hnext : a'.nextToken = a.nextToken + 1) (htokens : a'.tokens.Perm (a.nextToken :: a.tokens)) :
    Accounts [.created a.nextToken] a a' where
  record := hrecord
  events := by simp [hevents, Deed.posted?, Deed.served?]
  created := rfl
  nextToken := hnext
  tokens := by
    simp only [noted_singleton]
    exact (List.perm_append_singleton _ _).trans htokens.symm

/-- A timer or an idle handler is started or cancelled. -/
theorem remove {token : Token} {deed : Deed ε} (hdeed : deed = .started token ∨ deed = .cancelled token)
    (hrecord : a'.record = deed :: a.record) (hevents : a'.events = a.events)
    (hnext : a'.nextToken = a.nextToken) (htokens : a.tokens.Perm (token :: a'.tokens)) :
    Accounts [deed] a a' := by
  rcases hdeed with rfl | rfl
  all_goals
    refine ⟨hrecord, ?_, rfl, hnext, ?_⟩
    · simp [hevents, Deed.posted?, Deed.served?]
    · simp only [noted_singleton]
      exact (List.append_nil a.tokens).symm ▸ htokens

theorem serve {event : ε} (hrecord : a'.record = .served event :: a.record)
    (hevents : a.events = event :: a'.events) (hnext : a'.nextToken = a.nextToken)
    (htokens : a'.tokens = a.tokens) : Accounts [.served event] a a' where
  record := hrecord
  events := by simp [hevents, Deed.posted?, Deed.served?]
  created := rfl
  nextToken := hnext
  tokens := by
    rw [htokens]
    simp only [noted_singleton]
    exact .of_eq (List.append_nil _)

end Accounts

/-- What is left when everything with the token of some entry goes. -/
theorem perm_cons_filter {α : Type} {entries : List α} {token : α → Token}
    (hnodup : (entries.map token).Nodup) {entry : α} (hentry : entry ∈ entries) :
    (entries.map token).Perm
      (token entry :: (entries.filter fun other => ¬token other = token entry).map token) := by
  have hfilter : (entries.filter fun other => ¬token other = token entry).map token =
      (entries.map token).erase (token entry) := by
    rw [hnodup.erase_eq_filter, List.filter_map]
    refine congrArg _ (List.filter_congr fun other _ => ?_)
    simp [bne, Bool.beq_eq_decide_eq]
  rw [hfilter]
  exact List.perm_cons_erase (List.mem_map_of_mem hentry)

theorem Sound.accounts_cancelTimer (ha : a.Sound) (token : Token) :
    ∃ new, Accounts new a (a.cancelTimer token).2 := by
  rw [ha.cancelTimer_eq token]
  cases hfound : a.timers.any fun t => t.token = token with
  | true =>
    obtain ⟨t, ht, htoken⟩ := List.any_eq_true.1 hfound
    obtain rfl := of_decide_eq_true htoken
    refine ⟨_, .remove (.inr rfl) rfl rfl rfl ?_⟩
    exact (perm_cons_filter ha.nodup_timers ht).append_right _
  | false =>
    have hnone : (a.timers.filter fun t => ¬t.token = token) = a.timers :=
      List.filter_eq_self.2 fun t ht => by simpa using List.any_eq_false.1 hfound t ht
    refine ⟨_, .of_same rfl rfl rfl (.of_eq ?_)⟩
    simp only [tokens, hnone]

theorem Sound.accounts_cancelIdle (ha : a.Sound) (token : Token) :
    ∃ new, Accounts new a (a.cancelIdle token).2 := by
  rw [Agenda.cancelIdle]
  cases hfound : a.idle.any fun entry => entry.1 = token with
  | true =>
    obtain ⟨entry, hentry, htoken⟩ := List.any_eq_true.1 hfound
    obtain rfl := of_decide_eq_true htoken
    refine ⟨_, .remove (.inr rfl) rfl rfl rfl ?_⟩
    exact ((perm_cons_filter ha.nodup_idle hentry).append_left _).trans List.perm_middle
  | false =>
    have hnone : (a.idle.filter fun entry => ¬entry.1 = token) = a.idle :=
      List.filter_eq_self.2 fun entry hentry => by simpa using List.any_eq_false.1 hfound entry hentry
    refine ⟨_, .of_same rfl rfl rfl (.of_eq ?_)⟩
    simp only [tokens, ne_eq, hnone]

/-- The record gains what a step does. -/
theorem Step.accounts (h : Step a a') (ha : a.Sound) : ∃ new, Accounts new a a' := by
  cases h with
  | post event => exact ⟨_, .post a event⟩
  | setAlerted alerted => exact ⟨_, .of_same rfl rfl rfl (.refl _)⟩
  | addTimer deadline handler =>
    exact ⟨_, .create rfl rfl rfl (a.tokens_addTimer deadline handler)⟩
  | addIdle handler => exact ⟨_, .create rfl rfl rfl (a.tokens_addIdle handler)⟩
  | cancelTimer token => exact ha.accounts_cancelTimer token
  | cancelIdle token => exact ha.accounts_cancelIdle token
  | take hnext =>
    rcases next?_cases hnext with hpop | hpop | hpop
    · obtain ⟨event, rest, hevents, -, rfl⟩ := popEvent?_eq_some hpop
      exact ⟨_, .serve rfl hevents rfl rfl⟩
    · obtain ⟨t, rest, htimers, -, -, rfl⟩ := popTimer?_eq_some hpop
      refine ⟨_, .remove (.inl rfl) rfl rfl rfl (.of_eq ?_)⟩
      rw [tokens, htimers]
      rfl
    · obtain ⟨token, handler, rest, hidle, -, rfl⟩ := popIdle?_eq_some hpop
      refine ⟨_, .remove (.inl rfl) rfl rfl rfl ?_⟩
      rw [tokens, hidle, List.map_cons]
      exact List.perm_middle

/-- Whatever is done with an agenda, its record accounts for all work. -/
theorem Course.accounts (h : Course a a') (ha : a.Sound) : ∃ new, Accounts new a a' := by
  induction h with
  | refl => exact ⟨[], .refl a⟩
  | tail hcourse hstep ih =>
    obtain ⟨new, hnew⟩ := ih
    obtain ⟨new', hnew'⟩ := hstep.accounts (Course.sound hcourse ha)
    exact ⟨new' ++ new, hnew.trans hnew'⟩

end Agenda

end ScriptHost
