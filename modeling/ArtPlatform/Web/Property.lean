import ArtPlatform.Foundation.EventRun
import Mathlib.Tactic.Common

/-!
# Observable properties

The setter of a property asks the prevent consumers and then calls the update consumers,
and all of them may call the setter again.  The open calls of the setter are a stack of
assignments; an outer notification loop goes on with its own value when the inner
assignments have returned.

Main results:

- Theorem `assign_eq_set`: without prevent consumers the setter is the function
  `Property.set`.
- Theorem `step_cases`: what one step does to the value with which each consumer is going to
  be left.
- Theorem `converged_iff`: the consumers converge to the current value exactly if no loop
  still owed another value when the last assignment was accepted.
- Theorem `stale_value_delivered`: a consumer that corrects the value leaves the consumer
  behind it with the old one.
-/

namespace ArtPlatform.Web

open EventRun

/-- A property; `undefined` is `none`, and the clone of a value is the value. -/
structure Property (α : Type) where
  previous : Option α := none
  value : Option α := none
  pending : Option α := none
deriving DecidableEq, Repr

/-- An open call of the setter, in the prevent consumer `next` or behind the call of the
update consumer before `next`. -/
inductive Assignment (α : Type)
  | preventing (initial : Bool) (value : Option α) (next : Nat)
  | notifying (value : Option α) (next : Nat)
deriving DecidableEq, Repr

/-- A top-level assignment under way: the innermost open call comes first.  The accepted
assignments are counted. -/
structure PropertyRun (α : Type) where
  property : Property α
  started : Bool := false
  frames : List (Assignment α) := []
  calls : List (Nat × Option α) := []
  accepted : Nat := 0
deriving DecidableEq, Repr

/-- The setter is called; the running prevent consumer answers whether it lets the value
pass; the running update consumer returns. -/
inductive PropertyEvent (α : Type)
  | set (value : Option α)
  | answer (passes : Bool)
  | returned
deriving DecidableEq, Repr

namespace Property

variable {α : Type}

/-- An equal value only replaces the value. -/
def keep (p : Property α) (value : Option α) : Property α :=
  { p with value := value, pending := value }

def commit (p : Property α) (initial : Bool) (value : Option α) : Property α where
  previous := if initial then none else p.value
  value := value
  pending := value

/-- The setter of a property that nothing prevents, and whether it calls the update
consumers. -/
def set [DecidableEq α] (p : Property α) (value : Option α) : Property α × Bool :=
  match p.value with
  | none => (p.commit true value, true)
  | some current =>
      if some current = value then (p.keep value, false)
      else (p.commit false value, true)

variable [DecidableEq α] {p : Property α} {current value : α}

theorem set_same (h : p.value = some value) :
    p.set (some value) = (p.keep (some value), false) := by
  simp [set, h]

theorem set_other (h : p.value = some current) (hne : value ≠ current) :
    p.set (some value) = (p.commit false (some value), true) := by
  simp [set, h, Ne.symm hne]

/-- Only the assignment of the value that is there calls no consumer; `undefined` always
does. -/
theorem set_told {value : Option α} (h : value = p.value → value = none) :
    ∃ initial, p.set value = (p.commit initial value, true) := by
  cases hvalue : p.value with
  | none => exact ⟨true, by simp only [set, hvalue]⟩
  | some current =>
      have hne : some current ≠ value := by
        intro hsame
        have hnone := h (hsame.symm.trans hvalue.symm)
        rw [hnone] at hsame
        cases hsame
      exact ⟨false, by simp only [set, hvalue, if_neg hne]⟩

end Property

namespace PropertyRun

variable {α : Type}

/-- `forEach` over the update consumers, from the consumer `next` on. -/
def notify (consumers : Nat) (s : PropertyRun α) (value : Option α) (next : Nat) :
    PropertyRun α :=
  if next < consumers then
    { s with
      frames := .notifying value (next + 1) :: s.frames
      calls := s.calls ++ [(next, value)] }
  else s

def accept (consumers : Nat) (s : PropertyRun α) (initial : Bool) (value : Option α) :
    PropertyRun α :=
  notify consumers
    { s with property := s.property.commit initial value, accepted := s.accepted + 1 } value 0

/-- `some` over the prevent consumers, from the consumer `next` on. -/
def ask (prevents consumers : Nat) (s : PropertyRun α) (initial : Bool) (value : Option α)
    (next : Nat) : PropertyRun α :=
  if next < prevents then { s with frames := .preventing initial value next :: s.frames }
  else accept consumers s initial value

variable [DecidableEq α]

/-- The setter. -/
def assign (prevents consumers : Nat) (s : PropertyRun α) (value : Option α) : PropertyRun α :=
  match s.property.value with
  | none => ask prevents consumers s true value 0
  | some current =>
      if some current = value then { s with property := s.property.keep value }
      else ask prevents consumers s false value 0

/-- One top-level assignment; while it is open, the running consumer calls the setter or
comes to its end. -/
def step (prevents consumers : Nat) (s : PropertyRun α) (event : PropertyEvent α) :
    Option (PropertyRun α) :=
  match s.frames, event with
  | [], .set value =>
      if s.started then none
      else some (assign prevents consumers { s with started := true } value)
  | _ :: _, .set value => some (assign prevents consumers s value)
  | .preventing initial value next :: frames, .answer true =>
      some (ask prevents consumers { s with frames := frames } initial value (next + 1))
  | .preventing _ _ _ :: frames, .answer false => some { s with frames := frames }
  | .notifying value next :: frames, .returned =>
      some (notify consumers { s with frames := frames } value next)
  | _, _ => none

end PropertyRun

/-! ## What a consumer is left with -/

section

variable {α : Type}

/-- The value of the last call of a consumer. -/
def lastCalled (calls : List (Nat × Option α)) (consumer : Nat) : Option (Option α) :=
  ((calls.filter fun call => call.1 = consumer).getLast?).map Prod.snd

/-- The value that an open assignment has still to hand to a consumer. -/
def Assignment.owes : Assignment α → Nat → Option (Option α)
  | .preventing _ _ _, _ => none
  | .notifying value next, consumer => if next ≤ consumer then some value else none

/-- The outermost loop is the last to call a consumer. -/
def owed : List (Assignment α) → Nat → Option (Option α)
  | [], _ => none
  | frame :: frames, consumer => (owed frames consumer).or (frame.owes consumer)

/-- The value of the last call of a consumer if no other assignment is accepted. -/
def PropertyRun.outcome (s : PropertyRun α) (consumer : Nat) : Option (Option α) :=
  (owed s.frames consumer).or (lastCalled s.calls consumer)

/-- Every consumer that was called was last called with the current value, and either all
consumers were called or none. -/
structure Converged (consumers : Nat) (s : PropertyRun α) : Prop where
  current : ∀ consumer < consumers, ∀ value, lastCalled s.calls consumer = some value →
    value = s.property.value
  allOrNone : s.calls = [] ∨ ∀ consumer < consumers, (lastCalled s.calls consumer).isSome = true

theorem lastCalled_snoc (calls : List (Nat × Option α)) (next consumer : Nat)
    (value : Option α) :
    lastCalled (calls ++ [(next, value)]) consumer =
      if next = consumer then some value else lastCalled calls consumer := by
  by_cases h : next = consumer
  · simp [lastCalled, List.filter_append, h]
  · simp [lastCalled, List.filter_append, h]

end

namespace PropertyRun

variable {α : Type} {prevents consumers : Nat} {s t : PropertyRun α}

/-! ## Steps -/

/-- Nothing has been handed out and nothing is going to be. -/
def Quiet (s : PropertyRun α) : Prop :=
  s.calls = [] ∧ ∀ consumer, owed s.frames consumer = none

/-- A step that accepts no assignment. -/
structure Keeps (consumers : Nat) (s t : PropertyRun α) : Prop where
  accepted : t.accepted = s.accepted
  value : t.property.value = s.property.value
  outcome : ∀ consumer < consumers, t.outcome consumer = s.outcome consumer
  quiet : s.Quiet → t.Quiet

/-- A step that accepts an assignment: only the open loops can change what a consumer is
left with. -/
structure Accepts (consumers : Nat) (s t : PropertyRun α) : Prop where
  accepted : t.accepted = s.accepted + 1
  outcome : ∀ consumer < consumers,
    t.outcome consumer = some ((owed s.frames consumer).getD t.property.value)

theorem notify_fields (consumers : Nat) (s : PropertyRun α) (value : Option α) (next : Nat) :
    (notify consumers s value next).accepted = s.accepted ∧
      (notify consumers s value next).property = s.property := by
  simp only [notify]
  split <;> exact ⟨rfl, rfl⟩

/-- A loop from a consumer on: it and those behind it are handed the value, unless an outer
loop reaches them later. -/
theorem outcome_notify (s : PropertyRun α) (value : Option α) (next : Nat) {consumer : Nat}
    (h : consumer < consumers) :
    (notify consumers s value next).outcome consumer =
      (owed s.frames consumer).or
        ((if next ≤ consumer then some value else none).or (lastCalled s.calls consumer)) := by
  by_cases hnext : next < consumers
  · simp only [notify, if_pos hnext, outcome, owed, Assignment.owes, lastCalled_snoc,
      Option.or_assoc]
    congr 1
    rcases Nat.lt_trichotomy next consumer with hlt | heq | hgt
    · rw [if_pos (Nat.succ_le_of_lt hlt), if_pos hlt.le]
      rfl
    · rw [if_neg (by omega), if_pos heq, if_pos heq.le]
      rfl
    · rw [if_neg (by omega), if_neg (by omega), if_neg (by omega)]
  · simp only [notify, if_neg hnext, outcome]
    rw [if_neg (by omega)]
    rfl

theorem accepts_accept (s : PropertyRun α) (initial : Bool) (value : Option α) :
    Accepts consumers s (accept consumers s initial value) := by
  refine ⟨(notify_fields ..).1, ?_⟩
  intro consumer h
  have hvalue : (accept consumers s initial value).property.value = value :=
    congrArg Property.value (notify_fields ..).2
  rw [hvalue, accept, outcome_notify _ _ _ h, if_pos (Nat.zero_le consumer)]
  cases owed s.frames consumer <;> rfl

attribute [local simp] outcome owed Assignment.owes in
theorem keeps_preventing (s : PropertyRun α) (initial : Bool) (value : Option α) (next : Nat) :
    Keeps consumers s { s with frames := .preventing initial value next :: s.frames } := by
  refine ⟨rfl, rfl, ?_, ?_⟩
  · intro consumer _
    simp
  · intro ⟨hcalls, howed⟩
    refine ⟨hcalls, fun consumer => ?_⟩
    simp [howed]

theorem ask_cases (s : PropertyRun α) (initial : Bool) (value : Option α) (next : Nat) :
    Keeps consumers s (ask prevents consumers s initial value next) ∨
      Accepts consumers s (ask prevents consumers s initial value next) := by
  simp only [ask]
  split
  · exact .inl (keeps_preventing s initial value next)
  · exact .inr (accepts_accept s initial value)

/-- The open prevent consumer owes nothing: its frame can be left out. -/
theorem cases_of_preventing {initial : Bool} {value : Option α} {next : Nat}
    {frames : List (Assignment α)} (hframes : s.frames = .preventing initial value next :: frames)
    (h : Keeps consumers { s with frames := frames } t ∨
      Accepts consumers { s with frames := frames } t) :
    Keeps consumers s t ∨ Accepts consumers s t := by
  have howed : ∀ consumer, owed s.frames consumer = owed frames consumer := by
    intro consumer
    simp [hframes, owed, Assignment.owes]
  rcases h with h | h
  · refine .inl ⟨h.accepted, h.value, ?_, ?_⟩
    · intro consumer hlt
      rw [h.outcome consumer hlt]
      simp only [outcome, howed]
    · intro ⟨hcalls, hquiet⟩
      exact h.quiet ⟨hcalls, fun consumer => (howed consumer).symm.trans (hquiet consumer)⟩
  · refine .inr ⟨h.accepted, ?_⟩
    intro consumer hlt
    rw [h.outcome consumer hlt, howed]

/-- The loop goes on with the next consumer. -/
theorem keeps_returned {value : Option α} {next : Nat} {frames : List (Assignment α)}
    (hframes : s.frames = .notifying value next :: frames) :
    Keeps consumers s (notify consumers { s with frames := frames } value next) := by
  refine ⟨(notify_fields ..).1, congrArg Property.value (notify_fields ..).2, ?_, ?_⟩
  · intro consumer h
    rw [outcome_notify _ _ _ h]
    simp only [outcome, hframes, owed, Assignment.owes, Option.or_assoc]
  · -- the open loop owes its value to the consumer that comes next
    intro ⟨_, howed⟩
    have hnone := howed next
    rw [hframes, owed, Assignment.owes, if_pos le_rfl] at hnone
    simp at hnone

variable [DecidableEq α]

theorem assign_cases (s : PropertyRun α) (value : Option α) :
    Keeps consumers s (assign prevents consumers s value) ∨
      Accepts consumers s (assign prevents consumers s value) := by
  simp only [assign]
  split
  · exact ask_cases s true value 0
  · rename_i current hcurrent
    split
    next hsame =>
      refine .inl ⟨rfl, ?_, fun _ _ => rfl, fun hquiet => hquiet⟩
      exact hsame.symm.trans hcurrent.symm
    next => exact ask_cases s false value 0

/-- One step, by whether it accepts an assignment. -/
theorem step_cases {event : PropertyEvent α} (h : step prevents consumers s event = some t) :
    Keeps consumers s t ∨ Accepts consumers s t := by
  simp only [step] at h
  split at h
  next hframes =>
    split at h
    next => cases h
    next =>
      cases h
      rcases assign_cases { s with started := true } _ with hkeeps | haccepts
      · exact .inl ⟨hkeeps.accepted, hkeeps.value, hkeeps.outcome, hkeeps.quiet⟩
      · exact .inr ⟨haccepts.accepted, haccepts.outcome⟩
  next hframes =>
    cases h
    exact assign_cases s _
  next hframes =>
    cases h
    exact cases_of_preventing hframes (ask_cases _ _ _ _)
  next hframes =>
    cases h
    refine cases_of_preventing hframes (.inl ⟨rfl, rfl, fun _ _ => rfl, fun hquiet => hquiet⟩)
  next hframes =>
    cases h
    exact .inl (keeps_returned hframes)
  next => cases h

/-- Without prevent consumers the setter is a function of the property. -/
theorem assign_eq_set (s : PropertyRun α) (value : Option α) :
    assign 0 consumers s value =
      if (s.property.set value).2 then
        notify consumers
          { s with property := (s.property.set value).1, accepted := s.accepted + 1 } value 0
      else { s with property := (s.property.set value).1 } := by
  cases hvalue : s.property.value with
  | none =>
      simp only [assign, Property.set, hvalue]
      rfl
  | some current =>
      by_cases hsame : some current = value
      · simp only [assign, Property.set, hvalue, if_pos hsame, Bool.false_eq_true, if_false]
      · simp only [assign, Property.set, hvalue, if_neg hsame]
        rfl

/-! ## One top-level assignment -/

/-- The property before the assignment. -/
def idle (p : Property α) : PropertyRun α where
  property := p

/-- When the last assignment of a run was accepted, no open loop owed a consumer another
value. -/
def NothingElseOwed (prevents consumers : Nat) (p : Property α)
    (events : List (PropertyEvent α)) (s : PropertyRun α) : Prop :=
  ∀ earlier event t u, earlier ++ [event] <+: events →
    run (step prevents consumers) (idle p) earlier = some t →
    step prevents consumers t event = some u → u.accepted = t.accepted + 1 →
    u.accepted = s.accepted →
      ∀ consumer < consumers, ∀ value, owed t.frames consumer = some value →
        value = u.property.value

variable {p : Property α} {events : List (PropertyEvent α)}

/-- No assignment was accepted, or one was the last. -/
theorem quiet_or_accepted (hrun : run (step prevents consumers) (idle p) events = some s) :
    s.Quiet ∧ s.accepted = 0 ∨
      ∃ earlier event t u, earlier ++ [event] <+: events ∧
        run (step prevents consumers) (idle p) earlier = some t ∧
        step prevents consumers t event = some u ∧ u.accepted = t.accepted + 1 ∧
        u.accepted = s.accepted := by
  induction events using List.reverseRecOn generalizing s with
  | nil =>
      cases hrun
      exact .inl ⟨⟨rfl, fun _ => rfl⟩, rfl⟩
  | append_singleton events event ih =>
      obtain ⟨t, ht, hstep⟩ := run_snoc_inv hrun
      rcases step_cases hstep with hkeeps | haccepts
      · rcases ih ht with ⟨hquiet, hnone⟩ | ⟨earlier, event', u, v, hearlier, hu, hv, hnext, hlast⟩
        · exact .inl ⟨hkeeps.quiet hquiet, hkeeps.accepted.trans hnone⟩
        · refine .inr ⟨earlier, event', u, v, ?_, hu, hv, hnext, ?_⟩
          · exact hearlier.trans (List.prefix_append events [event])
          · exact hlast.trans hkeeps.accepted.symm
      · exact .inr ⟨events, event, t, s, List.prefix_rfl, ht, hstep, haccepts.accepted, rfl⟩

/-- Later states have accepted at least as much. -/
theorem accepted_le_of_step {earlier : List (PropertyEvent α)} {event : PropertyEvent α}
    {u : PropertyRun α} (hearlier : earlier ++ [event] <+: events)
    (hrun : run (step prevents consumers) (idle p) events = some s)
    (ht : run (step prevents consumers) (idle p) earlier = some t)
    (hstep : step prevents consumers t event = some u) : u.accepted ≤ s.accepted := by
  obtain ⟨v, later, hv, -, hlater⟩ := exists_step_of_prefix hearlier hrun ht
  cases hstep.symm.trans hv
  refine EventRun.invariant_of_run (I := fun w => u.accepted ≤ w.accepted) le_rfl hlater ?_
  intro w event' w' hle hnext
  rcases step_cases hnext with hkeeps | haccepts
  · rwa [hkeeps.accepted]
  · rw [haccepts.accepted]
    omega

/-- The last accepted assignment decides what every consumer is left with. -/
theorem outcome_of_accepted (hrun : run (step prevents consumers) (idle p) events = some s)
    {earlier : List (PropertyEvent α)} {event : PropertyEvent α} {u : PropertyRun α}
    (hearlier : earlier ++ [event] <+: events)
    (ht : run (step prevents consumers) (idle p) earlier = some t)
    (hstep : step prevents consumers t event = some u) (hnext : u.accepted = t.accepted + 1)
    (hlast : u.accepted = s.accepted) :
    u.property.value = s.property.value ∧ ∀ consumer < consumers,
      s.outcome consumer = some ((owed t.frames consumer).getD s.property.value) := by
  induction events using List.reverseRecOn generalizing s with
  | nil => exact absurd (List.prefix_nil.mp hearlier) (by simp)
  | append_singleton events event' ih =>
      obtain ⟨v, hv, hstep'⟩ := run_snoc_inv hrun
      rcases List.prefix_concat_iff.mp hearlier with heq | hprefix
      · -- the last step is the accepted assignment
        obtain ⟨rfl, hsame⟩ := List.append_inj' heq rfl
        cases hsame
        cases ht.symm.trans hv
        cases hstep.symm.trans hstep'
        rcases step_cases hstep with hkeeps | haccepts
        · have := hkeeps.accepted
          omega
        · exact ⟨rfl, haccepts.outcome⟩
      · rcases step_cases hstep' with hkeeps | haccepts
        · obtain ⟨hvalue, houtcome⟩ := ih hv hprefix (hlast.trans hkeeps.accepted)
          refine ⟨hvalue.trans hkeeps.value.symm, ?_⟩
          intro consumer hlt
          rw [hkeeps.outcome consumer hlt, houtcome consumer hlt, hkeeps.value]
        · -- an assignment was accepted behind it
          have hle := accepted_le_of_step hprefix hv ht hstep
          have := haccepts.accepted
          omega

end PropertyRun

/-! ## Convergence -/

/-- When the top-level assignment has returned, its consumers have converged exactly if no
open loop owed another value when the last assignment was accepted. -/
theorem converged_iff {α : Type} [DecidableEq α] (prevents consumers : Nat) (p : Property α)
    (events : List (PropertyEvent α)) {s : PropertyRun α}
    (hrun : run (PropertyRun.step prevents consumers) (PropertyRun.idle p) events = some s)
    (hframes : s.frames = []) :
    Converged consumers s ↔ PropertyRun.NothingElseOwed prevents consumers p events s := by
  have hcalled : ∀ consumer, s.outcome consumer = lastCalled s.calls consumer := by
    intro consumer
    rw [PropertyRun.outcome, hframes]
    rfl
  constructor
  · intro hconverged earlier event t u hearlier ht hstep hnext hlast consumer hlt value howed
    obtain ⟨hvalue, houtcome⟩ :=
      PropertyRun.outcome_of_accepted hrun hearlier ht hstep hnext hlast
    have hleft := houtcome consumer hlt
    rw [hcalled, howed, Option.getD_some] at hleft
    rw [hvalue]
    exact hconverged.current consumer hlt value hleft
  · intro hnothing
    rcases PropertyRun.quiet_or_accepted hrun with ⟨⟨hcalls, -⟩, -⟩ | ⟨earlier, event, t, u, h⟩
    · refine ⟨?_, .inl hcalls⟩
      intro consumer _ value hvalue
      rw [hcalls] at hvalue
      cases hvalue
    · obtain ⟨hearlier, ht, hstep, hnext, hlast⟩ := h
      obtain ⟨hvalue, houtcome⟩ :=
        PropertyRun.outcome_of_accepted hrun hearlier ht hstep hnext hlast
      have hleft : ∀ consumer < consumers,
          lastCalled s.calls consumer = some s.property.value := by
        intro consumer hlt
        rw [← hcalled, houtcome consumer hlt]
        cases howed : owed t.frames consumer with
        | none => rfl
        | some value =>
            have hsame := hnothing earlier event t u hearlier ht hstep hnext hlast consumer hlt
              value howed
            rw [Option.getD_some, hsame, hvalue]
      refine ⟨?_, .inr ?_⟩
      · intro consumer hlt value hlastCall
        rw [hleft consumer hlt] at hlastCall
        exact (Option.some.inj hlastCall).symm
      · intro consumer hlt
        rw [hleft consumer hlt]
        rfl

/-- A value that no consumer changes reaches both consumers. -/
theorem converged_iff_two_consumers :
    Converged 2 (⟨⟨some 0, some 1, some 1⟩, true, [], [(0, some 1), (1, some 1)], 1⟩ :
        PropertyRun Nat) ↔
      PropertyRun.NothingElseOwed 0 2 ⟨none, some 0, none⟩
        [.set (some 1), .returned, .returned]
        ⟨⟨some 0, some 1, some 1⟩, true, [], [(0, some 1), (1, some 1)], 1⟩ :=
  converged_iff 0 2 ⟨none, some 0, none⟩ [.set (some 1), .returned, .returned] rfl rfl

/-- The first consumer sets 2 when it is told 1: the second is told 2, and then 1. -/
theorem stale_value_delivered :
    ∃ s, run (PropertyRun.step 0 2) (PropertyRun.idle ⟨none, some 0, none⟩)
        [.set (some 1), .set (some 2), .returned, .returned, .returned, .returned] = some s ∧
      s.frames = [] ∧ s.property.value = some 2 ∧
      s.calls = [(0, some 1), (0, some 2), (1, some 2), (1, some 1)] ∧ ¬ Converged 2 s := by
  refine ⟨_, rfl, rfl, rfl, rfl, fun h => ?_⟩
  have hstale : some 1 = some 2 := h.current 1 (by decide) (some 1) (by decide)
  revert hstale
  decide

end ArtPlatform.Web
