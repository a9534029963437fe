import ArtPlatform.Foundation.EventRun
import ArtPlatform.Web.ChunkedRequest
import Mathlib.Tactic.Common

/-!
# The publisher of the chunks

A chunked request hands its chunks to a subscriber that asks for them by calls of
`request`.  The calls share the array of the chunks and nothing else.  A call delivers a
chunk by `onNext`, and the subscriber may call `request` again before it returns, so calls
are nested; each goes on with its own count when the inner one has returned.

Main results:

- Theorem `publisher_sound_of_run`: in every run the chunks are delivered in order and as asked.
- Theorem `measure_lt_of_proceed`: every call returns.
- Theorem `obeysDemand_of_orderly`: a run of orderly steps obeys the demand all the time.
- Theorem `obeysDemand_iff`: when the completion is signalled once.
- Theorem `obeysDemand_heard`: the signals up to the first completion are always right.
- Theorem `exists_run_request`: a call that no other interrupts.
-/

namespace ArtPlatform.Web

open EventRun

inductive ChunkSignal (α : Type)
  | next (chunk : α)
  | complete
deriving DecidableEq, Repr

/-- The chunks left, the calls of `request` under way with the counts that they have left
(the innermost first), whether the control is with the subscriber, the sum of the numbers
requested so far, and the signals to the subscriber. -/
structure ChunkPublisher (α : Type) where
  chunkValues : List α
  calls : List Nat := []
  atSubscriber : Bool := true
  requested : Nat := 0
  signals : List (ChunkSignal α) := []
deriving DecidableEq, Repr

/-- The subscriber calls `request`, or whoever has the control goes on. -/
inductive PublisherEvent
  | request (count : Nat)
  | proceed
deriving DecidableEq, Repr

variable {α : Type}

namespace ChunkPublisher

def step (s : ChunkPublisher α) : PublisherEvent → Option (ChunkPublisher α)
  | .request count =>
      if s.atSubscriber then
        some { s with
          calls := count :: s.calls, atSubscriber := false, requested := s.requested + count }
      else none
  | .proceed =>
      match s.atSubscriber, s.calls with
      | _, [] => none
      -- `onNext` returns to the innermost call
      | true, _ :: _ => some { s with atSubscriber := false }
      | false, 0 :: calls => some { s with calls := calls, atSubscriber := true }
      | false, (count + 1) :: calls =>
          match s.chunkValues with
          | [] =>
              some { s with
                calls := calls, atSubscriber := true, signals := s.signals ++ [.complete] }
          | next :: chunkValues =>
              some { s with
                chunkValues := chunkValues, calls := count :: calls, atSubscriber := true
                signals := s.signals ++ [.next next] }

def start (chunks : List α) : ChunkPublisher α where
  chunkValues := chunks

end ChunkPublisher

/-- The chunks among the signals. -/
def delivered (signals : List (ChunkSignal α)) : List α :=
  signals.filterMap fun
    | .next chunk => some chunk
    | .complete => none

def completions (signals : List (ChunkSignal α)) : Nat :=
  signals.countP fun
    | .next _ => false
    | .complete => true

/-- The publisher obeys its demand: it delivers a prefix of the chunks, no more than were
requested; when its calls have returned and more than all chunks were requested, it has
delivered all of them and signalled the completion once, behind the last chunk. -/
structure ObeysDemand (chunks : List α) (s : ChunkPublisher α) : Prop where
  inOrder : delivered s.signals <+: chunks
  demanded : (delivered s.signals).length ≤ s.requested
  answered : s.calls = [] → chunks.length < s.requested →
    delivered s.signals = chunks ∧ completions s.signals = 1
  once : completions s.signals ≤ 1
  behindLast : ∀ before rest, s.signals = before ++ .complete :: rest → delivered before = chunks

/-- A step that leaves no second completion to come: a positive number is requested while
chunks are left or no more than all have been requested before, and a call that finds no
chunk for its count is inside calls that have no count left. -/
def Orderly (chunks : List α) (s : ChunkPublisher α) : PublisherEvent → Prop
  | .request count => count = 0 ∨ s.chunkValues ≠ [] ∨ s.requested ≤ chunks.length
  | .proceed =>
      ∀ count calls, s.atSubscriber = false → s.calls = (count + 1) :: calls →
        s.chunkValues = [] → ∀ outer ∈ calls, outer = 0

/-! ## What a step does -/

variable {chunks : List α} {s t : ChunkPublisher α} {event : PublisherEvent}
  {events : List PublisherEvent} {k j : Nat}

theorem step_request_inv {count : Nat} (h : s.step (.request count) = some t) :
    t = { s with
      calls := count :: s.calls, atSubscriber := false, requested := s.requested + count } := by
  simp only [ChunkPublisher.step] at h
  split at h
  · exact (Option.some.inj h).symm
  · cases h

/-- The four ways to go on: the subscriber returns, a call has got its count, finds no
chunk, or delivers one. -/
theorem step_proceed_inv (h : s.step .proceed = some t) :
    (s.calls ≠ [] ∧ s.atSubscriber = true ∧ t = { s with atSubscriber := false }) ∨
    s.atSubscriber = false ∧
      ((∃ calls, s.calls = 0 :: calls ∧ t = { s with calls := calls, atSubscriber := true }) ∨
      (∃ count calls, s.calls = (count + 1) :: calls ∧ s.chunkValues = [] ∧
        t = { s with
          calls := calls, atSubscriber := true, signals := s.signals ++ [.complete] }) ∨
      ∃ count calls next chunkValues, s.calls = (count + 1) :: calls ∧
        s.chunkValues = next :: chunkValues ∧
        t = { s with
          chunkValues := chunkValues, calls := count :: calls, atSubscriber := true
          signals := s.signals ++ [.next next] }) := by
  obtain ⟨chunkValues, calls, atSubscriber, requested, signals⟩ := s
  cases calls with
  | nil => cases atSubscriber <;> cases h
  | cons count calls =>
      cases atSubscriber with
      | true =>
          cases h
          exact .inl ⟨List.cons_ne_nil _ _, rfl, rfl⟩
      | false =>
          cases count with
          | zero =>
              cases h
              exact .inr ⟨rfl, .inl ⟨calls, rfl, rfl⟩⟩
          | succ count =>
              cases chunkValues with
              | nil =>
                  cases h
                  exact .inr ⟨rfl, .inr (.inl ⟨count, calls, rfl, rfl, rfl⟩)⟩
              | cons next chunkValues =>
                  cases h
                  exact .inr ⟨rfl, .inr (.inr ⟨count, calls, next, chunkValues, rfl, rfl, rfl⟩)⟩

/-! ## Every call returns -/

/-- What the calls have left to deliver together. -/
def owing : List Nat → Nat
  | [] => 0
  | count :: calls => count + owing calls

@[simp]
theorem owing_nil : owing [] = 0 :=
  rfl

@[simp]
theorem owing_cons (count : Nat) (calls : List Nat) :
    owing (count :: calls) = count + owing calls :=
  rfl

theorem exists_of_owing_pos {calls : List Nat} (h : 0 < owing calls) :
    ∃ count ∈ calls, 0 < count := by
  induction calls with
  | nil => cases h
  | cons count calls ih =>
      by_cases hcount : count = 0
      · rw [owing_cons, hcount, Nat.zero_add] at h
        obtain ⟨inner, hmem, hpos⟩ := ih h
        exact ⟨inner, List.mem_cons_of_mem count hmem, hpos⟩
      · exact ⟨count, List.mem_cons_self, by omega⟩

/-- A chunk that is still asked for takes two steps, and so does a call. -/
def ChunkPublisher.measure (s : ChunkPublisher α) : Nat :=
  2 * (owing s.calls + s.calls.length) + if s.atSubscriber then 1 else 0

/-- Without new requests the publisher comes to an end. -/
theorem measure_lt_of_proceed (h : s.step .proceed = some t) : t.measure < s.measure := by
  rcases step_proceed_inv h with ⟨-, hat, rfl⟩ | ⟨hat, ⟨calls, hcalls, rfl⟩ |
    ⟨count, calls, hcalls, -, rfl⟩ | ⟨count, calls, next, chunkValues, hcalls, -, rfl⟩⟩
  all_goals
    simp_all [ChunkPublisher.measure]
  all_goals omega

/-- It ends only when every call has returned. -/
theorem exists_step_of_calls (h : s.calls ≠ []) : ∃ t, s.step .proceed = some t := by
  obtain ⟨chunkValues, calls, atSubscriber, requested, signals⟩ := s
  cases calls with
  | nil => exact absurd rfl h
  | cons count calls =>
      cases atSubscriber <;> cases count <;> cases chunkValues <;> exact ⟨_, rfl⟩

/-! ## What holds in every run -/

@[simp]
theorem delivered_append (signals signals' : List (ChunkSignal α)) :
    delivered (signals ++ signals') = delivered signals ++ delivered signals' :=
  List.filterMap_append

@[simp]
theorem completions_append (signals signals' : List (ChunkSignal α)) :
    completions (signals ++ signals') = completions signals + completions signals' :=
  List.countP_append

@[simp]
theorem delivered_next (chunks : List α) : delivered (chunks.map .next) = chunks := by
  simp [delivered, List.filterMap_map]

@[simp]
theorem completions_next (chunks : List α) : completions (chunks.map .next) = 0 := by
  simp [completions]

@[simp]
theorem delivered_complete (j : Nat) :
    delivered (List.replicate j (.complete : ChunkSignal α)) = [] := by
  simp [delivered]

@[simp]
theorem completions_complete (j : Nat) :
    completions (List.replicate j (.complete : ChunkSignal α)) = j := by
  simp [completions, List.countP_replicate]

/-- The publisher has delivered `k` chunks and signalled `j` completions behind them; the
counts of its calls make up what was requested beyond that, as long as it has not
completed. -/
structure Sound (chunks : List α) (k j : Nat) (s : ChunkPublisher α) : Prop where
  left : s.chunkValues = chunks.drop k
  signals : s.signals = (chunks.take k).map .next ++ List.replicate j .complete
  within : k ≤ chunks.length
  demanded : k + owing s.calls ≤ s.requested
  owed : j = 0 → k + owing s.calls = s.requested
  ended : 0 < j → k = chunks.length

theorem Sound.request (h : Sound chunks k j s) (count : Nat) :
    Sound chunks k j { s with
      calls := count :: s.calls, atSubscriber := false, requested := s.requested + count } := by
  refine ⟨h.left, h.signals, h.within, ?_, ?_, h.ended⟩
  · have := h.demanded
    simp only [owing_cons]
    omega
  · intro hj
    have := h.owed hj
    simp only [owing_cons]
    omega

/-- A call that finds no chunk for its count signals a completion. -/
theorem Sound.complete (h : Sound chunks k j s) {count : Nat} {calls : List Nat}
    (hcalls : s.calls = (count + 1) :: calls) (hleft : s.chunkValues = []) :
    Sound chunks k (j + 1) { s with
      calls := calls, atSubscriber := true, signals := s.signals ++ [.complete] } := by
  have hdemanded := h.demanded
  rw [hcalls, owing_cons] at hdemanded
  have hk : chunks.length ≤ k := List.drop_eq_nil_iff.mp (h.left.symm.trans hleft)
  refine ⟨h.left, ?_, h.within, ?_, (fun hj => nomatch hj), fun _ => ?_⟩
  · simp [h.signals, List.replicate_succ']
  · simp only
    omega
  · have := h.within
    omega

/-- A call delivers the next chunk; nothing has been completed before. -/
theorem Sound.deliver (h : Sound chunks k j s) {count : Nat} {calls : List Nat} {next : α}
    {chunkValues : List α} (hcalls : s.calls = (count + 1) :: calls)
    (hleft : s.chunkValues = next :: chunkValues) :
    Sound chunks (k + 1) 0 { s with
      chunkValues := chunkValues, calls := count :: calls, atSubscriber := true
      signals := s.signals ++ [.next next] } := by
  have hdrop : chunks.drop k = next :: chunkValues := h.left.symm.trans hleft
  have hlt : k < chunks.length := by
    have := congrArg List.length hdrop
    simp only [List.length_drop, List.length_cons] at this
    omega
  have hj : j = 0 := by
    by_contra hj
    have := h.ended (by omega)
    omega
  subst hj
  have howed := h.owed rfl
  rw [hcalls, owing_cons] at howed
  rw [List.drop_eq_getElem_cons hlt, List.cons.injEq] at hdrop
  refine ⟨hdrop.2.symm, ?_, hlt, ?_, fun _ => ?_, fun hj => nomatch hj⟩
  · simp [h.signals, List.take_succ_eq_append_getElem hlt, hdrop.1]
  all_goals
    simp only [owing_cons]
    omega

theorem Sound.step (h : Sound chunks k j s) (hstep : s.step event = some t) :
    ∃ k' j', Sound chunks k' j' t := by
  cases event with
  | request count =>
      have ht := step_request_inv hstep
      subst ht
      exact ⟨k, j, h.request count⟩
  | proceed =>
      rcases step_proceed_inv hstep with ⟨-, -, rfl⟩ | ⟨-, ⟨calls, hcalls, rfl⟩ |
        ⟨count, calls, hcalls, hleft, rfl⟩ |
        ⟨count, calls, next, chunkValues, hcalls, hleft, rfl⟩⟩
      · exact ⟨k, j, h.left, h.signals, h.within, h.demanded, h.owed, h.ended⟩
      · have hdemanded := h.demanded
        have howed := h.owed
        rw [hcalls, owing_cons, Nat.zero_add] at hdemanded howed
        exact ⟨k, j, h.left, h.signals, h.within, hdemanded, howed, h.ended⟩
      · exact ⟨k, j + 1, h.complete hcalls hleft⟩
      · exact ⟨k + 1, 0, h.deliver hcalls hleft⟩

theorem sound_start (chunks : List α) : Sound chunks 0 0 (ChunkPublisher.start chunks) where
  left := rfl
  signals := rfl
  within := Nat.zero_le _
  demanded := Nat.le_refl _
  owed := fun _ => rfl
  ended := fun h => nomatch h

/-- In every run the chunks are delivered in order, each once, and as asked. -/
theorem publisher_sound_of_run
    (h : run ChunkPublisher.step (ChunkPublisher.start chunks) events = some s) :
    ∃ k j, Sound chunks k j s := by
  apply EventRun.invariant_of_run ⟨0, 0, sound_start chunks⟩ h
  intro u event v ⟨k, j, hsound⟩ hstep
  exact hsound.step hstep

theorem Sound.delivered (h : Sound chunks k j s) : delivered s.signals = chunks.take k := by
  rw [h.signals, delivered_append, delivered_next, delivered_complete, List.append_nil]

theorem Sound.completions (h : Sound chunks k j s) : completions s.signals = j := by
  rw [h.signals, completions_append, completions_next, completions_complete, Nat.zero_add]

/-- Before a completion, all chunks have been delivered. -/
theorem Sound.delivered_before (h : Sound chunks k j s) {before rest : List (ChunkSignal α)}
    (hsplit : s.signals = before ++ .complete :: rest) : Web.delivered before = chunks := by
  rw [h.signals, List.append_eq_append_iff] at hsplit
  rcases hsplit with ⟨mid, rfl, hmid⟩ | ⟨mid, hmid, hrest⟩
  · -- the completion is one of those behind the chunks
    have hpos : 0 < j := by
      have := congrArg List.length hmid
      simp only [List.length_replicate, List.length_append, List.length_cons] at this
      omega
    have hnone : Web.delivered mid = [] := by
      have := congrArg Web.delivered hmid
      rw [delivered_complete, delivered_append] at this
      exact (List.append_eq_nil_iff.mp this.symm).1
    rw [delivered_append, delivered_next, hnone, h.ended hpos, List.take_length,
      List.append_nil]
  · cases mid with
    | nil =>
        simp only [List.append_nil, List.nil_append] at hmid hrest
        have hpos : 0 < j := by
          have := congrArg List.length hrest
          simp only [List.length_replicate, List.length_cons] at this
          omega
        rw [← hmid, delivered_next, h.ended hpos, List.take_length]
    | cons signal mid =>
        -- a chunk is no completion
        cases hrest
        have hmem : ChunkSignal.complete ∈ (chunks.take k).map ChunkSignal.next := by
          rw [hmid]
          simp
        obtain ⟨_, -, heq⟩ := List.mem_map.mp hmem
        cases heq

/-- A sound publisher with at most one completion obeys its demand. -/
theorem Sound.obeysDemand (h : Sound chunks k j s) (hj : j ≤ 1) : ObeysDemand chunks s := by
  have hdelivered := h.delivered
  have hcompletions := h.completions
  constructor
  · rw [hdelivered]
    exact List.take_prefix k chunks
  · rw [hdelivered, List.length_take]
    have := h.demanded
    omega
  · intro hcalls hmore
    have hone : j = 1 := by
      by_contra hne
      have howed := h.owed (by omega)
      have := h.within
      rw [hcalls, owing_nil] at howed
      omega
    rw [hdelivered, hcompletions, h.ended (by omega), List.take_length]
    exact ⟨rfl, hone⟩
  · rw [hcompletions]
    exact hj
  · exact fun before rest hsplit => h.delivered_before hsplit

/-! ## One completion -/

/-- A completion that was signalled leaves nothing asked for. -/
structure AtMostOnce (chunks : List α) (s : ChunkPublisher α) : Prop where
  once : completions s.signals ≤ 1
  settled : completions s.signals = 1 →
    (∀ count ∈ s.calls, count = 0) ∧ chunks.length < s.requested

theorem AtMostOnce.not_completed {count : Nat} {calls : List Nat} (h : AtMostOnce chunks s)
    (hcalls : s.calls = (count + 1) :: calls) : completions s.signals = 0 := by
  have := h.once
  by_contra hne
  have hzero := (h.settled (by omega)).1 (count + 1) (by rw [hcalls]; exact List.mem_cons_self)
  omega

theorem AtMostOnce.step (h : AtMostOnce chunks s) (hsound : Sound chunks k j s)
    (hok : Orderly chunks s event) (hstep : s.step event = some t) : AtMostOnce chunks t := by
  cases event with
  | request count =>
      have ht := step_request_inv hstep
      subst ht
      refine ⟨h.once, fun hone => ?_⟩
      obtain ⟨hzero, hmore⟩ := h.settled hone
      have hend := hsound.ended (by rw [← hsound.completions]; exact hone ▸ Nat.one_pos)
      have hleft : s.chunkValues = [] := by rw [hsound.left, hend, List.drop_length]
      have hcount : count = 0 := by
        rcases hok with hcount | hne | hle
        · exact hcount
        · exact absurd hleft hne
        · omega
      exact ⟨List.forall_mem_cons.mpr ⟨hcount, hzero⟩, Nat.lt_add_right count hmore⟩
  | proceed =>
      rcases step_proceed_inv hstep with ⟨-, -, rfl⟩ | ⟨hat, ⟨calls, hcalls, rfl⟩ |
        ⟨count, calls, hcalls, hleft, rfl⟩ |
        ⟨count, calls, next, chunkValues, hcalls, hleft, rfl⟩⟩
      · exact ⟨h.once, h.settled⟩
      · refine ⟨h.once, fun hone => ?_⟩
        obtain ⟨hzero, hmore⟩ := h.settled hone
        rw [hcalls] at hzero
        exact ⟨fun outer hmem => hzero outer (List.mem_cons_of_mem 0 hmem), hmore⟩
      · have hnone := h.not_completed hcalls
        have hone : completions (s.signals ++ [.complete]) = 1 := by
          rw [completions_append, hnone]
          rfl
        refine ⟨hone.le, fun _ => ⟨hok count calls hat hcalls hleft, ?_⟩⟩
        have hk : chunks.length ≤ k := List.drop_eq_nil_iff.mp (hsound.left.symm.trans hleft)
        have hdemanded := hsound.demanded
        rw [hcalls, owing_cons] at hdemanded
        simp only
        omega
      · have hnone := h.not_completed hcalls
        have hsame : completions (s.signals ++ [.next next]) = 0 := by
          rw [completions_append, hnone]
          rfl
        refine ⟨by rw [hsame]; exact Nat.zero_le 1, fun hone => ?_⟩
        rw [hsame] at hone
        cases hone

/-! ## More completions -/

/-- The completions that have been signalled, and those that the calls under way will
signal when no chunk is left. -/
def ChunkPublisher.debt (s : ChunkPublisher α) : Nat :=
  completions s.signals + s.calls.countP fun count => 0 < count

/-- When no chunk is left, nothing lowers the number of completions to come. -/
theorem debt_le_of_step (hleft : s.chunkValues = []) (hstep : s.step event = some t) :
    t.chunkValues = [] ∧ s.debt ≤ t.debt := by
  cases event with
  | request count =>
      have ht := step_request_inv hstep
      subst ht
      refine ⟨hleft, ?_⟩
      simp only [ChunkPublisher.debt, List.countP_cons]
      omega
  | proceed =>
      rcases step_proceed_inv hstep with ⟨-, -, rfl⟩ | ⟨-, ⟨calls, hcalls, rfl⟩ |
        ⟨count, calls, hcalls, -, rfl⟩ | ⟨count, calls, next, chunkValues, hcalls, hcons, -⟩⟩
      · exact ⟨hleft, Nat.le_refl _⟩
      · refine ⟨hleft, ?_⟩
        simp [ChunkPublisher.debt, hcalls]
      · refine ⟨hleft, ?_⟩
        have hone : completions [(.complete : ChunkSignal α)] = 1 := rfl
        simp only [ChunkPublisher.debt, hcalls, List.countP_cons, completions_append, hone]
        simp only [Nat.zero_lt_succ, decide_true, if_true]
        omega
      · rw [hleft] at hcons
        cases hcons

theorem debt_le_of_run (hleft : s.chunkValues = [])
    (hrun : run ChunkPublisher.step s events = some t) : s.debt ≤ t.debt := by
  have hkept : t.chunkValues = [] ∧ s.debt ≤ t.debt := by
    apply EventRun.invariant_of_run ⟨hleft, Nat.le_refl _⟩ hrun
    intro u event v ⟨hkept, hle⟩ hstep
    obtain ⟨hkept', hle'⟩ := debt_le_of_step hkept hstep
    exact ⟨hkept', hle.trans hle'⟩
  exact hkept.2

/-- A step that is not orderly leaves a second completion to come. -/
theorem two_le_debt (hsound : Sound chunks k j s) (hbad : ¬ Orderly chunks s event)
    (hstep : s.step event = some t) : t.chunkValues = [] ∧ 2 ≤ t.debt := by
  cases event with
  | request count =>
      have ht := step_request_inv hstep
      subst ht
      simp only [Orderly, not_or, not_not, Nat.not_le] at hbad
      obtain ⟨hcount, hleft, hmore⟩ := hbad
      refine ⟨hleft, ?_⟩
      have hone : 1 ≤ s.debt := by
        by_cases hj : j = 0
        · -- what was requested beyond the chunks is still asked for
          have howed := hsound.owed hj
          have := hsound.within
          have hsum : 0 < owing s.calls := by omega
          obtain ⟨outer, hmem, hpos⟩ := exists_of_owing_pos hsum
          have : 0 < s.calls.countP fun count => 0 < count :=
            List.countP_pos_iff.mpr ⟨outer, hmem, by simpa using hpos⟩
          simp only [ChunkPublisher.debt]
          omega
        · have := hsound.completions
          simp only [ChunkPublisher.debt]
          omega
      simp only [ChunkPublisher.debt, List.countP_cons] at hone ⊢
      rw [if_pos (by simpa using Nat.pos_of_ne_zero hcount)]
      omega
  | proceed =>
      simp only [Orderly, not_forall] at hbad
      obtain ⟨count, calls, hat, hcalls, hleft, outer, hmem, houter⟩ := hbad
      rcases step_proceed_inv hstep with ⟨-, hthere, -⟩ | ⟨-, ⟨calls', hcalls', -⟩ |
        ⟨count', calls', hcalls', -, rfl⟩ | ⟨_, _, next, chunkValues, -, hcons, -⟩⟩
      · rw [hat] at hthere
        cases hthere
      · rw [hcalls] at hcalls'
        cases hcalls'
      · rw [hcalls] at hcalls'
        cases hcalls'
        refine ⟨hleft, ?_⟩
        have hpos : 0 < calls.countP fun count => 0 < count :=
          List.countP_pos_iff.mpr ⟨outer, hmem, by simpa using Nat.pos_of_ne_zero houter⟩
        have hone : completions [(.complete : ChunkSignal α)] = 1 := rfl
        simp only [ChunkPublisher.debt, completions_append, hone]
        omega
      · rw [hleft] at hcons
        cases hcons

/-! ## The demand -/

/-- A run of orderly steps obeys the demand all the time, also while calls are under way. -/
theorem obeysDemand_of_orderly
    (horderly : EachStep ChunkPublisher.step (ChunkPublisher.start chunks) events
      (Orderly chunks)) :
    Always ChunkPublisher.step (ChunkPublisher.start chunks) events (ObeysDemand chunks) := by
  have honce : Always ChunkPublisher.step (ChunkPublisher.start chunks) events fun t =>
      AtMostOnce chunks t ∧ ∃ k j, Sound chunks k j t := by
    refine always_of_eachStep ⟨⟨Nat.zero_le 1, fun h => nomatch h⟩, 0, 0, sound_start chunks⟩
      horderly ?_
    intro u event v ⟨hkept, k, j, hsound⟩ hok hstep
    exact ⟨hkept.step hsound hok hstep, hsound.step hstep⟩
  refine honce.mono ?_
  intro t ⟨hkept, k, j, hsound⟩
  exact hsound.obeysDemand (hsound.completions ▸ hkept.once)

/-- When its calls have returned, the publisher has obeyed its demand all the time exactly
if every step was orderly. -/
theorem obeysDemand_iff (chunks : List α) (events : List PublisherEvent)
    {s : ChunkPublisher α}
    (hrun : run ChunkPublisher.step (ChunkPublisher.start chunks) events = some s)
    (hreturned : s.calls = []) :
    Always ChunkPublisher.step (ChunkPublisher.start chunks) events (ObeysDemand chunks) ↔
      EachStep ChunkPublisher.step (ChunkPublisher.start chunks) events (Orderly chunks) := by
  constructor
  · intro hobeys earlier event t hearlier ht
    by_contra hbad
    obtain ⟨k, j, hsound⟩ := publisher_sound_of_run ht
    obtain ⟨u, later, hstep, -, hlater⟩ := exists_step_of_prefix hearlier hrun ht
    obtain ⟨hleft, hdebt⟩ := two_le_debt hsound hbad hstep
    have hle := debt_le_of_run hleft hlater
    have honce := (hobeys events s List.prefix_rfl hrun).once
    simp only [ChunkPublisher.debt, hreturned, List.countP_nil] at hle hdebt
    omega
  · exact obeysDemand_of_orderly

/-- A request while the last chunk is delivered, and nothing behind it. -/
theorem obeysDemand_iff_nested :
    Always ChunkPublisher.step (ChunkPublisher.start [7])
        [.request 1, .proceed, .request 1, .proceed, .proceed, .proceed] (ObeysDemand [7]) ↔
      EachStep ChunkPublisher.step (ChunkPublisher.start [7])
        [.request 1, .proceed, .request 1, .proceed, .proceed, .proceed] (Orderly [7]) :=
  obeysDemand_iff [7] [.request 1, .proceed, .request 1, .proceed, .proceed, .proceed] rfl rfl

/-- A request behind the end signals the completion again. -/
theorem completion_repeated :
    ∃ s, run ChunkPublisher.step (ChunkPublisher.start [7])
        [.request 2, .proceed, .proceed, .proceed, .request 1, .proceed] = some s ∧
      s.calls = [] ∧ s.signals = [.next 7, .complete, .complete] ∧ ¬ ObeysDemand [7] s := by
  refine ⟨_, rfl, rfl, rfl, fun h => ?_⟩
  have honce := h.once
  revert honce
  decide

/-! ## The first completion -/

/-- What a subscriber hears that takes the first completion for the end. -/
def heard : List (ChunkSignal α) → List (ChunkSignal α)
  | [] => []
  | .next chunk :: signals => .next chunk :: heard signals
  | .complete :: _ => [.complete]

theorem heard_sound (chunks : List α) (j : Nat) :
    heard (chunks.map .next ++ List.replicate j .complete) =
      chunks.map .next ++ List.replicate (min j 1) .complete := by
  induction chunks with
  | nil =>
      cases j with
      | zero => rfl
      | succ j =>
          have hmin : min (j + 1) 1 = 1 := by omega
          rw [hmin]
          rfl
  | cons chunk chunks ih => exact congrArg (ChunkSignal.next chunk :: ·) ih

/-- The signals up to the first completion are as the demand has it, in every run. -/
theorem obeysDemand_heard
    (h : run ChunkPublisher.step (ChunkPublisher.start chunks) events = some s) :
    ObeysDemand chunks { s with signals := heard s.signals } := by
  obtain ⟨k, j, hsound⟩ := publisher_sound_of_run h
  have hheard : Sound chunks k (min j 1) { s with signals := heard s.signals } := by
    constructor
    · exact hsound.left
    · simp only [hsound.signals, heard_sound]
    · exact hsound.within
    · exact hsound.demanded
    · exact fun hj => hsound.owed (by omega)
    · exact fun hj => hsound.ended (by omega)
  exact hheard.obeysDemand (Nat.min_le_right j 1)

/-! ## A call that no other interrupts -/

def ChunkSignal.frame : ChunkSignal PlatformFileChunk → Frame
  | .next chunk => .next chunk
  | .complete => .complete

/-- A call under way that goes on without another one sends what is left of its request. -/
theorem exists_run_call (count : Nat) (calls : List Nat) (requested : Nat)
    (chunkValues : List PlatformFileChunk) (signals : List (ChunkSignal PlatformFileChunk)) :
    ∃ passes sent, sent.map ChunkSignal.frame = (request count chunkValues).1 ∧
      run ChunkPublisher.step ⟨chunkValues, count :: calls, false, requested, signals⟩
        (List.replicate passes .proceed) =
      some ⟨(request count chunkValues).2, calls, true, requested, signals ++ sent⟩ := by
  induction count generalizing chunkValues signals with
  | zero => exact ⟨1, [], rfl, by rw [List.append_nil]; rfl⟩
  | succ count ih =>
      cases chunkValues with
      | nil => exact ⟨1, [.complete], rfl, rfl⟩
      | cons next chunkValues =>
          obtain ⟨passes, sent, hsent, hrun⟩ := ih chunkValues (signals ++ [.next next])
          refine ⟨passes + 2, .next next :: sent, ?_, ?_⟩
          · simp [request, ChunkSignal.frame, hsent]
          · rw [List.append_assoc] at hrun
            exact hrun

/-- A call of `request` that no other interrupts sends what `request` says. -/
theorem exists_run_request {s : ChunkPublisher PlatformFileChunk} (count : Nat)
    (hat : s.atSubscriber = true) :
    ∃ passes sent, sent.map ChunkSignal.frame = (request count s.chunkValues).1 ∧
      run ChunkPublisher.step s (.request count :: List.replicate passes .proceed) =
        some { s with
          chunkValues := (request count s.chunkValues).2
          requested := s.requested + count
          signals := s.signals ++ sent } := by
  obtain ⟨chunkValues, calls, atSubscriber, requested, signals⟩ := s
  subst hat
  exact exists_run_call count calls (requested + count) chunkValues signals

end ArtPlatform.Web
