import ArtPlatform.Foundation.EventRun
import Mathlib.Data.List.Nodup
import Mathlib.Logic.Function.Basic

/-!
# The reactive broker

A broker hands each event to its consumers.  The consumers are a list that is copied on
every write, so an emission goes over the consumers that it found at its beginning, in
parallel, and ends when each of them has been given the event.  Subscriptions,
cancellations and emissions of other threads come in between.  A consumer that cancels
takes itself off the list, and drops what it is given afterwards.

Main results:

- Theorem `Delivers.step`: what one step keeps of the consumers and the emissions.
- Theorem `delivered_exactly_once`: each emission reaches each of the consumers that it
  finds exactly once, and nobody else.
- Theorem `delivered_in_order`: emissions that follow one another arrive in their order.
- Theorem `cancelled_before_added`: a consumer that cancels early stays in the list.
-/

namespace ArtPlatform.Broker

open EventRun

variable {ι : Type} [DecidableEq ι]

/-! ## The broker -/

/-- The sinks of the consumers and the emissions under way.  An emission is known by its
number; an emission under way has the sinks that were not given its event yet. -/
structure ReactiveBroker (ι : Type) where
  consumers : List ι := []
  created : List ι := []
  added : List ι := []
  cancelled : List ι := []
  removed : List ι := []
  begun : List Nat := []
  pending : Nat → Option (List ι) := fun _ => none
  received : ι → List Nat := fun _ => []

/-- What a thread does: the two steps of a subscription, those of a cancellation, and those
of an emission. -/
inductive Event (ι : Type)
  | create (i : ι)
  | add (i : ι)
  | cancel (i : ι)
  | remove (i : ι)
  | emit (n : Nat)
  | next (n : Nat) (i : ι)
  | finish (n : Nat)
deriving DecidableEq, Repr

namespace ReactiveBroker

/-- The callback of a cancellation runs once, when the sink is cancelled and knows it. -/
def remove (s : ReactiveBroker ι) (i : ι) : Option (ReactiveBroker ι) :=
  if i ∈ s.created ∧ i ∈ s.cancelled ∧ i ∉ s.removed then
    some { s with consumers := s.consumers.erase i, removed := i :: s.removed }
  else none

/-- The consumers of this moment are those of the emission. -/
def emit (s : ReactiveBroker ι) (n : Nat) : Option (ReactiveBroker ι) :=
  if n ∈ s.begun then none
  else some
    { s with
      begun := n :: s.begun
      pending := Function.update s.pending n (some s.consumers) }

/-- A cancelled sink drops the event. -/
def next (s : ReactiveBroker ι) (n : Nat) (i : ι) : Option (ReactiveBroker ι) :=
  match s.pending n with
  | none => none
  | some sinks =>
      if i ∈ sinks then some
        { s with
          pending := Function.update s.pending n (some (sinks.erase i))
          received :=
            if i ∈ s.cancelled then s.received
            else Function.update s.received i (s.received i ++ [n]) }
      else none

def step (s : ReactiveBroker ι) : Event ι → Option (ReactiveBroker ι)
  | .create i => if i ∈ s.created then none else some { s with created := i :: s.created }
  | .add i =>
      if i ∈ s.created ∧ i ∉ s.added then
        some { s with consumers := s.consumers ++ [i], added := i :: s.added }
      else none
  | .cancel i => if i ∈ s.cancelled then none else some { s with cancelled := i :: s.cancelled }
  | .remove i => s.remove i
  | .emit n => s.emit n
  | .next n i => s.next n i
  | .finish n =>
      if s.pending n = some [] then some { s with pending := Function.update s.pending n none }
      else none

end ReactiveBroker

variable {s t : ReactiveBroker ι} {events : List (Event ι)} {event : Event ι} {n m : Nat} {i : ι}

/-- What a step does when it is not refused. -/
inductive Step (s : ReactiveBroker ι) : Event ι → ReactiveBroker ι → Prop
  | create {i : ι} : i ∉ s.created → Step s (.create i) { s with created := i :: s.created }
  | add {i : ι} : i ∈ s.created → i ∉ s.added →
      Step s (.add i) { s with consumers := s.consumers ++ [i], added := i :: s.added }
  | cancel {i : ι} : i ∉ s.cancelled → Step s (.cancel i) { s with cancelled := i :: s.cancelled }
  | remove {i : ι} : i ∈ s.created → i ∈ s.cancelled → i ∉ s.removed →
      Step s (.remove i) { s with consumers := s.consumers.erase i, removed := i :: s.removed }
  | emit {n : Nat} : n ∉ s.begun →
      Step s (.emit n)
        { s with
          begun := n :: s.begun
          pending := Function.update s.pending n (some s.consumers) }
  | next {n : Nat} {i : ι} {sinks : List ι} : s.pending n = some sinks → i ∈ sinks →
      Step s (.next n i)
        { s with
          pending := Function.update s.pending n (some (sinks.erase i))
          received :=
            if i ∈ s.cancelled then s.received
            else Function.update s.received i (s.received i ++ [n]) }
  | finish {n : Nat} : s.pending n = some [] →
      Step s (.finish n) { s with pending := Function.update s.pending n none }

theorem step_inv (h : s.step event = some t) : Step s event t := by
  cases event with
  | create i =>
      simp only [ReactiveBroker.step, Option.ite_none_left_eq_some, Option.some.injEq] at h
      obtain ⟨hnew, rfl⟩ := h
      exact .create hnew
  | add i =>
      simp only [ReactiveBroker.step, Option.ite_none_right_eq_some, Option.some.injEq] at h
      obtain ⟨⟨hcreated, hnew⟩, rfl⟩ := h
      exact .add hcreated hnew
  | cancel i =>
      simp only [ReactiveBroker.step, Option.ite_none_left_eq_some, Option.some.injEq] at h
      obtain ⟨hopen, rfl⟩ := h
      exact .cancel hopen
  | remove i =>
      simp only [ReactiveBroker.step, ReactiveBroker.remove, Option.ite_none_right_eq_some,
        Option.some.injEq] at h
      obtain ⟨⟨hcreated, hcancelled, hnew⟩, rfl⟩ := h
      exact .remove hcreated hcancelled hnew
  | emit n =>
      simp only [ReactiveBroker.step, ReactiveBroker.emit, Option.ite_none_left_eq_some,
        Option.some.injEq] at h
      obtain ⟨hnew, rfl⟩ := h
      exact .emit hnew
  | next n i =>
      simp only [ReactiveBroker.step, ReactiveBroker.next] at h
      split at h
      · cases h
      next sinks hsinks =>
        simp only [Option.ite_none_right_eq_some, Option.some.injEq] at h
        obtain ⟨hmem, rfl⟩ := h
        exact .next hsinks hmem
  | finish n =>
      simp only [ReactiveBroker.step, Option.ite_none_right_eq_some, Option.some.injEq] at h
      obtain ⟨hdone, rfl⟩ := h
      exact .finish hdone

/-! ## What every step keeps -/

/-- A sink is in the list once at most, and stays there until it is taken off; the sinks
that an emission under way still has to reach have not received it. -/
structure Delivers (s : ReactiveBroker ι) : Prop where
  consumers : s.consumers.Nodup
  added : ∀ i ∈ s.consumers, i ∈ s.added
  kept : ∀ i ∈ s.added, i ∉ s.removed → i ∈ s.consumers
  removed : ∀ i ∈ s.removed, i ∈ s.cancelled
  created : ∀ i ∈ s.added, i ∈ s.created
  pending : ∀ n sinks, s.pending n = some sinks → n ∈ s.begun ∧ sinks.Nodup
  begun : ∀ n i, n ∈ s.received i → n ∈ s.begun
  once : ∀ i, (s.received i).Nodup
  due : ∀ n sinks i, s.pending n = some sinks → i ∈ sinks → n ∉ s.received i

omit [DecidableEq ι] in
theorem delivers_empty : Delivers ({} : ReactiveBroker ι) where
  consumers := List.nodup_nil
  added := fun _ h => absurd h List.not_mem_nil
  kept := fun _ h => absurd h List.not_mem_nil
  removed := fun _ h => absurd h List.not_mem_nil
  created := fun _ h => absurd h List.not_mem_nil
  pending := fun _ _ h => nomatch h
  begun := fun _ _ h => absurd h List.not_mem_nil
  once := fun _ => List.nodup_nil
  due := fun _ _ _ h => nomatch h

theorem Delivers.emit (h : Delivers s) (hstep : s.step (.emit n) = some t) : Delivers t := by
  cases step_inv hstep
  rename_i hnew
  refine
    { consumers := h.consumers, added := h.added, kept := h.kept, removed := h.removed
      created := h.created, once := h.once
      pending := fun m sinks hm => ?_
      begun := fun m i hm => List.mem_cons_of_mem n (h.begun m i hm)
      due := fun m sinks i hm hi => ?_ }
  · dsimp only at hm
    rw [Function.update_apply] at hm
    split at hm
    · rename_i hmn
      cases hm
      exact ⟨hmn ▸ List.mem_cons_self, h.consumers⟩
    · obtain ⟨hbegun, hnodup⟩ := h.pending m sinks hm
      exact ⟨List.mem_cons_of_mem n hbegun, hnodup⟩
  · dsimp only at hm
    rw [Function.update_apply] at hm
    split at hm
    · rename_i hmn
      exact fun hreceived => hnew (hmn ▸ h.begun m i hreceived)
    · exact h.due m sinks i hm hi

/-- Who has received what, behind a sink's turn. -/
theorem mem_received_next {j : ι} (h : s.step (.next n i) = some t) :
    m ∈ t.received j ↔ m ∈ s.received j ∨ m = n ∧ j = i ∧ i ∉ s.cancelled := by
  cases step_inv h
  dsimp only
  split
  · rename_i hcancelled
    simp [hcancelled]
  · rename_i hopen
    rw [Function.update_apply]
    split
    · rename_i hji
      simp [hji, hopen]
    · rename_i hji
      simp [hji]

theorem Delivers.next (h : Delivers s) (hstep : s.step (.next n i) = some t) : Delivers t := by
  have hreceived := fun m j => mem_received_next (m := m) (j := j) hstep
  cases step_inv hstep
  rename_i sinks hsinks hmem
  obtain ⟨hbegun, hnodup⟩ := h.pending n sinks hsinks
  refine
    { consumers := h.consumers, added := h.added, kept := h.kept, removed := h.removed
      created := h.created
      pending := fun m rest hm => ?_
      begun := fun m j hm => ?_
      once := fun j => ?_
      due := fun m rest j hm hj => ?_ }
  · dsimp only at hm
    rw [Function.update_apply] at hm
    split at hm
    · rename_i hmn
      cases hm
      exact ⟨hmn ▸ hbegun, hnodup.erase i⟩
    · exact h.pending m rest hm
  · rcases (hreceived m j).mp hm with hold | ⟨rfl, -, -⟩
    · exact h.begun m j hold
    · exact hbegun
  · dsimp only
    split
    · exact h.once j
    · rw [Function.update_apply]
      split
      · refine (h.once i).append (List.nodup_singleton n) ?_
        exact List.disjoint_singleton.mpr (h.due n sinks i hsinks hmem)
      · exact h.once j
  · intro hboth
    dsimp only at hm
    rw [Function.update_apply] at hm
    split at hm
    · rename_i hmn
      subst hmn
      cases hm
      obtain ⟨hji, hstill⟩ := hnodup.mem_erase_iff.mp hj
      rcases (hreceived m j).mp hboth with hold | ⟨-, heq, -⟩
      · exact h.due m sinks j hsinks hstill hold
      · exact hji heq
    · rename_i hmn
      rcases (hreceived m j).mp hboth with hold | ⟨heq, -, -⟩
      · exact h.due m rest j hm hj hold
      · exact hmn heq

theorem Delivers.step (h : Delivers s) (hstep : s.step event = some t) : Delivers t := by
  cases step_inv hstep with
  | @create i _ =>
      exact { h with created := fun j hj => List.mem_cons_of_mem i (h.created j hj) }
  | @add i hcreated hnew =>
      refine
        { h with
          consumers := ?_
          added := fun j hj => ?_
          kept := fun j hj hstays => ?_
          created := fun j hj => ?_ }
      · refine h.consumers.append (List.nodup_singleton i) (List.disjoint_singleton.mpr ?_)
        exact fun hmem => hnew (h.added i hmem)
      · rcases List.mem_append.mp hj with hold | hlast
        · exact List.mem_cons_of_mem i (h.added j hold)
        · exact List.mem_singleton.mp hlast ▸ List.mem_cons_self
      · rcases List.mem_cons.mp hj with rfl | hold
        · exact List.mem_append_right _ List.mem_cons_self
        · exact List.mem_append_left _ (h.kept j hold hstays)
      · rcases List.mem_cons.mp hj with rfl | hold
        · exact hcreated
        · exact h.created j hold
  | @cancel i _ =>
      exact { h with removed := fun j hj => List.mem_cons_of_mem i (h.removed j hj) }
  | @remove i _ hcancelled _ =>
      refine
        { h with
          consumers := h.consumers.erase i
          added := fun j hj => h.added j (List.mem_of_mem_erase hj)
          kept := fun j hj hstays => ?_
          removed := fun j hj => ?_ }
      · obtain ⟨hji, hold⟩ := not_or.mp (mt List.mem_cons.mpr hstays)
        exact h.consumers.mem_erase_iff.mpr ⟨hji, h.kept j hj hold⟩
      · rcases List.mem_cons.mp hj with rfl | hold
        · exact hcancelled
        · exact h.removed j hold
  | emit _ => exact h.emit hstep
  | next _ _ => exact h.next hstep
  | @finish n _ =>
      have hother : ∀ m sinks, Function.update s.pending n none m = some sinks →
          s.pending m = some sinks := by
        intro m sinks hm
        rw [Function.update_apply] at hm
        split at hm
        · cases hm
        · exact hm
      exact
        { h with
          pending := fun m sinks hm => h.pending m sinks (hother m sinks hm)
          due := fun m sinks j hm => h.due m sinks j (hother m sinks hm) }

theorem delivers_of_run (hrun : run ReactiveBroker.step {} events = some s) : Delivers s :=
  invariant_of_run delivers_empty hrun fun _ _ _ hu hstep => hu.step hstep

/-- The sets of the state are those of the events. -/
structure Recorded (events : List (Event ι)) (s : ReactiveBroker ι) : Prop where
  added : ∀ i, i ∈ s.added ↔ Event.add i ∈ events
  cancelled : ∀ i, i ∈ s.cancelled ↔ Event.cancel i ∈ events
  removed : ∀ i, i ∈ s.removed ↔ Event.remove i ∈ events

theorem Recorded.step (h : Recorded events s) (hstep : s.step event = some t) :
    Recorded (events ++ [event]) t := by
  obtain ⟨hadded, hcancelled, hremoved⟩ := h
  cases step_inv hstep with
  | @create i _ =>
      constructor <;> simpa
  | @add i _ _ =>
      constructor <;> simp [hadded, hcancelled, hremoved, or_comm]
  | @cancel i _ =>
      constructor <;> simp [hadded, hcancelled, hremoved, or_comm]
  | @remove i _ _ _ =>
      constructor <;> simp [hadded, hcancelled, hremoved, or_comm]
  | @emit n _ =>
      constructor <;> simpa
  | @next n i sinks _ _ =>
      constructor <;> simpa
  | @finish n _ =>
      constructor <;> simpa

theorem recorded_of_run (hrun : run ReactiveBroker.step {} events = some s) :
    Recorded events s := by
  induction events using List.reverseRecOn generalizing s with
  | nil =>
      cases hrun
      constructor <;> simp
  | append_singleton events event ih =>
      obtain ⟨u, hu, hstep⟩ := run_snoc_inv hrun
      exact (ih hu).step hstep

/-! ## One emission -/

/-- Where an emission stands that found the consumers of an earlier state: each of them is
due, has received the event or has cancelled, and nobody else gets it. -/
structure Emission (start : ReactiveBroker ι) (n : Nat) (s : ReactiveBroker ι) : Prop where
  begun : n ∈ s.begun
  cancelled : start.cancelled ⊆ s.cancelled
  found : ∀ sinks, s.pending n = some sinks → sinks ⊆ start.consumers
  reached : ∀ i, n ∈ s.received i → i ∈ start.consumers ∧ i ∉ start.cancelled
  due : ∀ i ∈ start.consumers,
    (∃ sinks, s.pending n = some sinks ∧ i ∈ sinks) ∨ n ∈ s.received i ∨ i ∈ s.cancelled

theorem emission_of_emit (h : Delivers s) (hstep : s.step (.emit n) = some t) : Emission s n t := by
  cases step_inv hstep
  rename_i hnew
  refine
    { begun := List.mem_cons_self
      cancelled := List.Subset.refl s.cancelled
      found := fun sinks hsinks => ?_
      reached := fun i hi => absurd (h.begun n i hi) hnew
      due := fun i hi => .inl ⟨s.consumers, Function.update_self .., hi⟩ }
  dsimp only at hsinks
  rw [Function.update_self, Option.some.injEq] at hsinks
  exact hsinks ▸ List.Subset.refl s.consumers

theorem Emission.next {start : ReactiveBroker ι} (h : Emission start n s)
    (hstep : s.step (.next m i) = some t) : Emission start n t := by
  have hreceived := fun j => mem_received_next (m := n) (j := j) hstep
  cases step_inv hstep
  rename_i sinks hsinks hmem
  refine
    { begun := h.begun, cancelled := h.cancelled
      found := fun rest hrest => ?_
      reached := fun j hj => ?_
      due := fun j hj => ?_ }
  · dsimp only at hrest
    rw [Function.update_apply] at hrest
    split at hrest
    · rename_i hnm
      cases hrest
      exact fun x hx => h.found sinks (hnm ▸ hsinks) (List.mem_of_mem_erase hx)
    · exact h.found rest hrest
  · rcases (hreceived j).mp hj with hold | ⟨rfl, rfl, hopen⟩
    · exact h.reached j hold
    · exact ⟨h.found sinks hsinks hmem, fun hcancelled => hopen (h.cancelled hcancelled)⟩
  · rcases h.due j hj with ⟨rest, hrest, hjrest⟩ | hold | hcancelled
    · by_cases hnm : n = m
      · subst hnm
        cases hsinks.symm.trans hrest
        by_cases hji : j = i
        · subst hji
          by_cases hcancelled : j ∈ s.cancelled
          · exact .inr (.inr hcancelled)
          · exact .inr (.inl ((hreceived j).mpr (.inr ⟨rfl, rfl, hcancelled⟩)))
        · refine .inl ⟨sinks.erase i, Function.update_self .., ?_⟩
          exact (List.mem_erase_of_ne hji).mpr hjrest
      · exact .inl ⟨rest, (Function.update_of_ne hnm ..).trans hrest, hjrest⟩
    · exact .inr (.inl ((hreceived j).mpr (.inl hold)))
    · exact .inr (.inr hcancelled)

theorem Emission.step {start : ReactiveBroker ι} (h : Emission start n s)
    (hstep : s.step event = some t) : Emission start n t := by
  cases step_inv hstep with
  | @create i _ =>
      exact { h with }
  | @add i _ _ =>
      exact { h with }
  | @cancel i _ =>
      refine { h with cancelled := List.subset_cons_of_subset i h.cancelled, due := fun j hj => ?_ }
      rcases h.due j hj with hdue | hold | hcancelled
      · exact .inl hdue
      · exact .inr (.inl hold)
      · exact .inr (.inr (List.mem_cons_of_mem i hcancelled))
  | @remove i _ _ _ =>
      exact { h with }
  | @emit m hnew =>
      have hnm : n ≠ m := fun heq => hnew (heq ▸ h.begun)
      have hsame : Function.update s.pending m (some s.consumers) n = s.pending n :=
        Function.update_of_ne hnm ..
      refine { h with begun := List.mem_cons_of_mem m h.begun, found := ?_, due := ?_ }
      · exact fun sinks hsinks => h.found sinks (hsame ▸ hsinks)
      · exact fun j hj => by simpa only [hsame] using h.due j hj
  | next _ _ => exact h.next hstep
  | @finish m hdone =>
      refine { h with found := fun sinks hsinks => ?_, due := fun j hj => ?_ }
      · dsimp only at hsinks
        rw [Function.update_apply] at hsinks
        split at hsinks
        · cases hsinks
        · exact h.found sinks hsinks
      · rcases h.due j hj with ⟨sinks, hsinks, hjsinks⟩ | hreached
        · by_cases hnm : n = m
          · rw [hnm, hdone, Option.some.injEq] at hsinks
            exact absurd hjsinks (hsinks ▸ List.not_mem_nil)
          · exact .inl ⟨sinks, (Function.update_of_ne hnm ..).trans hsinks, hjsinks⟩
        · exact .inr hreached

/-- A run over an emission, cut at its beginning. -/
theorem emission_of_run {earlier later : List (Event ι)}
    (hrun : run ReactiveBroker.step {} (earlier ++ .emit n :: later) = some s) :
    ∃ start, run ReactiveBroker.step {} earlier = some start ∧ Emission start n s := by
  rw [run_append, Option.bind_eq_some_iff] at hrun
  obtain ⟨start, hstart, hlater⟩ := hrun
  simp only [run] at hlater
  split at hlater
  · cases hlater
  next t ht =>
    refine ⟨start, hstart, ?_⟩
    exact invariant_of_run (emission_of_emit (delivers_of_run hstart) ht) hlater
      fun _ _ _ hu hstep => hu.step hstep

/-- When an emission has ended, those it found and did not cancel have received it. -/
theorem received_of_finish {earlier between : List (Event ι)}
    (hrun : run ReactiveBroker.step {}
      (earlier ++ .emit n :: (between ++ [.finish n])) = some s)
    (hadd : .add i ∈ earlier) (hopen : .cancel i ∉ earlier ++ between) : n ∈ s.received i := by
  obtain ⟨start, hstart, hemission⟩ := emission_of_run hrun
  have hrecorded := recorded_of_run hstart
  obtain ⟨hcancel, hcancel'⟩ := not_or.mp (mt List.mem_append.mpr hopen)
  have hnotRemoved : i ∉ start.removed := fun hremoved =>
    hcancel ((hrecorded.cancelled i).mp ((delivers_of_run hstart).removed i hremoved))
  have hfound := (delivers_of_run hstart).kept i ((hrecorded.added i).mpr hadd) hnotRemoved
  rcases hemission.due i hfound with ⟨sinks, hsinks, -⟩ | hreached | hcancelled
  · rw [← List.cons_append, ← List.append_assoc] at hrun
    obtain ⟨u, -, hfinish⟩ := run_snoc_inv hrun
    cases step_inv hfinish
    dsimp only at hsinks
    rw [Function.update_self] at hsinks
    cases hsinks
  · exact hreached
  · have hrecorded' := ((recorded_of_run hrun).cancelled i).mp hcancelled
    simp [hcancel, hcancel'] at hrecorded'

/-! ## What arrives -/

/-- A step gives a sink one event at most, behind those it has received. -/
theorem received_step (hstep : s.step event = some t) (i : ι) :
    t.received i = s.received i ∨
      ∃ n sinks, s.pending n = some sinks ∧ t.received i = s.received i ++ [n] := by
  cases step_inv hstep with
  | @create j _ =>
      exact .inl rfl
  | @add j _ _ =>
      exact .inl rfl
  | @cancel j _ =>
      exact .inl rfl
  | @remove j _ _ _ =>
      exact .inl rfl
  | @emit n _ =>
      exact .inl rfl
  | @next n j sinks hsinks _ =>
      dsimp only
      split
      · exact .inl rfl
      · rw [Function.update_apply]
        split
        · rename_i hij
          exact .inr ⟨n, sinks, hsinks, by rw [hij]⟩
        · exact .inl rfl
  | @finish n _ =>
      exact .inl rfl

theorem received_prefix_of_run (hrun : run ReactiveBroker.step s events = some t) :
    s.received i <+: t.received i := by
  refine invariant_of_run (I := fun u => s.received i <+: u.received i) List.prefix_rfl hrun ?_
  intro u event v hu hstep
  rcases received_step hstep i with hsame | ⟨n, -, -, hmore⟩
  · exact hsame ▸ hu
  · exact hmore ▸ hu.trans (List.prefix_append _ _)

/-- Each emission reaches each of the consumers that it finds exactly once, and nobody else. -/
theorem delivered_exactly_once (earlier later : List (Event ι))
    (hrun : run ReactiveBroker.step {} (earlier ++ .emit n :: later) = some s) (i : ι) :
    (s.received i).count n ≤ 1 ∧
      (n ∈ s.received i → .add i ∈ earlier ∧ .cancel i ∉ earlier) ∧
      ∀ between rest, later = between ++ .finish n :: rest → .add i ∈ earlier →
        .cancel i ∉ earlier ++ between → (s.received i).count n = 1 := by
  have honce := (delivers_of_run hrun).once i
  refine ⟨List.nodup_iff_count_le_one.mp honce n, fun hreceived => ?_, ?_⟩
  · obtain ⟨start, hstart, hemission⟩ := emission_of_run hrun
    obtain ⟨hfound, hopen⟩ := hemission.reached i hreceived
    have hrecorded := recorded_of_run hstart
    refine ⟨(hrecorded.added i).mp ((delivers_of_run hstart).added i hfound), fun hcancel => ?_⟩
    exact hopen ((hrecorded.cancelled i).mpr hcancel)
  · rintro between rest rfl hadd hopen
    refine List.count_eq_one_of_mem honce ?_
    have hcut : earlier ++ .emit n :: (between ++ .finish n :: rest) =
        (earlier ++ .emit n :: (between ++ [.finish n])) ++ rest := by simp
    rw [hcut, run_append, Option.bind_eq_some_iff] at hrun
    obtain ⟨u, hu, hrest⟩ := hrun
    exact (received_prefix_of_run hrest).subset (received_of_finish hu hadd hopen)

/-- Two consumers, of which the second one is in the middle of its subscription. -/
def subscribed : List (Event Nat) := [.create 0, .add 0, .create 1]

theorem delivered_exactly_once_addedInTurn :
    ∃ s, run ReactiveBroker.step {}
        (subscribed ++ .emit 5 :: ([.add 1, .next 5 0] ++ .finish 5 :: [.emit 6])) = some s ∧
      (s.received 0).count 5 = 1 ∧ 5 ∉ s.received 1 := by
  refine ⟨_, rfl, ?_, fun h => ?_⟩
  · exact (delivered_exactly_once subscribed
      ([.add 1, .next 5 0] ++ .finish 5 :: [.emit 6]) rfl 0).2.2 [.add 1, .next 5 0] [.emit 6] rfl
      (by decide) (by decide)
  · exact absurd ((delivered_exactly_once subscribed
      [.add 1, .next 5 0, .finish 5, .emit 6] rfl 1).2.1 h).1 (by decide)

/-- An emission that has ended. -/
structure Ended (m : Nat) (s : ReactiveBroker ι) : Prop where
  begun : m ∈ s.begun
  pending : s.pending m = none

theorem ended_of_finish (h : Delivers s) (hstep : s.step (.finish m) = some t) : Ended m t := by
  cases step_inv hstep
  rename_i hdone
  exact ⟨(h.pending m [] hdone).1, Function.update_self ..⟩

theorem Ended.step (h : Ended m s) (hstep : s.step event = some t) : Ended m t := by
  cases step_inv hstep with
  | @create i _ =>
      exact { h with }
  | @add i _ _ =>
      exact { h with }
  | @cancel i _ =>
      exact { h with }
  | @remove i _ _ _ =>
      exact { h with }
  | @emit n hnew =>
      have hmn : m ≠ n := fun heq => hnew (heq ▸ h.begun)
      exact ⟨List.mem_cons_of_mem n h.begun, (Function.update_of_ne hmn ..).trans h.pending⟩
  | @next n i sinks hsinks _ =>
      have hmn : m ≠ n := fun heq => by simp [← heq, h.pending] at hsinks
      exact ⟨h.begun, (Function.update_of_ne hmn ..).trans h.pending⟩
  | @finish n hdone =>
      have hmn : m ≠ n := fun heq => by simp [← heq, h.pending] at hdone
      exact ⟨h.begun, (Function.update_of_ne hmn ..).trans h.pending⟩

/-- Nobody receives an emission that has ended. -/
theorem Ended.received_of_run (h : Ended m s) (hrun : run ReactiveBroker.step s events = some t)
    (i : ι) : ∃ more, t.received i = s.received i ++ more ∧ m ∉ more := by
  refine (invariant_of_run
    (I := fun u => Ended m u ∧ ∃ more, u.received i = s.received i ++ more ∧ m ∉ more)
    ⟨h, [], (List.append_nil _).symm, List.not_mem_nil⟩ hrun ?_).2
  rintro u event v ⟨hended, more, hmore, hnot⟩ hstep
  refine ⟨hended.step hstep, ?_⟩
  rcases received_step hstep i with hsame | ⟨n, sinks, hsinks, hnext⟩
  · exact ⟨more, hsame.trans hmore, hnot⟩
  · refine ⟨more ++ [n], by rw [hnext, hmore, List.append_assoc], fun hmem => ?_⟩
    rcases List.mem_append.mp hmem with hold | hlast
    · exact hnot hold
    · rw [← List.mem_singleton.mp hlast, hended.pending] at hsinks
      cases hsinks

/-- Emissions that follow one another arrive in their order. -/
theorem delivered_in_order (earlier between later : List (Event ι))
    (hrun : run ReactiveBroker.step {}
      (earlier ++ .finish m :: (between ++ .emit n :: later)) = some s) {i : ι}
    (hm : m ∈ s.received i) (hn : n ∈ s.received i) : List.Sublist [m, n] (s.received i) := by
  have hcut : earlier ++ .finish m :: (between ++ .emit n :: later) =
      (earlier ++ [.finish m]) ++ between ++ .emit n :: later := by simp
  rw [hcut, run_append, Option.bind_eq_some_iff] at hrun
  obtain ⟨u, hu, hlater⟩ := hrun
  have hdelivers := delivers_of_run hu
  rw [run_append, Option.bind_eq_some_iff] at hu
  obtain ⟨v, hv, hbetween⟩ := hu
  obtain ⟨w, hw, hfinish⟩ := run_snoc_inv hv
  have hended : Ended m u :=
    invariant_of_run (ended_of_finish (delivers_of_run hw) hfinish) hbetween
      fun _ _ _ h hstep => h.step hstep
  have hnew : n ∉ u.received i := by
    simp only [run] at hlater
    split at hlater
    · cases hlater
    next x hx =>
      cases step_inv hx
      rename_i hnew
      exact fun h => hnew (hdelivers.begun n i h)
  obtain ⟨more, hmore, hnot⟩ := hended.received_of_run hlater i
  rw [hmore] at hm hn ⊢
  have hfirst := (List.mem_append.mp hm).resolve_right hnot
  have hsecond := (List.mem_append.mp hn).resolve_left hnew
  exact (List.singleton_sublist.mpr hfirst).append (List.singleton_sublist.mpr hsecond)

theorem delivered_in_order_cancelledBehind :
    ∃ s, run ReactiveBroker.step {}
        ((subscribed ++ [.emit 5, .next 5 0]) ++ .finish 5 ::
          ([.add 1] ++ .emit 4 :: [.next 4 1, .next 4 0, .cancel 0, .remove 0])) = some s ∧
      List.Sublist [5, 4] (s.received 0) :=
  ⟨_, rfl, delivered_in_order (subscribed ++ [.emit 5, .next 5 0]) [.add 1]
    [.next 4 1, .next 4 0, .cancel 0, .remove 0] rfl (by decide) (by decide)⟩

/-- A consumer that cancels before it is added stays in the list. -/
theorem cancelled_before_added {earlier later : List (Event ι)}
    (hrun : run ReactiveBroker.step {} (earlier ++ .remove i :: later) = some s)
    (hearly : .add i ∉ earlier) (hadd : .add i ∈ later) : i ∈ s.consumers ∧ i ∈ s.cancelled := by
  have hadded : i ∈ s.added := ((recorded_of_run hrun).added i).mpr (by simp [hadd])
  have hremoved : i ∈ s.removed := ((recorded_of_run hrun).removed i).mpr (by simp)
  refine ⟨?_, (delivers_of_run hrun).removed i hremoved⟩
  rw [← List.singleton_append, ← List.append_assoc, run_append, Option.bind_eq_some_iff] at hrun
  obtain ⟨u, hu, hlater⟩ := hrun
  have hrecorded := recorded_of_run hu
  refine (invariant_of_run
    (I := fun v => i ∈ v.removed ∧ (i ∈ v.added → i ∈ v.consumers))
    ⟨(hrecorded.removed i).mpr (by simp), fun h => ?_⟩ hlater ?_).2 hadded
  · have hboth := (hrecorded.added i).mp h
    simp [hearly] at hboth
  · rintro v event w ⟨hgone, hstays⟩ hstep
    cases step_inv hstep with
    | @create j _ =>
        exact ⟨hgone, hstays⟩
    | @add j _ _ =>
        refine ⟨hgone, fun h => ?_⟩
        rcases List.mem_cons.mp h with rfl | hold
        · exact List.mem_append_right _ List.mem_cons_self
        · exact List.mem_append_left _ (hstays hold)
    | @cancel j _ =>
        exact ⟨hgone, hstays⟩
    | @remove j _ _ hnew =>
        have hij : i ≠ j := fun heq => hnew (heq ▸ hgone)
        refine ⟨List.mem_cons_of_mem j hgone, fun h => ?_⟩
        exact (List.mem_erase_of_ne hij).mpr (hstays h)
    | @emit n _ =>
        exact ⟨hgone, hstays⟩
    | @next n j sinks _ _ =>
        exact ⟨hgone, hstays⟩
    | @finish n _ =>
        exact ⟨hgone, hstays⟩

end ArtPlatform.Broker
