import ArtPlatform.Foundation.Broadcast
import Mathlib.Data.List.Nodup

/-!
# What broadcasts deliver

The history of a run tells who was put into which place and taken off it, which events were
produced, and the turns of their deliveries.  A delivery comes once to every place that was handed
out before the event was produced, and finds there who is there then.

Main results:

- Theorem `faithful_step`: what a step keeps.
- Theorem `exactlyOnce_run`: what a run delivers to whom.
-/

namespace ArtPlatform.Broadcast

open Function (update)
open Transducer

variable {σ κ η ε : Type}

/-! ## Histories -/

/-- Who is at a place behind a mark. -/
def Mark.apply [DecidableEq κ] (x : Place κ) (f : Option η) : Mark κ η ε → Option η
  | .subscribed y g => if y = x then some g else f
  | .unsubscribed y => if y = x then none else f
  | _ => f

/-- The handler that was put into a place and has not been taken off it. -/
def holder [DecidableEq κ] (marks : List (Mark κ η ε)) (x : Place κ) : Option η :=
  marks.foldl (Mark.apply x) none

def Mark.place? : Mark κ η ε → Option (Place κ)
  | .subscribed x _ => some x
  | _ => none

def Mark.number? : Mark κ η ε → Option Nat
  | .produced n _ => some n
  | _ => none

def Mark.turn? (n : Nat) : Mark κ η ε → Option (Place κ)
  | .turn m x _ => if m = n then some x else none
  | _ => none

/-- The places that were handed out. -/
def handed (marks : List (Mark κ η ε)) : List (Place κ) :=
  marks.filterMap Mark.place?

/-- The numbers of the events. -/
def numbers (marks : List (Mark κ η ε)) : List Nat :=
  marks.filterMap Mark.number?

/-- The turns of an event. -/
def turns (n : Nat) (marks : List (Mark κ η ε)) : List (Place κ) :=
  marks.filterMap (Mark.turn? n)

/-- What a history delivers to whom, and that no one is taken off by another's leaving. -/
structure ExactlyOnce [DecidableEq κ] (channels : ε → List κ) (marks : List (Mark κ η ε)) :
    Prop where
  handed_once : (handed marks).Nodup
  numbers_nodup : (numbers marks).Nodup
  once (n : Nat) : (turns n marks).Nodup
  matching (before : List (Mark κ η ε)) (n : Nat) (x : Place κ) (called : Option η)
    (after : List (Mark κ η ε)) : marks = before ++ .turn n x called :: after →
      ∃ e, .produced n e ∈ before ∧ x.1 ∈ channels e
  called_eq (before : List (Mark κ η ε)) (n : Nat) (x : Place κ) (called : Option η)
    (after : List (Mark κ η ε)) : marks = before ++ .turn n x called :: after →
      called = holder before x
  delivered (before : List (Mark κ η ε)) (n : Nat) (e : ε) (after : List (Mark κ η ε)) :
    marks = before ++ .produced n e :: after → .finished n ∈ after →
      ∀ x f, holder before x = some f → x.1 ∈ channels e →
        ∃ mid called last, after = mid ++ .turn n x called :: last ∧
          (.unsubscribed x ∉ mid → called = some f)
  stays (before : List (Mark κ η ε)) (x : Place κ) (f : η) (after : List (Mark κ η ε)) :
    marks = before ++ .subscribed x f :: after → .unsubscribed x ∉ after →
      holder marks x = some f

section

variable {marks mid : List (Mark κ η ε)} {x : Place κ} {f : η} {n : Nat}

@[simp]
theorem handed_append (marks l : List (Mark κ η ε)) :
    handed (marks ++ l) = handed marks ++ handed l :=
  List.filterMap_append

@[simp]
theorem numbers_append (marks l : List (Mark κ η ε)) :
    numbers (marks ++ l) = numbers marks ++ numbers l :=
  List.filterMap_append

@[simp]
theorem turns_append (n : Nat) (marks l : List (Mark κ η ε)) :
    turns n (marks ++ l) = turns n marks ++ turns n l :=
  List.filterMap_append

theorem mem_numbers : n ∈ numbers marks ↔ ∃ e, .produced n e ∈ marks := by
  rw [numbers, List.mem_filterMap]
  constructor
  · rintro ⟨m, hm, hnumber⟩
    cases m with
    | produced i e =>
        cases hnumber
        exact ⟨e, hm⟩
    | _ => cases hnumber
  · rintro ⟨e, hm⟩
    exact ⟨_, hm, rfl⟩

theorem mem_turns : x ∈ turns n marks ↔ ∃ called, .turn n x called ∈ marks := by
  rw [turns, List.mem_filterMap]
  constructor
  · rintro ⟨m, hm, hturn⟩
    cases m with
    | turn i y called =>
        rw [Mark.turn?, Option.ite_none_right_eq_some] at hturn
        obtain ⟨rfl, heq⟩ := hturn
        cases heq
        exact ⟨called, hm⟩
    | _ => cases hturn
  · rintro ⟨called, hm⟩
    exact ⟨_, hm, if_pos rfl⟩

/-- A place is handed out once. -/
theorem not_handed_again (h : (handed (marks ++ mid)).Nodup) (hx : x ∈ handed marks) :
    x ∉ handed mid := by
  rw [handed_append] at h
  exact List.disjoint_of_nodup_append h hx

variable [DecidableEq κ]

@[simp]
theorem holder_snoc (marks : List (Mark κ η ε)) (m : Mark κ η ε) (x : Place κ) :
    holder (marks ++ [m]) x = m.apply x (holder marks x) := by
  simp [holder]

/-- Who is at a place has been put there. -/
theorem handed_of_holder (h : holder marks x = some f) : x ∈ handed marks := by
  induction marks using List.reverseRecOn with
  | nil => cases h
  | append_singleton marks m ih =>
      rw [holder_snoc] at h
      rw [handed_append, List.mem_append]
      cases m with
      | subscribed y g =>
          by_cases heq : y = x
          · exact .inr (by simp [handed, Mark.place?, heq])
          · exact .inl (ih (by simpa [Mark.apply, heq] using h))
      | unsubscribed y =>
          by_cases heq : y = x
          · simp [Mark.apply, heq] at h
          · exact .inl (ih (by simpa [Mark.apply, heq] using h))
      | _ => exact .inl (ih h)

/-- Who is not taken off a place stays there. -/
theorem holder_append (h : holder marks x = some f) (hnew : x ∉ handed mid)
    (hleft : .unsubscribed x ∉ mid) : holder (marks ++ mid) x = some f := by
  induction mid using List.reverseRecOn with
  | nil => simpa using h
  | append_singleton mid m ih =>
      simp only [handed_append, List.mem_append, not_or] at hnew
      simp only [List.mem_append, List.mem_singleton, not_or] at hleft
      rw [← List.append_assoc, holder_snoc, ih hnew.1 hleft.1]
      cases m with
      | subscribed y g =>
          have hne : y ≠ x := by
            rintro rfl
            exact hnew.2 (by simp [handed, Mark.place?])
          exact if_neg hne
      | unsubscribed y =>
          have hne : y ≠ x := by
            rintro rfl
            exact hleft.2 rfl
          exact if_neg hne
      | _ => rfl

end

/-! ## Splitting a history -/

section

variable {α β : Type} {l before before' after after' : List α} {m y : α}

theorem snoc_eq_append_cons :
    l ++ [m] = before ++ y :: after ↔
      before = l ∧ y = m ∧ after = [] ∨ ∃ rest, after = rest ++ [m] ∧ l = before ++ y :: rest := by
  constructor
  · intro h
    rcases List.eq_nil_or_concat after with rfl | ⟨rest, z, rfl⟩
    · obtain ⟨rfl, heq⟩ := List.append_inj' h rfl
      cases heq
      exact .inl ⟨rfl, rfl, rfl⟩
    · rw [List.concat_eq_append, ← List.cons_append, ← List.append_assoc] at h
      obtain ⟨rfl, heq⟩ := List.append_inj' h rfl
      cases heq
      exact .inr ⟨rest, List.concat_eq_append, rfl⟩
  · rintro (⟨rfl, rfl, rfl⟩ | ⟨rest, rfl, rfl⟩)
    · rfl
    · simp

theorem filterMap_snoc_of_none {read : α → Option β} (h : read m = none) :
    (l ++ [m]).filterMap read = l.filterMap read := by
  rw [List.filterMap_append, List.filterMap_cons_none h, List.filterMap_nil, List.append_nil]

/-- What is read off two places of a list is the same only where they are. -/
theorem append_cons_inj {read : α → Option β} {b : β} (hl : (l.filterMap read).Nodup)
    (h : l = before ++ m :: after) (h' : l = before' ++ y :: after') (hm : read m = some b)
    (hy : read y = some b) : before = before' ∧ m = y ∧ after = after' := by
  subst h
  induction before generalizing before' with
  | nil =>
      cases before' with
      | nil => simpa using h'
      | cons z before' =>
          exfalso
          obtain ⟨rfl, rfl⟩ := List.cons.inj h'
          simp [hm, hy] at hl
  | cons z before ih =>
      cases before' with
      | nil =>
          exfalso
          obtain ⟨rfl, rfl⟩ := List.cons.inj h'
          simp [hm, hy] at hl
      | cons w before' =>
          obtain ⟨rfl, htail⟩ := List.cons.inj h'
          have hrest : ((before ++ m :: after).filterMap read).Nodup := by
            refine List.Nodup.sublist (List.Sublist.filterMap read ?_) hl
            exact List.sublist_cons_self _ _
          obtain ⟨rfl, hsame⟩ := ih hrest htail
          exact ⟨rfl, hsame⟩

end

section

variable {marks : List (Mark κ η ε)} {m : Mark κ η ε} {n : Nat}

theorem handed_snoc_of_none (hm : m.place? = none) : handed (marks ++ [m]) = handed marks :=
  filterMap_snoc_of_none hm

theorem turns_snoc_of_none (hm : m.turn? n = none) : turns n (marks ++ [m]) = turns n marks :=
  filterMap_snoc_of_none hm

theorem numbers_snoc_of_none (hm : m.number? = none) : numbers (marks ++ [m]) = numbers marks :=
  filterMap_snoc_of_none hm

end

/-! ## Slots -/

section

variable {slots : Slots κ η} {x : Place κ} {k : κ}

theorem mem_places : x ∈ places slots k ↔ x.1 = k ∧ x.2 < (slots k).length := by
  obtain ⟨y, i⟩ := x
  simp only [places, List.mem_map, List.mem_range, Prod.mk.injEq]
  constructor
  · rintro ⟨j, hj, rfl, rfl⟩
    exact ⟨rfl, hj⟩
  · rintro ⟨rfl, hi⟩
    exact ⟨i, hi, rfl, rfl⟩

theorem nodup_places (slots : Slots κ η) (k : κ) : (places slots k).Nodup :=
  List.nodup_range.map fun _ _ h => (Prod.mk.inj h).2

variable [DecidableEq κ]

theorem slot_subscribe (slots : Slots κ η) (k : κ) (f : η) (x : Place κ) :
    slot (update slots k (slots k ++ [some f])) x =
      if (k, (slots k).length) = x then some f else slot slots x := by
  obtain ⟨y, i⟩ := x
  simp only [slot, Prod.mk.injEq]
  by_cases hy : k = y
  · subst hy
    rw [Function.update_self, List.getElem?_append]
    rcases Nat.lt_trichotomy i (slots k).length with hi | hi | hi
    · rw [if_pos hi, if_neg (by omega)]
    · simp [hi]
    · rw [if_neg (by omega), if_neg (by omega)]
      simp [show ¬ i - (slots k).length < 1 by omega, Nat.le_of_lt hi]
  · rw [Function.update_of_ne (Ne.symm hy), if_neg fun h => hy h.1]

theorem slot_unsubscribe (slots : Slots κ η) (k : κ) (i m : Nat) (x : Place κ) :
    slot (update slots k ((slots k).set i none ++ List.replicate m none)) x =
      if (k, i) = x then none else slot slots x := by
  obtain ⟨y, j⟩ := x
  simp only [slot, Prod.mk.injEq]
  by_cases hy : k = y
  · subst hy
    rw [Function.update_self, List.getElem?_append, List.length_set]
    by_cases hj : j < (slots k).length
    · rw [if_pos hj, List.getElem?_set]
      by_cases hi : i = j
      · simp [hi, hj]
      · simp [hi]
    · -- Behind the end there were no slots, and the new ones are empty.
      rw [if_neg hj, List.getElem?_replicate]
      simp only [List.getElem?_eq_none (Nat.le_of_not_lt hj)]
      split <;> split <;> rfl
  · rw [Function.update_of_ne (Ne.symm hy), if_neg fun h => hy h.1]

end

/-- The slots are what the history says, and so is what was found in them. -/
structure Kept [DecidableEq κ] (slots : Slots κ η) (marks : List (Mark κ η ε)) : Prop where
  slot_eq (x : Place κ) : slot slots x = holder marks x
  lt_length (x : Place κ) : x ∈ handed marks → x.2 < (slots x.1).length
  handed_once : (handed marks).Nodup
  called_eq (before : List (Mark κ η ε)) (n : Nat) (x : Place κ) (called : Option η)
    (after : List (Mark κ η ε)) : marks = before ++ .turn n x called :: after →
      called = holder before x

section

variable [DecidableEq κ] {slots : Slots κ η} {marks : List (Mark κ η ε)} {m : Mark κ η ε}

/-- A channel loses no slots where its slots are replaced by as many or more. -/
theorem lt_length_update {k : κ} {l : List (Option η)} {x : Place κ}
    (h : x.2 < (slots x.1).length) (hl : (slots k).length ≤ l.length) :
    x.2 < (update slots k l x.1).length := by
  by_cases hk : x.1 = k
  · subst hk
    rw [Function.update_self]
    exact Nat.lt_of_lt_of_le h hl
  · rwa [Function.update_of_ne hk]

theorem Kept.called_eq_snoc (h : Kept slots marks)
    (hm : ∀ n x called, m = .turn n x called → called = holder marks x)
    (before : List (Mark κ η ε)) (n : Nat) (x : Place κ) (called : Option η)
    (after : List (Mark κ η ε)) (hsplit : marks ++ [m] = before ++ .turn n x called :: after) :
    called = holder before x := by
  rcases snoc_eq_append_cons.mp hsplit with ⟨rfl, rfl, -⟩ | ⟨rest, -, hsplit⟩
  · exact hm n x called rfl
  · exact h.called_eq before n x called rest hsplit

theorem Kept.subscribe (h : Kept slots marks) (k : κ) (f : η) :
    Kept (update slots k (slots k ++ [some f]))
      (marks ++ [.subscribed (k, (slots k).length) f]) where
  slot_eq x := by
    rw [slot_subscribe, holder_snoc, h.slot_eq]
    rfl
  lt_length x hx := by
    rw [handed_append, List.mem_append] at hx
    rcases hx with hx | hx
    · exact lt_length_update (h.lt_length x hx) (by simp)
    · rw [List.mem_singleton.mp hx]
      simp
  handed_once := by
    rw [handed_append]
    refine List.nodup_append.mpr ⟨h.handed_once, List.nodup_singleton _, fun x hx y hy => ?_⟩
    rintro rfl
    have hlt := h.lt_length x hx
    rw [List.mem_singleton.mp hy] at hlt
    exact Nat.lt_irrefl _ hlt
  called_eq := h.called_eq_snoc fun _ _ _ hm => nomatch hm

theorem Kept.unsubscribe (h : Kept slots marks) (k : κ) (i m : Nat) :
    Kept (update slots k ((slots k).set i none ++ List.replicate m none))
      (marks ++ [.unsubscribed (k, i)]) where
  slot_eq x := by
    rw [slot_unsubscribe, holder_snoc, h.slot_eq]
    rfl
  lt_length x hx := by
    rw [handed_snoc_of_none rfl] at hx
    exact lt_length_update (h.lt_length x hx) (by simp)
  handed_once := by
    rw [handed_snoc_of_none rfl]
    exact h.handed_once
  called_eq := h.called_eq_snoc fun _ _ _ hm => nomatch hm

/-- A mark that is not about the registry, and the truth if it is a turn. -/
theorem Kept.snoc (h : Kept slots marks) (happly : ∀ x f, m.apply x f = f)
    (hplace : m.place? = none)
    (hturn : ∀ n x called, m = .turn n x called → called = slot slots x) :
    Kept slots (marks ++ [m]) where
  slot_eq x := by rw [holder_snoc, happly, h.slot_eq]
  lt_length x hx := by
    rw [handed_snoc_of_none hplace] at hx
    exact h.lt_length x hx
  handed_once := by
    rw [handed_snoc_of_none hplace]
    exact h.handed_once
  called_eq := h.called_eq_snoc fun n x called hm => (hturn n x called hm).trans (h.slot_eq x)

end

/-! ## Deliveries under way -/

/-- How far the delivery of an event has come, which was produced behind some marks. -/
structure Progress (channels : List κ) (before marks : List (Mark κ η ε)) (d : Delivery κ) :
    Prop where
  nodup : (turns d.number marks ++ d.loop).Nodup
  begun (x : Place κ) : x ∈ turns d.number marks ++ d.loop → x.1 ∈ channels ∧ x.1 ∉ d.rest
  rest_nodup : d.rest.Nodup
  rest_subset : d.rest ⊆ channels
  reached (x : Place κ) : x ∈ handed before → x.1 ∈ channels →
    x ∈ turns d.number marks ++ d.loop ∨ x.1 ∈ d.rest

structure Delivering (channels : ε → List κ) (produced : Nat) (stack : List (Delivery κ))
    (marks : List (Mark κ η ε)) : Prop where
  numbers_eq : numbers marks = List.range produced
  stack_nodup : (stack.map Delivery.number).Nodup
  numbered (d : Delivery κ) : d ∈ stack → d.number ∈ numbers marks
  ended (n : Nat) : n ∈ numbers marks →
    n ∈ stack.map Delivery.number ∨ .finished n ∈ marks ∨ .aborted n ∈ marks
  once (n : Nat) : (turns n marks).Nodup
  matching (before : List (Mark κ η ε)) (n : Nat) (x : Place κ) (called : Option η)
    (after : List (Mark κ η ε)) : marks = before ++ .turn n x called :: after →
      ∃ e, .produced n e ∈ before ∧ x.1 ∈ channels e
  progress (before : List (Mark κ η ε)) (d : Delivery κ) (e : ε) (after : List (Mark κ η ε)) :
    marks = before ++ .produced d.number e :: after → d ∈ stack →
      Progress (channels e) before marks d
  complete (before : List (Mark κ η ε)) (n : Nat) (e : ε) (after : List (Mark κ η ε)) :
    marks = before ++ .produced n e :: after → .finished n ∈ after →
      ∀ x ∈ handed before, x.1 ∈ channels e → x ∈ turns n marks

section

variable {channels : ε → List κ} {produced : Nat} {stack : List (Delivery κ)} {n : Nat}
  {marks before after : List (Mark κ η ε)} {m : Mark κ η ε} {d : Delivery κ} {e : ε}
  {x : Place κ} {loop : List (Place κ)} {k : κ} {rest : List κ}

theorem Progress.congr {marks' : List (Mark κ η ε)} {cs : List κ}
    (h : Progress cs before marks d) (hturns : turns d.number marks' = turns d.number marks) :
    Progress cs before marks' d where
  nodup := hturns ▸ h.nodup
  begun := hturns ▸ h.begun
  rest_nodup := h.rest_nodup
  rest_subset := h.rest_subset
  reached := hturns ▸ h.reached

/-- An event that has had a turn has been produced. -/
theorem Delivering.number_of_turn (h : Delivering channels produced stack marks)
    (hx : x ∈ turns n marks) : n ∈ numbers marks := by
  obtain ⟨called, hturn⟩ := mem_turns.mp hx
  obtain ⟨before, after, rfl⟩ := List.append_of_mem hturn
  obtain ⟨e, hproduced, -⟩ := h.matching before n x called after rfl
  exact mem_numbers.mpr ⟨e, List.mem_append_left _ hproduced⟩

/-- A mark that is no production and no turn; a delivery that finishes has nothing left. -/
theorem Delivering.snoc (h : Delivering channels produced stack marks)
    (hnumber : m.number? = none) (hturn : ∀ i, m.turn? i = none)
    (hfinished : ∀ i, m = .finished i → ⟨i, [], []⟩ ∈ stack) :
    Delivering channels produced stack (marks ++ [m]) where
  numbers_eq := by rw [numbers_snoc_of_none hnumber, h.numbers_eq]
  stack_nodup := h.stack_nodup
  numbered d hd := by
    rw [numbers_snoc_of_none hnumber]
    exact h.numbered d hd
  ended i hi := by
    rw [numbers_snoc_of_none hnumber] at hi
    exact (h.ended i hi).imp_right <|
      .imp (List.mem_append_left [m]) (List.mem_append_left [m])
  once i := by
    rw [turns_snoc_of_none (hturn i)]
    exact h.once i
  matching before i x called after hsplit := by
    rcases snoc_eq_append_cons.mp hsplit with ⟨-, rfl, -⟩ | ⟨rest, -, hsplit⟩
    · simpa [Mark.turn?] using hturn i
    · exact h.matching before i x called rest hsplit
  progress before d e after hsplit hd := by
    rcases snoc_eq_append_cons.mp hsplit with ⟨-, rfl, -⟩ | ⟨rest, -, hsplit⟩
    · cases hnumber
    · exact (h.progress before d e rest hsplit hd).congr (turns_snoc_of_none (hturn d.number))
  complete before i e after hsplit hend x hx hchannel := by
    rw [turns_snoc_of_none (hturn i)]
    rcases snoc_eq_append_cons.mp hsplit with ⟨-, rfl, -⟩ | ⟨rest, rfl, hearlier⟩
    · cases hnumber
    · rcases List.mem_append.mp hend with hend | hend
      · exact h.complete before i e rest hearlier hend x hx hchannel
      · have hd := hfinished i (List.mem_singleton.mp hend).symm
        have hreached := (h.progress before ⟨i, [], []⟩ e rest hearlier hd).reached x hx hchannel
        simpa using hreached

/-- A delivery that has ended leaves the stack. -/
theorem Delivering.pop (h : Delivering channels produced (d :: stack) marks)
    (hend : .finished d.number ∈ marks ∨ .aborted d.number ∈ marks) :
    Delivering channels produced stack marks where
  numbers_eq := h.numbers_eq
  stack_nodup := (List.nodup_cons.mp h.stack_nodup).2
  numbered d' hd' := h.numbered d' (List.mem_cons_of_mem d hd')
  ended i hi := by
    rcases h.ended i hi with hstack | hended
    · rcases List.mem_cons.mp hstack with rfl | hstack
      · exact .inr hend
      · exact .inl hstack
    · exact .inr hended
  once := h.once
  matching := h.matching
  progress before d' e after hsplit hd' :=
    h.progress before d' e after hsplit (List.mem_cons_of_mem d hd')
  complete := h.complete

/-- The delivery of a new event, in front of its loops. -/
theorem Delivering.produce (h : Delivering channels produced stack marks)
    (hchannels : (channels e).Nodup) :
    Delivering channels (produced + 1) (⟨produced, [], channels e⟩ :: stack)
      (marks ++ [.produced produced e]) := by
  have hnew : produced ∉ numbers marks := by
    rw [h.numbers_eq]
    exact List.not_mem_range_self
  have hturns (i : Nat) : turns i (marks ++ [.produced produced e]) = turns i marks :=
    turns_snoc_of_none rfl
  have hnumbers : numbers (marks ++ [.produced produced e]) = numbers marks ++ [produced] :=
    numbers_append marks _
  refine
    { numbers_eq := by rw [hnumbers, h.numbers_eq, List.range_succ]
      stack_nodup := ?_
      numbered := ?_
      ended := ?_
      once := fun i => by
        rw [hturns]
        exact h.once i
      matching := ?_
      progress := ?_
      complete := ?_ }
  · refine List.nodup_cons.mpr ⟨fun hmem => ?_, h.stack_nodup⟩
    obtain ⟨d, hd, heq : d.number = produced⟩ := List.mem_map.mp hmem
    exact hnew (heq ▸ h.numbered d hd)
  · intro d hd
    rw [hnumbers, List.mem_append]
    rcases List.mem_cons.mp hd with rfl | hd
    · exact .inr (List.mem_singleton_self _)
    · exact .inl (h.numbered d hd)
  · intro i hi
    rw [hnumbers, List.mem_append] at hi
    rcases hi with hi | hi
    · rcases h.ended i hi with hstack | hended
      · exact .inl (List.mem_cons_of_mem _ hstack)
      · exact .inr (hended.imp (List.mem_append_left _) (List.mem_append_left _))
    · rw [List.mem_singleton.mp hi]
      exact .inl List.mem_cons_self
  · intro before i x called after hsplit
    rcases snoc_eq_append_cons.mp hsplit with ⟨-, heq, -⟩ | ⟨rest, -, hsplit⟩
    · cases heq
    · exact h.matching before i x called rest hsplit
  · intro before d e' after hsplit hmem
    rcases List.mem_cons.mp hmem with rfl | hd
    · rcases snoc_eq_append_cons.mp hsplit with ⟨rfl, heq, -⟩ | ⟨rest, -, rfl⟩
      · cases heq
        have hnone : turns produced (before ++ [.produced produced e]) = [] := by
          rw [hturns]
          exact List.eq_nil_iff_forall_not_mem.mpr fun x hx => hnew (h.number_of_turn hx)
        exact
          { nodup := by simp [hnone]
            begun := by simp [hnone]
            rest_nodup := hchannels
            rest_subset := List.Subset.refl _
            reached := fun _ _ hchannel => .inr hchannel }
      · exact absurd (mem_numbers.mpr ⟨e', by simp⟩) hnew
    · rcases snoc_eq_append_cons.mp hsplit with ⟨-, heq, -⟩ | ⟨rest, -, hsplit⟩
      · cases heq
        exact absurd (h.numbered d hd) hnew
      · exact (h.progress before d e' rest hsplit hd).congr (hturns d.number)
  · intro before i e' after hsplit hend x hx hchannel
    rw [hturns]
    rcases snoc_eq_append_cons.mp hsplit with ⟨-, -, rfl⟩ | ⟨rest, rfl, hearlier⟩
    · cases hend
    · have hfinished : .finished i ∈ rest := by simpa using hend
      exact h.complete before i e' rest hearlier hfinished x hx hchannel

/-- The turn of the next place of the innermost loop. -/
theorem Delivering.turn
    (h : Delivering channels produced (⟨n, x :: loop, rest⟩ :: stack) marks) (called : Option η) :
    Delivering channels produced (⟨n, loop, rest⟩ :: stack) (marks ++ [.turn n x called]) := by
  have hturns : turns n (marks ++ [.turn n x called]) = turns n marks ++ [x] := by
    rw [turns_append]
    simp [turns, Mark.turn?]
  have hothers (i : Nat) (hi : i ≠ n) :
      turns i (marks ++ [.turn n x called]) = turns i marks :=
    turns_snoc_of_none (if_neg (Ne.symm hi))
  have hnumbers : numbers (marks ++ [.turn n x called]) = numbers marks :=
    numbers_snoc_of_none rfl
  have htop := List.mem_cons_self (a := (⟨n, x :: loop, rest⟩ : Delivery κ)) (l := stack)
  obtain ⟨e, hproduced⟩ := mem_numbers.mp (h.numbered _ htop)
  obtain ⟨front, back, hfront⟩ := List.append_of_mem hproduced
  have hprogress := h.progress front ⟨n, x :: loop, rest⟩ e back hfront htop
  refine
    { numbers_eq := by rw [hnumbers, h.numbers_eq]
      stack_nodup := h.stack_nodup
      numbered := ?_
      ended := ?_
      once := ?_
      matching := ?_
      progress := ?_
      complete := ?_ }
  · intro d hd
    rw [hnumbers]
    rcases List.mem_cons.mp hd with rfl | hd
    · exact h.numbered ⟨n, x :: loop, rest⟩ htop
    · exact h.numbered d (List.mem_cons_of_mem _ hd)
  · intro i hi
    rw [hnumbers] at hi
    exact (h.ended i hi).imp_right <| .imp (List.mem_append_left _) (List.mem_append_left _)
  · intro i
    by_cases hi : i = n
    · rw [hi, hturns]
      refine hprogress.nodup.sublist (List.Sublist.append_left ?_ _)
      exact (List.nil_sublist loop).cons_cons x
    · rw [hothers i hi]
      exact h.once i
  · intro before i y called' after hsplit
    rcases snoc_eq_append_cons.mp hsplit with ⟨rfl, heq, -⟩ | ⟨rest', -, hsplit⟩
    · cases heq
      exact ⟨e, hproduced, (hprogress.begun x (by simp)).1⟩
    · exact h.matching before i y called' rest' hsplit
  · intro before d e' after hsplit hmem
    rcases snoc_eq_append_cons.mp hsplit with ⟨-, heq, -⟩ | ⟨rest', -, hsplit⟩
    · cases heq
    rcases List.mem_cons.mp hmem with rfl | hd
    · -- The place has gone from the loop to the turns.
      have hold := h.progress before ⟨n, x :: loop, rest⟩ e' rest' hsplit htop
      have hsame : turns n (marks ++ [.turn n x called]) ++ loop =
          turns n marks ++ x :: loop := by
        rw [hturns, List.append_assoc, List.singleton_append]
      exact
        { nodup := hsame ▸ hold.nodup
          begun := hsame ▸ hold.begun
          rest_nodup := hold.rest_nodup
          rest_subset := hold.rest_subset
          reached := hsame ▸ hold.reached }
    · have hnumber : d.number ∈ stack.map Delivery.number := List.mem_map_of_mem hd
      have hne : d.number ≠ n := by
        rintro rfl
        exact (List.nodup_cons.mp h.stack_nodup).1 hnumber
      exact (h.progress before d e' rest' hsplit (List.mem_cons_of_mem _ hd)).congr
        (hothers d.number hne)
  · intro before i e' after hsplit hend y hy hchannel
    rcases snoc_eq_append_cons.mp hsplit with ⟨-, heq, -⟩ | ⟨rest', rfl, hearlier⟩
    · cases heq
    · have hfinished : .finished i ∈ rest' := by simpa using hend
      rw [turns_append]
      exact List.mem_append_left _ (h.complete before i e' rest' hearlier hfinished y hy hchannel)

/-- The next loop begins, with all slots of its channel. -/
theorem Delivering.next [DecidableEq κ] {slots : Slots κ η} (hkept : Kept slots marks)
    (h : Delivering channels produced (⟨n, [], k :: rest⟩ :: stack) marks) :
    Delivering channels produced (⟨n, places slots k, rest⟩ :: stack) marks where
  numbers_eq := h.numbers_eq
  stack_nodup := h.stack_nodup
  numbered d hd := by
    rcases List.mem_cons.mp hd with rfl | hd
    · exact h.numbered ⟨n, [], k :: rest⟩ List.mem_cons_self
    · exact h.numbered d (List.mem_cons_of_mem _ hd)
  ended := h.ended
  once := h.once
  matching := h.matching
  progress before d e after hsplit hd := by
    rcases List.mem_cons.mp hd with rfl | hd
    · have hold := h.progress before ⟨n, [], k :: rest⟩ e after hsplit List.mem_cons_self
      have hbegun (x : Place κ) (hx : x ∈ turns n marks) :=
        hold.begun x (List.mem_append_left _ hx)
      refine
        { nodup := ?_
          begun := ?_
          rest_nodup := (List.nodup_cons.mp hold.rest_nodup).2
          rest_subset := fun c hc => hold.rest_subset (List.mem_cons_of_mem k hc)
          reached := ?_ }
      · refine List.nodup_append.mpr ⟨h.once n, nodup_places slots k, fun x hx y hy => ?_⟩
        rintro rfl
        exact (hbegun x hx).2 ((mem_places.mp hy).1 ▸ List.mem_cons_self)
      · intro x hx
        rcases List.mem_append.mp hx with hx | hx
        · obtain ⟨hchannel, hrest⟩ := hbegun x hx
          exact ⟨hchannel, fun hmem => hrest (List.mem_cons_of_mem k hmem)⟩
        · rw [(mem_places.mp hx).1]
          exact ⟨hold.rest_subset List.mem_cons_self, (List.nodup_cons.mp hold.rest_nodup).1⟩
      · intro x hx hchannel
        rcases hold.reached x hx hchannel with hturn | hrest
        · rw [List.append_nil] at hturn
          exact .inl (List.mem_append_left _ hturn)
        rcases List.mem_cons.mp hrest with hk | hrest
        · have hearlier : x ∈ handed marks := by
            rw [hsplit, handed_append]
            exact List.mem_append_left _ hx
          have hlt := hkept.lt_length x hearlier
          exact .inl (List.mem_append_right _ (mem_places.mpr ⟨hk, hk ▸ hlt⟩))
        · exact .inr hrest
    · exact h.progress before d e after hsplit (List.mem_cons_of_mem _ hd)
  complete := h.complete

end

/-! ## Runs -/

section

variable {slots : Slots κ η} {n : Nat}

/-- What turns keep, a loop keeps as far as its next handler or its end. -/
theorem visit_keeps {I : List (Delivery κ) → List (Mark κ η ε) → Prop}
    {stack : List (Delivery κ)} {rest : List κ}
    (hturn : ∀ x loop marks, I (⟨n, x :: loop, rest⟩ :: stack) marks →
      I (⟨n, loop, rest⟩ :: stack) (marks ++ [.turn n x (slot slots x)]))
    (loop : List (Place κ)) {marks turned : List (Mark κ η ε)} {left : Option (List (Place κ))}
    (h : I (⟨n, loop, rest⟩ :: stack) marks) (hvisit : visit slots n loop = (turned, left)) :
    I (⟨n, left.getD [], rest⟩ :: stack) (marks ++ turned) := by
  induction loop generalizing marks turned with
  | nil =>
      cases hvisit
      rwa [List.append_nil]
  | cons x loop ih =>
      have hx := hturn x loop marks h
      rw [visit] at hvisit
      cases hslot : slot slots x with
      | none =>
          rw [hslot] at hx hvisit
          cases hvisit
          have hrest := ih hx rfl
          rwa [List.append_assoc] at hrest
      | some f =>
          rw [hslot] at hx hvisit
          cases hvisit
          exact hx

/-- What turns, the beginnings of loops and the end keep, a delivery keeps that is resumed. -/
theorem resume_keeps {I : List (Delivery κ) → List (Mark κ η ε) → Prop}
    {stack : List (Delivery κ)}
    (hturn : ∀ x loop rest marks, I (⟨n, x :: loop, rest⟩ :: stack) marks →
      I (⟨n, loop, rest⟩ :: stack) (marks ++ [.turn n x (slot slots x)]))
    (hnext : ∀ k rest marks, I (⟨n, [], k :: rest⟩ :: stack) marks →
      I (⟨n, places slots k, rest⟩ :: stack) marks)
    (hfinish : ∀ marks, I (⟨n, [], []⟩ :: stack) marks →
      I stack (marks ++ [.finished n]))
    (rest : List κ) (loop : List (Place κ)) {marks resumed : List (Mark κ η ε)}
    {left : Option (Delivery κ)} (h : I (⟨n, loop, rest⟩ :: stack) marks)
    (hresume : resume slots n rest loop = (resumed, left)) :
    I (left.toList ++ stack) (marks ++ resumed) := by
  induction rest generalizing loop marks resumed with
  | nil =>
      have hvisited := visit_keeps (fun x loop marks => hturn x loop [] marks) loop h rfl
      rw [resume] at hresume
      split at hresume
      next turned loop' hvisit =>
        cases hresume
        rwa [hvisit] at hvisited
      next turned hvisit =>
        cases hresume
        rw [hvisit] at hvisited
        rw [← List.append_assoc]
        exact hfinish _ hvisited
  | cons k rest ih =>
      have hvisited := visit_keeps (fun x loop marks => hturn x loop (k :: rest) marks) loop h rfl
      rw [resume] at hresume
      split at hresume
      next turned loop' hvisit =>
        cases hresume
        rwa [hvisit] at hvisited
      next turned hvisit =>
        cases hresume
        rw [hvisit] at hvisited
        rw [← List.append_assoc]
        exact ih (places slots k) (hnext k rest _ hvisited) rfl

end

section

variable [DecidableEq κ] {registry : Registry σ κ η} {channels : ε → List κ} {s t : State σ κ}
  {marks before out : List (Mark κ η ε)} {actions : List (Action κ η ε)}

/-- The registry and the deliveries under way are as the history says. -/
structure Faithful (registry : Registry σ κ η) (channels : ε → List κ) (s : State σ κ)
    (marks : List (Mark κ η ε)) : Prop where
  kept : Kept (registry.slots s.registry) marks
  delivering : Delivering channels s.produced s.stack marks

/-- A delivery that is resumed in front of others. -/
theorem Faithful.resume {r : σ} {produced n : Nat} {stack : List (Delivery κ)} {rest : List κ}
    {loop : List (Place κ)} {resumed : List (Mark κ η ε)} {left : Option (Delivery κ)}
    (h : Faithful registry channels ⟨r, produced, ⟨n, loop, rest⟩ :: stack⟩ marks)
    (hresume : resume (registry.slots r) n rest loop = (resumed, left)) :
    Faithful registry channels ⟨r, produced, left.toList ++ stack⟩ (marks ++ resumed) := by
  refine resume_keeps
    (I := fun stack marks => Faithful registry channels ⟨r, produced, stack⟩ marks)
    ?_ ?_ ?_ rest loop h hresume
  · intro x loop rest marks h
    refine ⟨h.kept.snoc (fun _ _ => rfl) rfl fun i y called heq => ?_, h.delivering.turn _⟩
    cases heq
    rfl
  · intro k rest marks h
    exact ⟨h.kept, h.delivering.next h.kept⟩
  · intro marks h
    refine ⟨h.kept.snoc (fun _ _ => rfl) rfl (fun _ _ _ heq => nomatch heq), ?_⟩
    have hsnoc := h.delivering.snoc (m := .finished n) rfl (fun _ => rfl) fun i heq => by
      cases heq
      exact List.mem_cons_self
    exact hsnoc.pop (.inl (List.mem_append_right _ (List.mem_singleton_self _)))

theorem faithful_step (hchannels : ∀ e, (channels e).Nodup) {a : Action κ η ε}
    (h : Faithful registry channels s before) (hstep : step registry channels s a = some (t, out)) :
    Faithful registry channels t (before ++ out) := by
  obtain ⟨r, produced, stack⟩ := s
  cases a with
  | subscribe k f =>
      cases hstep
      refine ⟨?_, h.delivering.snoc rfl (fun _ => rfl) fun _ heq => nomatch heq⟩
      rw [registry.number_eq, registry.slots_subscribe]
      exact h.kept.subscribe k f
  | unsubscribe k i =>
      cases hstep
      refine ⟨?_, h.delivering.snoc rfl (fun _ => rfl) fun _ heq => nomatch heq⟩
      obtain ⟨m, hslots⟩ := registry.slots_unsubscribe r k i
      rw [hslots]
      exact h.kept.unsubscribe k i m
  | produce e =>
      cases hstep
      rw [List.append_cons]
      refine Faithful.resume ⟨?_, h.delivering.produce (hchannels e)⟩ rfl
      exact h.kept.snoc (fun _ _ => rfl) rfl fun _ _ _ heq => nomatch heq
  | returns =>
      cases stack with
      | nil => cases hstep
      | cons d stack =>
          cases hstep
          exact Faithful.resume h rfl
  | throws =>
      cases stack with
      | nil => cases hstep
      | cons d stack =>
          cases hstep
          refine ⟨h.kept.snoc (fun _ _ => rfl) rfl (fun _ _ _ heq => nomatch heq), ?_⟩
          have hsnoc := h.delivering.snoc (m := .aborted d.number) rfl (fun _ => rfl)
            fun _ heq => nomatch heq
          exact hsnoc.pop (.inr (List.mem_append_right _ (List.mem_singleton_self _)))

theorem Faithful.exactlyOnce (h : Faithful registry channels s marks) :
    ExactlyOnce channels marks where
  handed_once := h.kept.handed_once
  numbers_nodup := h.delivering.numbers_eq ▸ List.nodup_range
  once := h.delivering.once
  matching := h.delivering.matching
  called_eq := h.kept.called_eq
  delivered before n e after hsplit hend x f hholder hchannel := by
    have hx := handed_of_holder hholder
    have hturns := h.delivering.complete before n e after hsplit hend x hx hchannel
    obtain ⟨called, hturn⟩ := mem_turns.mp hturns
    obtain ⟨front, last, hfront⟩ := List.append_of_mem hturn
    obtain ⟨e', hproduced, -⟩ := h.delivering.matching front n x called last hfront
    obtain ⟨before', mid, rfl⟩ := List.append_of_mem hproduced
    -- The turn is behind the production, of which there is one only.
    have hnumbers : (marks.filterMap Mark.number?).Nodup := by
      rw [← numbers, h.delivering.numbers_eq]
      exact List.nodup_range
    have hsplit' : marks = before' ++ .produced n e' :: (mid ++ .turn n x called :: last) := by
      rw [hfront, List.append_assoc, List.cons_append]
    obtain ⟨rfl, hproduction, rfl⟩ := append_cons_inj hnumbers hsplit hsplit' rfl rfl
    refine ⟨mid, called, last, rfl, fun hleft => ?_⟩
    have honce := h.kept.handed_once
    rw [hfront, handed_append] at honce
    have hnew := not_handed_again honce.of_append_left hx
    rw [h.kept.called_eq _ n x called last hfront]
    exact holder_append hholder hnew (by simpa using hleft)
  stays before x f after hsplit hleft := by
    have honce := h.kept.handed_once
    rw [List.append_cons] at hsplit
    rw [hsplit] at honce ⊢
    have hholder : holder (before ++ [.subscribed x f]) x = some f := by
      rw [holder_snoc]
      exact if_pos rfl
    exact holder_append hholder (not_handed_again honce (handed_of_holder hholder)) hleft

theorem exactlyOnce_run {r : σ} (hchannels : ∀ e, (channels e).Nodup)
    (hempty : ∀ k, registry.slots r k = [])
    (h : run (step registry channels) ⟨r, 0, []⟩ actions = some (t, marks)) :
    ExactlyOnce channels marks ∧
      (∀ x, slot (registry.slots t.registry) x = holder marks x) ∧
      ∀ n ∈ numbers marks,
        n ∈ t.stack.map Delivery.number ∨ .finished n ∈ marks ∨ .aborted n ∈ marks := by
  have hfirst : Faithful registry channels ⟨r, 0, []⟩ ([] : List (Mark κ η ε)) := by
    refine ⟨⟨fun x => ?_, nofun, List.nodup_nil, fun before => ?_⟩, ?_⟩
    · simp [slot, hempty, holder]
    · simp
    · refine ⟨rfl, List.nodup_nil, nofun, nofun, fun _ => List.nodup_nil, fun before => ?_,
        fun before => ?_, fun before => ?_⟩ <;> simp
  have hlast := history_run (fun s a t first before hs hstep => faithful_step hchannels hs hstep)
    hfirst h
  rw [List.nil_append] at hlast
  exact ⟨hlast.exactlyOnce, hlast.kept.slot_eq, hlast.delivering.ended⟩

end

end ArtPlatform.Broadcast
