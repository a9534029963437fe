import ArtPlatform.Foundation.Transducer
import Mathlib.Data.List.Induction
import Mathlib.Data.List.ReduceOption
import Mathlib.Logic.Function.Basic
import Mathlib.Tactic.Common

/-!
# Broadcasts to handlers that come and go

A registry has a list of slots for each of its channels.  A handler is put into a new slot, which
is its place, and a handler that is taken off leaves its slot empty.  An event has several
channels, and its delivery loops over the slots of one after the other.  A loop visits the slots
that its channel had when the loop began, and calls the handlers that it finds in them.

A handler that has been called is in control until it returns or throws, and so is the program
when no delivery is under way: they put handlers into slots, take them off, and deliver events,
within which further handlers are called.  A handler that throws ends its delivery.

Main results:

- Theorem `exists_returns`: deliveries whose handlers only return end, and whom they call.
- Theorem `exists_produce_returns`: a new event whose handlers only return.
-/

namespace ArtPlatform.Broadcast

open Function (update)
open Transducer

variable {σ κ η ε : Type}

/-- Where a handler is: its channel, and the number of its slot. -/
abbrev Place (κ : Type) :=
  κ × Nat

abbrev Slots (κ η : Type) :=
  κ → List (Option η)

structure Registry (σ κ η : Type) [DecidableEq κ] where
  slots : σ → Slots κ η
  subscribe : σ → κ → η → σ × Nat
  unsubscribe : σ → κ → Nat → σ
  number_eq (s : σ) (k : κ) (f : η) : (subscribe s k f).2 = (slots s k).length
  slots_subscribe (s : σ) (k : κ) (f : η) :
    slots (subscribe s k f).1 = update (slots s) k (slots s k ++ [some f])
  slots_unsubscribe (s : σ) (k : κ) (i : Nat) :
    ∃ m, slots (unsubscribe s k i) =
      update (slots s) k ((slots s k).set i none ++ List.replicate m none)

/-- A delivery under way: what is left of its loop, and the channels that come behind. -/
structure Delivery (κ : Type) where
  number : Nat
  loop : List (Place κ)
  rest : List κ
deriving DecidableEq, Repr

/-- The registry, and the deliveries under way, the innermost first. -/
structure State (σ κ : Type) where
  registry : σ
  produced : Nat := 0
  stack : List (Delivery κ) := []
deriving DecidableEq, Repr

/-- What a handler does, or the program. -/
inductive Action (κ η ε : Type)
  | subscribe (k : κ) (f : η)
  | unsubscribe (k : κ) (i : Nat)
  | produce (e : ε)
  | returns
  | throws
deriving DecidableEq, Repr

/-- What has happened; an event is known by the number of its production. -/
inductive Mark (κ η ε : Type)
  | subscribed (x : Place κ) (f : η)
  | unsubscribed (x : Place κ)
  | produced (n : Nat) (e : ε)
  /-- the loop has come to a place, and has called the handler there, if there was one -/
  | turn (n : Nat) (x : Place κ) (called : Option η)
  | finished (n : Nat)
  | aborted (n : Nat)
deriving DecidableEq, Repr

/-! ## Deliveries -/

def slot (slots : Slots κ η) (x : Place κ) : Option η :=
  (slots x.1)[x.2]?.join

def places (slots : Slots κ η) (k : κ) : List (Place κ) :=
  (List.range (slots k).length).map (Prod.mk k)

section

variable (slots : Slots κ η) (n : Nat)

/-- A loop as far as the first handler: the turns, and what is left behind a handler. -/
def visit : List (Place κ) → List (Mark κ η ε) × Option (List (Place κ))
  | [] => ([], none)
  | x :: loop =>
      match slot slots x with
      | some f => ([.turn n x (some f)], some loop)
      | none => (.turn n x none :: (visit loop).1, (visit loop).2)

/-- A delivery as far as the first handler, and what is left behind a handler. -/
def resume : List κ → List (Place κ) → List (Mark κ η ε) × Option (Delivery κ)
  | [], loop =>
      match visit slots n loop with
      | (marks, some loop) => (marks, some ⟨n, loop, []⟩)
      | (marks, none) => (marks ++ [.finished n], none)
  | k :: rest, loop =>
      match visit slots n loop with
      | (marks, some loop) => (marks, some ⟨n, loop, k :: rest⟩)
      | (marks, none) =>
          (marks ++ (resume rest (places slots k)).1, (resume rest (places slots k)).2)

end

section

variable [DecidableEq κ] (registry : Registry σ κ η) (channels : ε → List κ)

def step (s : State σ κ) : Action κ η ε → Option (State σ κ × List (Mark κ η ε))
  | .subscribe k f =>
      let (next, i) := registry.subscribe s.registry k f
      some ({ s with registry := next }, [.subscribed (k, i) f])
  | .unsubscribe k i =>
      some ({ s with registry := registry.unsubscribe s.registry k i }, [.unsubscribed (k, i)])
  | .produce e =>
      let (marks, left) := resume (registry.slots s.registry) s.produced (channels e) []
      some ({ s with produced := s.produced + 1, stack := left.toList ++ s.stack },
        .produced s.produced e :: marks)
  | .returns =>
      match s.stack with
      | [] => none
      | d :: stack =>
          let (marks, left) := resume (registry.slots s.registry) d.number d.rest d.loop
          some ({ s with stack := left.toList ++ stack }, marks)
  | .throws =>
      match s.stack with
      | [] => none
      | d :: stack => some ({ s with stack := stack }, [.aborted d.number])

end

/-! ## Handlers that return -/

def Mark.called? : Mark κ η ε → Option η
  | .turn _ _ called => called
  | _ => none

/-- The handlers that were called. -/
def calls (marks : List (Mark κ η ε)) : List η :=
  marks.filterMap Mark.called?

/-- The handlers that a delivery is going to call, if they leave the slots alone. -/
def Delivery.pending (slots : Slots κ η) (d : Delivery κ) : List η :=
  d.loop.filterMap (slot slots) ++ d.rest.flatMap fun k => (slots k).reduceOption

/-- A bound of how many slots and ends are left. -/
def Delivery.weight (slots : Slots κ η) (d : Delivery κ) : Nat :=
  d.loop.length + (d.rest.map fun k => (slots k).length).sum + 1

section

variable {slots : Slots κ η} {n : Nat} {marks : List (Mark κ η ε)}

theorem calls_append (marks l : List (Mark κ η ε)) : calls (marks ++ l) = calls marks ++ calls l :=
  List.filterMap_append

theorem filterMap_places (slots : Slots κ η) (k : κ) :
    (places slots k).filterMap (slot slots) = (slots k).reduceOption := by
  have hall (l : List (Option η)) :
      (List.range l.length).filterMap (fun i => l[i]?.join) = l.reduceOption := by
    induction l using List.reverseRecOn with
    | nil => rfl
    | append_singleton l f ih =>
        rw [List.length_append, List.length_singleton, List.range_succ, List.filterMap_append,
          List.reduceOption_append, ← ih]
        congr 1
        · refine List.filterMap_congr fun i hi => ?_
          rw [List.getElem?_append_left (List.mem_range.mp hi)]
        · cases f <;> simp
  rw [places, List.filterMap_map]
  exact hall (slots k)

theorem visit_spec {loop : List (Place κ)} {left : Option (List (Place κ))}
    (h : visit slots n loop = (marks, left)) :
    calls marks ++ (left.getD []).filterMap (slot slots) = loop.filterMap (slot slots) ∧
      ∀ l ∈ left, l.length < loop.length := by
  induction loop generalizing marks with
  | nil =>
      cases h
      exact ⟨rfl, nofun⟩
  | cons x loop ih =>
      rw [visit] at h
      cases hslot : slot slots x with
      | none =>
          rw [hslot] at h
          cases h
          obtain ⟨hcalls, hlength⟩ := ih rfl
          refine ⟨?_, fun l hl => Nat.lt_succ_of_lt (hlength l hl)⟩
          rw [List.filterMap_cons_none hslot]
          exact hcalls
      | some f =>
          rw [hslot] at h
          cases h
          refine ⟨?_, ?_⟩
          · rw [List.filterMap_cons_some hslot]
            rfl
          · rintro l ⟨⟩
            exact Nat.lt_succ_self _

theorem resume_spec {rest : List κ} {loop : List (Place κ)} {left : Option (Delivery κ)}
    (h : resume slots n rest loop = (marks, left)) :
    calls marks ++ left.toList.flatMap (Delivery.pending slots) =
        Delivery.pending slots ⟨n, loop, rest⟩ ∧
      (left.toList.map (Delivery.weight slots)).sum < Delivery.weight slots ⟨n, loop, rest⟩ := by
  induction rest generalizing loop marks with
  | nil =>
      rw [resume] at h
      split at h
      next turned loop' hvisit =>
        cases h
        obtain ⟨hcalls, hlength⟩ := visit_spec hvisit
        have hshorter := hlength loop' rfl
        refine ⟨by simpa [Delivery.pending] using hcalls, ?_⟩
        simp [Delivery.weight]
        omega
      next turned hvisit =>
        cases h
        obtain ⟨hcalls, -⟩ := visit_spec hvisit
        have hend : calls [(.finished n : Mark κ η ε)] = [] := rfl
        refine ⟨?_, by simp [Delivery.weight]⟩
        rw [calls_append, hend]
        simpa [Delivery.pending] using hcalls
  | cons k rest ih =>
      rw [resume] at h
      split at h
      next turned loop' hvisit =>
        cases h
        obtain ⟨hcalls, hlength⟩ := visit_spec hvisit
        have hshorter := hlength loop' rfl
        refine ⟨?_, ?_⟩
        · simp only [Option.toList_some, List.flatMap_singleton, Delivery.pending]
          rw [← List.append_assoc, ← hcalls]
          rfl
        · simp [Delivery.weight]
          omega
      next turned hvisit =>
        cases h
        obtain ⟨hcalls, -⟩ := visit_spec hvisit
        obtain ⟨hrest, hweight⟩ := @ih _ (places slots k) rfl
        refine ⟨?_, Nat.lt_of_lt_of_le hweight ?_⟩
        · rw [calls_append, List.append_assoc, hrest]
          simp only [Option.getD_none, List.filterMap_nil, List.append_nil] at hcalls
          simp only [Delivery.pending, hcalls, filterMap_places, List.flatMap_cons]
        · simp [Delivery.weight, places]

end

section

variable [DecidableEq κ] (registry : Registry σ κ η) (channels : ε → List κ)

/-- Deliveries whose handlers only return end, the innermost first, and call who is there. -/
theorem exists_returns (r : σ) (produced : Nat) (stack : List (Delivery κ)) :
    ∃ m out, run (step registry channels) ⟨r, produced, stack⟩ (List.replicate m .returns) =
        some (⟨r, produced, []⟩, out) ∧
      calls out = stack.flatMap (Delivery.pending (registry.slots r)) := by
  induction hweight : (stack.map (Delivery.weight (registry.slots r))).sum
    using Nat.strongRecOn generalizing stack with
  | ind weight ih =>
      cases stack with
      | nil => exact ⟨0, [], rfl, rfl⟩
      | cons d stack =>
          obtain ⟨n, loop, rest⟩ := d
          cases hresume : (resume (registry.slots r) n rest loop :
              List (Mark κ η ε) × Option (Delivery κ)) with
          | mk resumed left =>
              obtain ⟨hcalls, hless⟩ := resume_spec hresume
              have hsum : ((left.toList ++ stack).map (Delivery.weight (registry.slots r))).sum <
                  weight := by
                rw [← hweight, List.map_append, List.sum_append, List.map_cons, List.sum_cons]
                exact Nat.add_lt_add_right hless _
              obtain ⟨m, out, hrun, hout⟩ := ih _ hsum _ rfl
              have hstep : step registry channels ⟨r, produced, ⟨n, loop, rest⟩ :: stack⟩ .returns =
                  some (⟨r, produced, left.toList ++ stack⟩, resumed) := by
                simp only [step, hresume]
              refine ⟨m + 1, resumed ++ out, ?_, ?_⟩
              · rw [List.replicate_succ, run_cons hstep, hrun]
                rfl
              · rw [calls_append, hout, List.flatMap_append, ← List.append_assoc, hcalls,
                  List.flatMap_cons]

theorem exists_produce_returns (r : σ) (produced : Nat) (stack : List (Delivery κ)) (e : ε) :
    ∃ m out, run (step registry channels) ⟨r, produced, stack⟩
        (.produce e :: List.replicate m .returns) = some (⟨r, produced + 1, []⟩, out) ∧
      calls out = ((channels e).flatMap fun k => (registry.slots r k).reduceOption) ++
        stack.flatMap (Delivery.pending (registry.slots r)) := by
  cases hresume : (resume (registry.slots r) produced (channels e) [] :
      List (Mark κ η ε) × Option (Delivery κ)) with
  | mk resumed left =>
      obtain ⟨hcalls, -⟩ := resume_spec hresume
      obtain ⟨m, out, hrun, hout⟩ :=
        exists_returns registry channels r (produced + 1) (left.toList ++ stack)
      have hstep : step registry channels ⟨r, produced, stack⟩ (.produce e) =
          some (⟨r, produced + 1, left.toList ++ stack⟩, .produced produced e :: resumed) := by
        simp only [step, hresume]
      refine ⟨m, .produced produced e :: resumed ++ out, ?_, ?_⟩
      · rw [run_cons hstep, hrun]
        rfl
      · have hproduced : calls (.produced produced e :: resumed) = calls resumed := rfl
        rw [calls_append, hproduced, hout, List.flatMap_append, ← List.append_assoc, hcalls]
        rfl

end

end ArtPlatform.Broadcast
