import ArtPlatform.Foundation.Interleaving
import Mathlib.Algebra.Group.Int.Defs
import Mathlib.Algebra.Group.Nat.Defs

/-!
# Chunked streams under concurrency

Elements of a chunked stream are processed by several threads.  Each of them takes the counter
down, and the one that finds half of the number of chunks adds the number to the counter and then
requests as many elements.  The threads share the counter, a number of 32 bits, and their actions
mix in any order.

Main results:

- Theorem `kept_of_chunkedStep`: what an action keeps.
- Theorem `chunked_flow`: the counter, the requests and the outstanding demand in every run.
- Theorem `demand_falls_to_zero`: an element that is the last of its chunk.
-/

namespace ArtPlatform

open Interleaving

/-- A number as an `AtomicInteger` has it. -/
def int32 (x : Int) : Int :=
  x.bmod (2 ^ 32)

/-- The counter, and what has been requested and consumed, which no action depends on. -/
structure ChunkedFlow where
  chunksCounter : Int
  requested : Nat
  consumed : Nat := 0
  /-- how often the demand has come down to the half of the chunk -/
  crossings : Nat := 0
deriving DecidableEq, Repr

/-- What is left of the processing of an element. -/
inductive ChunkedTask
  | decrementAndGet
  | addAndGet
  | request
deriving DecidableEq, Repr

namespace ChunkedFlow

/-- The outstanding demand. -/
def demand (s : ChunkedFlow) : Int :=
  s.requested - s.consumed

/-- The next element takes the demand over the threshold. -/
def crosses (count : Nat) (s : ChunkedFlow) : Bool :=
  ((count / 2 : Nat) : Int) < s.demand && s.demand - 1 ≤ ((count / 2 : Nat) : Int)

def consume (count : Nat) (s : ChunkedFlow) : ChunkedFlow where
  chunksCounter := int32 (s.chunksCounter - 1)
  requested := s.requested
  consumed := s.consumed + 1
  crossings := s.crossings + if s.crosses count then 1 else 0

end ChunkedFlow

/-- `doOnNext` of `chunked(chunksCount)`, and `requester.request()` of `chunked(requester)` with
the count of the requester. -/
def ChunkedTask.step (count : Nat) : Actions ChunkedFlow ChunkedTask Unit
  | .decrementAndGet, (), s =>
      let next := s.consume count
      some (next, if next.chunksCounter = ((count / 2 : Nat) : Int) then [.addAndGet] else [])
  | .addAndGet, (), s =>
      some ({ s with chunksCounter := int32 (s.chunksCounter + count) }, [.request])
  | .request, (), s => some ({ s with requested := s.requested + count }, [])

/-- `doOnSubscribe`, before any element. -/
def subscribed (count : Nat) : Config ChunkedFlow ChunkedTask :=
  ⟨{ chunksCounter := int32 count, requested := count }, []⟩

/-- Elements arrive at any time; no more of them are consumed than were requested. -/
def Demanded (c : Config ChunkedFlow ChunkedTask) : Label ChunkedTask Unit → Prop
  | .call t => t = .decrementAndGet
  | .act .decrementAndGet _ => c.shared.consumed < c.shared.requested
  | .act _ _ => True

instance (c : Config ChunkedFlow ChunkedTask) :
    (l : Label ChunkedTask Unit) → Decidable (Demanded c l)
  | .call t => inferInstanceAs (Decidable (t = .decrementAndGet))
  | .act .decrementAndGet _ => inferInstanceAs (Decidable (c.shared.consumed < c.shared.requested))
  | .act .addAndGet _ | .act .request _ => .isTrue trivial

/-- The refills under way: those that have not been added, and those not requested. -/
def adding (tasks : List ChunkedTask) : Nat :=
  tasks.countP fun t => t = .addAndGet

def requesting (tasks : List ChunkedTask) : Nat :=
  tasks.countP fun t => t = .request

def refilling (c : Config ChunkedFlow ChunkedTask) : Nat :=
  adding c.tasks + requesting c.tasks

/-- At quiescence no refill is under way. -/
structure FlowControlled (count : Nat) (c : Config ChunkedFlow ChunkedTask) : Prop where
  counter : refilling c = 0 → c.shared.chunksCounter = int32 c.shared.demand ∧
    (count + count / 2 < 2 ^ 31 → c.shared.chunksCounter = c.shared.demand)
  quiescent : refilling c = 0 → 0 < c.shared.demand
  requested : c.shared.requested + count * refilling c = count * (1 + c.shared.crossings)
  refilling_le : refilling c ≤ 1
  demand_pos : 0 < c.shared.demand + count * refilling c
  demand_nonneg : 0 ≤ c.shared.demand
  demand_le : c.shared.demand ≤ ((count + count / 2 : Nat) : Int)

/-! ## Numbers of 32 bits -/

theorem int32_eq {x : Int} (h : -2 ^ 31 ≤ x) (h' : x < 2 ^ 31) : int32 x = x := by
  rw [int32, Int.bmod_def]
  split <;> omega

/-- A number that is not negative has another value only where it is too large. -/
theorem int32_eq_iff {x : Int} {n : Nat} (h : 0 ≤ x) (h' : x < 2 ^ 32) (hn : n < 2 ^ 31) :
    int32 x = n ↔ x = n := by
  rw [int32, Int.bmod_def]
  split <;> omega

theorem int32_sub (x y : Int) : int32 (int32 x - y) = int32 (x - y) :=
  Int.bmod_sub_bmod

theorem int32_add (x y : Int) : int32 (int32 x + y) = int32 (x + y) :=
  Int.bmod_add_bmod

/-! ## Steps -/

/-- What every action keeps, where some refills have not been added, and some not requested. -/
structure Kept (count : Nat) (s : ChunkedFlow) (adding requesting : Nat) : Prop where
  counter : s.chunksCounter = int32 (s.demand + count * requesting)
  nonneg : 0 ≤ s.demand
  idle : adding + requesting = 0 → ((count / 2 : Nat) : Int) < s.demand
  busy : adding + requesting = 1 → s.demand ≤ ((count / 2 : Nat) : Int)
  refilling_le : adding + requesting ≤ 1
  demand_le : s.demand ≤ ((count + count / 2 : Nat) : Int)
  requested : s.requested + count * (adding + requesting) = count * (1 + s.crossings)

section

variable {count a r : Nat} {s : ChunkedFlow}

theorem crosses_iff (count : Nat) (s : ChunkedFlow) :
    s.crosses count = true ↔ s.demand = ((count / 2 : Nat) : Int) + 1 := by
  rw [ChunkedFlow.crosses, Bool.and_eq_true, decide_eq_true_eq, decide_eq_true_eq]
  omega

theorem demand_consume (count : Nat) (s : ChunkedFlow) :
    (s.consume count).demand = s.demand - 1 := by
  simp only [ChunkedFlow.demand, ChunkedFlow.consume]
  omega

theorem one_le_demand (h : s.consumed < s.requested) : 1 ≤ s.demand := by
  rw [ChunkedFlow.demand]
  omega

theorem kept_subscribed (hpos : 1 ≤ count) : Kept count (subscribed count).shared 0 0 := by
  have hdemand : (subscribed count).shared.demand = count := by
    simp [subscribed, ChunkedFlow.demand]
  refine ⟨?_, by omega, fun _ => by omega, fun h => by omega, by omega, by omega, ?_⟩
  · rw [hdemand]
    simp [subscribed]
  · simp [subscribed]

theorem counter_consume (h : Kept count s a r) :
    (s.consume count).chunksCounter = int32 (s.demand - 1 + count * r) := by
  change int32 (s.chunksCounter - 1) = _
  rw [h.counter, int32_sub]
  congr 1
  omega

/-- An element finds the half if and only if no refill is under way and the demand comes over
the threshold. -/
theorem counter_eq_half_iff (hpos : 1 ≤ count) (hint : count < 2 ^ 31) (h : Kept count s a r)
    (hdemanded : s.consumed < s.requested) :
    (s.consume count).chunksCounter = ((count / 2 : Nat) : Int) ↔
      a + r = 0 ∧ s.crosses count = true := by
  have hdemand := one_le_demand hdemanded
  have hle := h.demand_le
  have hrefilling := h.refilling_le
  rw [counter_consume h, crosses_iff]
  rcases Nat.le_one_iff_eq_zero_or_eq_one.mp hrefilling with hidle | hbusy
  · obtain ⟨rfl, rfl⟩ := Nat.add_eq_zero_iff.mp hidle
    rw [int32_eq_iff (by omega) (by omega) (by omega)]
    omega
  · have hlow := h.busy hbusy
    have hmul : (count : Int) * r = if r = 0 then 0 else (count : Int) := by
      obtain rfl | rfl : r = 0 ∨ r = 1 := by omega
      · simp
      · simp
    rw [hmul, int32_eq_iff (by split <;> omega) (by split <;> omega) (by omega)]
    split <;> omega

/-- The demand comes over the threshold only while no refill is under way. -/
theorem idle_of_crosses (h : Kept count s a r) (hcrosses : s.crosses count = true) : a + r = 0 := by
  rw [crosses_iff] at hcrosses
  rcases Nat.le_one_iff_eq_zero_or_eq_one.mp h.refilling_le with hidle | hbusy
  · exact hidle
  · have hlow := h.busy hbusy
    omega

/-- An element that takes the demand over the threshold begins a refill. -/
theorem kept_crossing (h : Kept count s 0 0) (hcrosses : s.crosses count = true) :
    Kept count (s.consume count) 1 0 := by
  have hdemand := demand_consume count s
  have hthreshold := (crosses_iff count s).mp hcrosses
  have hcrossings : (s.consume count).crossings = s.crossings + 1 := by
    rw [ChunkedFlow.consume, hcrosses, if_pos rfl]
  have hrequested := h.requested
  refine ⟨?_, by omega, fun hidle => by omega, fun _ => by omega, by omega, by omega, ?_⟩
  · rw [counter_consume h, hdemand]
  · change s.requested + _ = _
    rw [hcrossings, ← Nat.add_assoc, Nat.mul_add count (1 + s.crossings), ← hrequested]
    simp

/-- Any other element takes the demand down. -/
theorem kept_consume (h : Kept count s a r) (hdemanded : s.consumed < s.requested)
    (hcrosses : s.crosses count = false) : Kept count (s.consume count) a r := by
  have hdemand := demand_consume count s
  have hone := one_le_demand hdemanded
  have hcrossings : (s.consume count).crossings = s.crossings := by
    rw [ChunkedFlow.consume, hcrosses]
    rfl
  have hthreshold : s.demand ≠ ((count / 2 : Nat) : Int) + 1 := by
    rw [ne_eq, ← crosses_iff, hcrosses]
    exact Bool.false_ne_true
  have hle := h.demand_le
  refine ⟨?_, by omega, fun hidle => ?_, fun hbusy => ?_, h.refilling_le, by omega, ?_⟩
  · rw [counter_consume h, hdemand]
  · have hlow := h.idle hidle
    omega
  · have hlow := h.busy hbusy
    omega
  · rw [hcrossings]
    exact h.requested

/-- What has been added is requested next. -/
theorem kept_addAndGet (h : Kept count s (a + 1) r) :
    Kept count { s with chunksCounter := int32 (s.chunksCounter + count) } a (r + 1) := by
  have hsum : a + (r + 1) = a + 1 + r := by omega
  refine ⟨?_, h.nonneg, ?_, ?_, ?_, h.demand_le, ?_⟩
  · change int32 (s.chunksCounter + count) = int32 (s.demand + count * (r + 1 : Nat))
    rw [h.counter, int32_add, Int.natCast_add, Int.mul_add, Int.add_assoc]
    simp
  · rw [hsum]
    exact h.idle
  · rw [hsum]
    exact h.busy
  · rw [hsum]
    exact h.refilling_le
  · rw [hsum]
    exact h.requested

/-- A request ends its refill. -/
theorem kept_request (hpos : 1 ≤ count) (h : Kept count s a (r + 1)) :
    Kept count { s with requested := s.requested + count } a r := by
  obtain ⟨rfl, rfl⟩ : a = 0 ∧ r = 0 := by
    have hle := h.refilling_le
    omega
  have hdemand : ChunkedFlow.demand { s with requested := s.requested + count } =
      s.demand + count := by
    simp only [ChunkedFlow.demand]
    omega
  have hlow := h.busy rfl
  have hnonneg := h.nonneg
  have hrequested := h.requested
  refine ⟨?_, by omega, fun _ => ?_, fun hbusy => by omega, by omega, by omega, ?_⟩
  · rw [hdemand]
    have hcounter := h.counter
    simpa using hcounter
  · omega
  · simpa using hrequested

/-! ## Runs -/

variable {c c' : Config ChunkedFlow ChunkedTask} {l : Label ChunkedTask Unit}
  {ls : List (Label ChunkedTask Unit)}

theorem adding_cons (t : ChunkedTask) (tasks : List ChunkedTask) :
    adding (t :: tasks) = adding tasks + if t = .addAndGet then 1 else 0 := by
  rw [adding, List.countP_cons]
  simp only [decide_eq_true_eq]
  rfl

theorem requesting_cons (t : ChunkedTask) (tasks : List ChunkedTask) :
    requesting (t :: tasks) = requesting tasks + if t = .request then 1 else 0 := by
  rw [requesting, List.countP_cons]
  simp only [decide_eq_true_eq]
  rfl

/-- The task that acts, with the refills under way of the others. -/
theorem kept_perm {t : ChunkedTask} {others : List ChunkedTask}
    (h : Kept count c.shared (adding c.tasks) (requesting c.tasks))
    (hpool : c.tasks.Perm (t :: others)) :
    Kept count c.shared (adding others + if t = .addAndGet then 1 else 0)
      (requesting others + if t = .request then 1 else 0) := by
  have hadding : adding c.tasks = adding (t :: others) := hpool.countP_eq _
  have hrequesting : requesting c.tasks = requesting (t :: others) := hpool.countP_eq _
  rwa [hadding, hrequesting, adding_cons, requesting_cons] at h

/-- An action keeps what holds in the configuration in front of it. -/
theorem kept_of_chunkedStep (hpos : 1 ≤ count) (hint : count < 2 ^ 31)
    (h : Kept count c.shared (adding c.tasks) (requesting c.tasks)) (hok : Demanded c l)
    (hstep : Step (ChunkedTask.step count) c l c') :
    Kept count c'.shared (adding c'.tasks) (requesting c'.tasks) := by
  cases l with
  | call t =>
      cases hstep
      cases hok
      exact h
  | act t x =>
      obtain ⟨ts, others, hpool, hact, htasks⟩ := hstep.act_inv
      obtain ⟨shared, tasks⟩ := c'
      obtain rfl : tasks = ts ++ others := htasks
      replace h := kept_perm h hpool
      cases t with
      | decrementAndGet =>
          replace h : Kept count c.shared (adding others) (requesting others) := h
          have hhalf := counter_eq_half_iff hpos hint h hok
          obtain ⟨rfl, rfl⟩ := Prod.mk.inj (Option.some.inj hact)
          cases hcrosses : c.shared.crosses count with
          | true =>
              have hidle := idle_of_crosses h hcrosses
              rw [if_pos (hhalf.mpr ⟨hidle, hcrosses⟩), List.singleton_append, adding_cons,
                requesting_cons]
              obtain ⟨hadding, hrequesting⟩ := Nat.add_eq_zero_iff.mp hidle
              rw [hadding, hrequesting] at h ⊢
              exact kept_crossing h hcrosses
          | false =>
              rw [if_neg (by rw [hhalf, hcrosses]; simp)]
              exact kept_consume h hok hcrosses
      | addAndGet =>
          obtain ⟨rfl, rfl⟩ := Prod.mk.inj (Option.some.inj hact)
          rw [List.singleton_append, adding_cons, requesting_cons]
          exact kept_addAndGet h
      | request =>
          obtain ⟨rfl, rfl⟩ := Prod.mk.inj (Option.some.inj hact)
          exact kept_request hpos h

theorem kept_of_run (hpos : 1 ≤ count) (hint : count < 2 ^ 31)
    (hrun : Run (ChunkedTask.step count) Demanded (subscribed count) ls c) :
    Kept count c.shared (adding c.tasks) (requesting c.tasks) :=
  hrun.invariant (I := fun c => Kept count c.shared (adding c.tasks) (requesting c.tasks))
    (kept_subscribed hpos) fun _ _ _ hkept hok hstep =>
      kept_of_chunkedStep hpos hint hkept hok hstep

/-- In every run the counter is what is requested and not consumed when no refill is under way,
every crossing of the threshold requests one more chunk, and the outstanding demand, with the
chunk that is under way, stays positive. -/
theorem chunked_flow (hpos : 1 ≤ count) (hint : count < 2 ^ 31)
    (hrun : Run (ChunkedTask.step count) Demanded (subscribed count) ls c) :
    FlowControlled count c := by
  have h := kept_of_run hpos hint hrun
  have hnonneg := h.nonneg
  have hle := h.demand_le
  refine ⟨fun hidle => ?_, fun hidle => ?_, h.requested, h.refilling_le, ?_, hnonneg, hle⟩
  · have hnone : requesting c.tasks = 0 := (Nat.add_eq_zero_iff.mp hidle).2
    have hcounter := h.counter
    rw [hnone] at hcounter
    have hsame : c.shared.chunksCounter = int32 c.shared.demand := by simpa using hcounter
    refine ⟨hsame, fun hsmall => hsame.trans (int32_eq ?_ ?_)⟩
    · omega
    · omega
  · have hlow := h.idle hidle
    omega
  · rcases Nat.le_one_iff_eq_zero_or_eq_one.mp h.refilling_le with hidle | hbusy
    · have hlow := h.idle hidle
      have hzero : refilling c = 0 := hidle
      rw [hzero]
      omega
    · have hone : refilling c = 1 := hbusy
      rw [hone]
      omega

end

/-- Both elements of a chunk are consumed before the refill that the first of them begins. -/
theorem chunked_flow_two :
    ∃ ls c, Run (ChunkedTask.step 2) Demanded (subscribed 2) ls c ∧
      c.shared = { chunksCounter := 2, requested := 4, consumed := 2, crossings := 1 } ∧
        FlowControlled 2 c := by
  obtain ⟨ls, c, hrun, hend⟩ := exists_run_of_exec (ChunkedTask.step 2)
    (fun c l => decide (Demanded c l)) (subscribed 2)
    [.call .decrementAndGet, .call .decrementAndGet, .act 0 (), .act 1 (), .act 0 (), .act 0 ()]
    (fun _ c => decide (c.shared =
      { chunksCounter := 2, requested := 4, consumed := 2, crossings := 1 })) (by decide)
  have hdemanded := hrun.mono fun _ _ h => of_decide_eq_true h
  exact ⟨ls, c, hdemanded, of_decide_eq_true hend,
    chunked_flow (by decide) (by decide) hdemanded⟩

/-- An element that is the last of its chunk leaves no demand until its refill is requested. -/
theorem demand_falls_to_zero :
    ∃ ls c, Run (ChunkedTask.step 1) Demanded (subscribed 1) ls c ∧ ¬ 0 < c.shared.demand := by
  obtain ⟨ls, c, hrun, hend⟩ := exists_run_of_exec (ChunkedTask.step 1)
    (fun c l => decide (Demanded c l)) (subscribed 1) [.call .decrementAndGet, .act 0 ()]
    (fun _ c => decide (¬ 0 < c.shared.demand)) (by decide)
  exact ⟨ls, c, hrun.mono fun _ _ h => of_decide_eq_true h, of_decide_eq_true hend⟩

end ArtPlatform
