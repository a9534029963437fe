import Mathlib.Tactic.Common

/-!
# Chunked streams

A chunked stream asks its source for a number of elements when it is subscribed to, and
counts them down as they arrive; at half of the number it asks for as many again.

Main results:

- Theorem `chunkCounter_pos`: a count never falls to zero.
- Theorem `chunkedNext_chunkCounter`: what an element does to the count, and what is
  requested with it.
-/

namespace ArtPlatform

/-- The count of a stream after its own events. -/
def chunkCounter (count : Nat) : Nat → Nat
  | 0 => count
  | n + 1 =>
      let passed := chunkCounter count n - 1
      if passed = count / 2 then passed + count else passed

/-- The count stays above the half at which it is filled up. -/
theorem half_lt_chunkCounter {count : Nat} (h : 0 < count) (n : Nat) :
    count / 2 < chunkCounter count n := by
  induction n with
  | zero =>
      unfold chunkCounter
      omega
  | succ n ih =>
      unfold chunkCounter
      dsimp only
      split
      · omega
      · omega

/-- A count never falls to zero. -/
theorem chunkCounter_pos {count : Nat} (h : 0 < count) (n : Nat) : 0 < chunkCounter count n :=
  Nat.lt_of_le_of_lt (Nat.zero_le _) (half_lt_chunkCounter h n)

/-- `doOnNext` of `chunked(chunksCount)`: the counter after an element, and the number of
elements that are requested. -/
def chunkedNext (chunksCount : Nat) (chunksCounter : Int) : Int × Nat :=
  let passed := chunksCounter - 1
  if passed = ((chunksCount / 2 : Nat) : Int) then (passed + chunksCount, chunksCount)
  else (passed, 0)

/-- An element moves the count on, and requests what the count gains beside it. -/
theorem chunkedNext_chunkCounter {count : Nat} (h : 0 < count) (n : Nat) :
    chunkedNext count (chunkCounter count n) =
      ((chunkCounter count (n + 1) : Int),
        chunkCounter count (n + 1) + 1 - chunkCounter count n) := by
  have hhalf := half_lt_chunkCounter h n
  have hnext : chunkCounter count (n + 1) =
      if chunkCounter count n - 1 = count / 2 then chunkCounter count n - 1 + count
      else chunkCounter count n - 1 := rfl
  unfold chunkedNext
  dsimp only
  by_cases hfull : chunkCounter count n - 1 = count / 2
  · rw [if_pos hfull] at hnext
    rw [if_pos (by omega), Prod.mk.injEq]
    omega
  · rw [if_neg hfull] at hnext
    rw [if_neg (by omega), Prod.mk.injEq]
    omega

/-- A count loses at most the element. -/
theorem chunkCounter_le_succ (count n : Nat) :
    chunkCounter count n ≤ chunkCounter count (n + 1) + 1 := by
  conv => rhs; unfold chunkCounter
  dsimp only
  split
  · omega
  · omega

/-- At most the number of chunks is requested with an element. -/
theorem chunkedNext_requested_le (count : Nat) (counter : Int) :
    (chunkedNext count counter).2 ≤ count := by
  unfold chunkedNext
  dsimp only
  split
  · exact Nat.le_refl _
  · exact Nat.zero_le _

end ArtPlatform
