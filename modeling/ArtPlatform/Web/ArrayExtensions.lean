import Mathlib.Data.List.Dedup
import Mathlib.Data.Quot

/-!
# Extensions of arrays

Two of the functions that the forms compare arrays with.  `duplicates` keeps the elements whose
key is among the keys of the array, as soon as one key is there twice; `crossEquals` looks for
the elements of one array in the other one.

The deep equality of elements is a parameter.

Main results:

- Theorem `duplicates_crossEquals_iff`: the arrays of which the two functions say what they are
  meant to say.
- Theorem `single_among_duplicates`: arrays of which they do not.
-/

namespace ArtPlatform.Web

variable {T K : Type}

/-! ## Duplicates -/

section

variable [DecidableEq K]

/-- `filtered` is the set of the keys. -/
def duplicates (functor : T → K) (xs : List T) : List T :=
  let filtered := (xs.map functor).dedup
  if filtered.length = xs.length then []
  else xs.filter fun element => functor element ∈ filtered

/-- How often a key occurs. -/
def occurrences (functor : T → K) (xs : List T) (key : K) : Nat :=
  xs.countP fun element => functor element = key

/-- `duplicates` returns the elements whose key occurs more than once. -/
def DuplicatesExact (functor : T → K) (xs : List T) : Prop :=
  duplicates functor xs = xs.filter fun element => 1 < occurrences functor xs (functor element)

instance (functor : T → K) (xs : List T) [DecidableEq T] : Decidable (DuplicatesExact functor xs) :=
  inferInstanceAs (Decidable (_ = _))

/-- No key occurs twice, or every one does. -/
def AllOrNoneTwice (functor : T → K) (xs : List T) : Prop :=
  (∀ element ∈ xs, occurrences functor xs (functor element) = 1) ∨
    ∀ element ∈ xs, 1 < occurrences functor xs (functor element)

theorem occurrences_eq_count (functor : T → K) (xs : List T) (key : K) :
    occurrences functor xs key = (xs.map functor).count key := by
  rw [occurrences, List.count_eq_countP, List.countP_map]
  rfl

/-- With a key that occurs twice the whole array is returned, and without one nothing is. -/
theorem duplicates_eq (functor : T → K) (xs : List T) :
    duplicates functor xs = if (xs.map functor).Nodup then [] else xs := by
  have hlength : (xs.map functor).dedup.length = xs.length ↔ (xs.map functor).Nodup := by
    rw [← List.dedup_eq_self, ← @List.length_map _ _ xs functor]
    refine ⟨fun h => ?_, fun h => by rw [h]⟩
    exact (List.dedup_sublist (xs.map functor)).eq_of_length h
  rw [duplicates]
  simp only [hlength]
  split
  · rfl
  · rw [List.filter_eq_self]
    intro element helement
    simpa using ⟨element, helement, rfl⟩

theorem nodup_iff_occurrences (functor : T → K) (xs : List T) :
    (xs.map functor).Nodup ↔ ∀ element ∈ xs, occurrences functor xs (functor element) = 1 := by
  rw [List.nodup_iff_count_eq_one]
  simp only [List.forall_mem_map, occurrences_eq_count]

theorem duplicatesExact_iff (functor : T → K) (xs : List T) :
    DuplicatesExact functor xs ↔ AllOrNoneTwice functor xs := by
  rw [DuplicatesExact, duplicates_eq, AllOrNoneTwice, ← nodup_iff_occurrences]
  split
  next hnodup =>
    refine iff_of_true ?_ (.inl hnodup)
    rw [eq_comm, List.filter_eq_nil_iff]
    intro element helement
    rw [(nodup_iff_occurrences functor xs).mp hnodup element helement]
    decide
  next htwice =>
    rw [eq_comm, List.filter_eq_self, or_iff_right htwice]
    simp only [decide_eq_true_eq]

end

/-! ## Equality of arrays -/

section

variable (equal : T → T → Bool)

def has (xs : List T) (element : T) : Bool :=
  xs.any fun current => equal current element

/-- A missing array is not equal to any, not even to a missing one. -/
def crossEquals : Option (List T) → Option (List T) → Bool
  | some left, some right =>
      left.length = right.length && left.all fun element => has equal right element
  | _, _ => false

/-- Every value occurs as often in one array as in the other one. -/
def SameMultiset (left right : List T) : Prop :=
  ∀ element, left.countP (equal · element) = right.countP (equal · element)

structure CrossEqualsExact (left right : List T) : Prop where
  symmetric :
    crossEquals equal (some left) (some right) = crossEquals equal (some right) (some left)
  exact : crossEquals equal (some left) (some right) = true ↔ SameMultiset equal left right

/-- The arrays have different lengths, or each has an element that the other one lacks, or
nothing occurs more often in one than in the other. -/
def LackOrAgree (left right : List T) : Prop :=
  left.length ≠ right.length ∨
    ((∃ element ∈ left, has equal right element = false) ∧
      ∃ element ∈ right, has equal left element = false) ∨
    SameMultiset equal left right

end

section

variable {equal : T → T → Bool} {left right : List T}

theorem crossEquals_eq_true_iff :
    crossEquals equal (some left) (some right) = true ↔
      left.length = right.length ∧ ∀ element ∈ left, has equal right element = true := by
  simp [crossEquals]

theorem crossEquals_eq_false_iff :
    crossEquals equal (some left) (some right) = false ↔
      left.length ≠ right.length ∨ ∃ element ∈ left, has equal right element = false := by
  rw [← Bool.not_eq_true, crossEquals_eq_true_iff, not_and_or]
  simp only [not_forall, exists_prop, Bool.not_eq_true, ne_eq]

theorem has_iff_countP {xs : List T} {element : T} :
    has equal xs element = true ↔ 0 < xs.countP (equal · element) := by
  rw [has, List.any_eq_true, List.countP_pos_iff]

theorem SameMultiset.symm (h : SameMultiset equal left right) : SameMultiset equal right left :=
  fun element => (h element).symm

open Classical in
/-- Up to an equality that is an equivalence, one array is the other one in another order. -/
theorem SameMultiset.length_eq (hequal : Equivalence fun x y => equal x y = true)
    (h : SameMultiset equal left right) : left.length = right.length := by
  let classes : Setoid T := ⟨fun x y => equal x y = true, hequal⟩
  have hcount : ∀ (xs : List T) (element : T),
      (xs.map (Quotient.mk classes)).count ⟦element⟧ = xs.countP (equal · element) := by
    intro xs element
    rw [List.count_eq_countP, List.countP_map]
    refine List.countP_congr fun x _ => ?_
    simp only [Function.comp_apply, beq_iff_eq]
    exact Quotient.eq
  have hperm : (left.map (Quotient.mk classes)).Perm (right.map (Quotient.mk classes)) := by
    rw [List.perm_iff_count]
    intro q
    obtain ⟨element, rfl⟩ := Quotient.exists_rep q
    rw [hcount, hcount, h element]
  simpa using hperm.length_eq

theorem SameMultiset.crossEquals_eq_true (hequal : Equivalence fun x y => equal x y = true)
    (h : SameMultiset equal left right) :
    crossEquals equal (some left) (some right) = true := by
  rw [crossEquals_eq_true_iff]
  refine ⟨h.length_eq hequal, fun element helement => ?_⟩
  rw [has_iff_countP, ← h element, List.countP_pos_iff]
  exact ⟨element, helement, hequal.refl element⟩

theorem crossEqualsExact_iff (hequal : Equivalence fun x y => equal x y = true)
    (left right : List T) :
    CrossEqualsExact equal left right ↔ LackOrAgree equal left right := by
  constructor
  · rintro ⟨hsymm, hexact⟩
    cases hleft : crossEquals equal (some left) (some right) with
    | true => exact .inr (.inr (hexact.mp hleft))
    | false =>
        rw [hleft, eq_comm] at hsymm
        rcases crossEquals_eq_false_iff.mp hleft with hlength | hlacks
        · exact .inl hlength
        · rcases crossEquals_eq_false_iff.mp hsymm with hlength | hlacks'
          · exact .inl (Ne.symm hlength)
          · exact .inr (.inl ⟨hlacks, hlacks'⟩)
  · intro h
    have hfalse : crossEquals equal (some left) (some right) = false →
        crossEquals equal (some right) (some left) = false →
          CrossEqualsExact equal left right := by
      intro hleft hright
      refine ⟨hleft.trans hright.symm, fun htrue => ?_,
        fun hsame => hsame.crossEquals_eq_true hequal⟩
      rw [hleft] at htrue
      cases htrue
    rcases h with hlength | ⟨hlacks, hlacks'⟩ | hsame
    · exact hfalse (crossEquals_eq_false_iff.mpr (.inl hlength))
        (crossEquals_eq_false_iff.mpr (.inl (Ne.symm hlength)))
    · exact hfalse (crossEquals_eq_false_iff.mpr (.inr hlacks))
        (crossEquals_eq_false_iff.mpr (.inr hlacks'))
    · have hleft := hsame.crossEquals_eq_true hequal
      have hright := hsame.symm.crossEquals_eq_true hequal
      exact ⟨hleft.trans hright.symm, iff_of_true hleft hsame⟩

end

/-! ## Both functions -/

/-- `duplicates` returns what it is meant to if and only if no key or every key of the array
occurs more than once, and `crossEquals` is symmetric and means equality of multisets if and only
if the arrays do not have the same elements with different multiplicities. -/
theorem duplicates_crossEquals_iff [DecidableEq K] {equal : T → T → Bool}
    (hequal : Equivalence fun x y => equal x y = true) (functor : T → K) (xs left right : List T) :
    (DuplicatesExact functor xs ↔ AllOrNoneTwice functor xs) ∧
      (CrossEqualsExact equal left right ↔ LackOrAgree equal left right) :=
  ⟨duplicatesExact_iff functor xs, crossEqualsExact_iff hequal left right⟩

theorem duplicates_crossEquals_iff_numbers :
    (DuplicatesExact (fun n : Nat => n % 10) [1, 11, 2] ↔
        AllOrNoneTwice (fun n : Nat => n % 10) [1, 11, 2]) ∧
      (CrossEqualsExact (fun x y : Nat => x == y) [1, 2] [2, 1] ↔
        LackOrAgree (fun x y : Nat => x == y) [1, 2] [2, 1]) :=
  duplicates_crossEquals_iff
    ⟨fun x => beq_self_eq_true x, fun h => by rwa [BEq.comm], fun h h' => by simp_all⟩ _ _ _ _

/-- An element that occurs once is among the duplicates of another one, and an array whose
elements are all in another array is equal to it. -/
theorem single_among_duplicates :
    (2 ∈ duplicates id [1, 1, 2] ∧ ¬ DuplicatesExact id [1, 1, 2]) ∧
      (crossEquals (fun x y : Nat => x == y) (some [1, 1]) (some [1, 2]) = true ∧
        crossEquals (fun x y : Nat => x == y) (some [1, 2]) (some [1, 1]) = false ∧
        ¬ CrossEqualsExact (fun x y : Nat => x == y) [1, 1] [1, 2]) := by
  refine ⟨⟨by decide, by decide⟩, rfl, rfl, fun h => ?_⟩
  cases h.symmetric

end ArtPlatform.Web
