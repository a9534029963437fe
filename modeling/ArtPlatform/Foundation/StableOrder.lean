import ArtPlatform.Foundation.LegacyMergeSort
import Mathlib.Data.List.Dedup

/-!
# Stable descending orders and their first elements

A list is arranged by descending values of a function, and elements of one value keep
their order.  Only the first elements of an arrangement are shown.  Where an element of
the arranged list comes to stand is told by the list itself: after all elements of a
greater value and after those of its own value that are listed before it.

Main results:

- Theorem `Arranged.length_before`: the place of an element.
- Theorem `Arranged.nodup_firsts_iff`: no element is shown twice exactly when each
  repetition has its place behind the shown elements.
- Theorem `Arranged.exists_whole_iff`: the shown elements are the first of an arrangement
  without repetition exactly when none of them is shown twice.
- Theorem `arranged_legacyMergeSort`: Java's sort arranges.
-/

namespace StableOrder

variable {α : Type}

/-- An arrangement of a list by descending values. -/
structure Arranged (f : α → Nat) (es shown : List α) : Prop where
  perm : shown.Perm es
  descending : shown.Pairwise fun a b => f b ≤ f a
  stable : ∀ c, (shown.filter fun e => f e = c) = es.filter fun e => f e = c

/-- How many elements are arranged before an element that is listed after `front`. -/
def place (f : α → Nat) (es front : List α) (a : α) : Nat :=
  (es.countP fun e => f a < f e) + front.countP fun e => f e = f a

variable {f : α → Nat} {es shown front back : List α} {a : α} {n : Nat}

/-- The first elements, when there is a limit. -/
def firsts (limit : Option Nat) (es : List α) : List α :=
  match limit with
  | some n => es.take n
  | none => es

/-- Without a value to order by, a list is arranged as it is. -/
theorem arranged_const (es : List α) : Arranged (fun _ => 0) es es where
  perm := List.Perm.refl es
  descending := List.pairwise_of_forall fun _ _ => Nat.le_refl 0
  stable _ := rfl

/-- The first elements are distinct exactly when each repetition comes after them. -/
theorem nodup_take_iff :
    (es.take n).Nodup ↔
      ∀ front a back, es = front ++ a :: back → a ∈ front → n ≤ front.length := by
  constructor
  · intro hnodup front a back hes ha
    by_contra hlt
    obtain ⟨m, hm⟩ : ∃ m, n - front.length = m + 1 := ⟨n - front.length - 1, by omega⟩
    have htake : es.take n = front ++ a :: back.take m := by
      rw [hes, List.take_append, List.take_of_length_le (by omega), hm, List.take_succ_cons]
    rw [htake, List.nodup_append] at hnodup
    exact hnodup.2.2 a ha a List.mem_cons_self rfl
  · intro h
    unfold List.Nodup
    rw [List.pairwise_iff_getElem]
    intro i j hi hj hij heq
    rw [List.length_take] at hi hj
    rw [List.getElem_take, List.getElem_take] at heq
    have hsplit : es = es.take j ++ es[j] :: es.drop (j + 1) := by
      rw [← List.drop_eq_getElem_cons, List.take_append_drop]
    have hearlier : es[j] ∈ es.take j := by
      rw [← heq, List.mem_take_iff_getElem]
      exact ⟨i, by omega, rfl⟩
    have hle := h _ _ _ hsplit hearlier
    rw [List.length_take] at hle
    omega

/-- Two lists with the same elements of a class, in order, have the same repetitions
in it. -/
theorem exists_repetition {q : α → Bool} (hq : q a = true) (ha : a ∈ front)
    (h : es.filter q = (front ++ a :: back).filter q) :
    ∃ front' back', es = front' ++ a :: back' ∧ a ∈ front' ∧
      front'.countP q = front.countP q := by
  rw [List.filter_append, List.filter_cons_of_pos hq] at h
  obtain ⟨front₁, rest, rfl, hfront₁, hrest⟩ := List.filter_eq_append_iff.mp h
  obtain ⟨front₂, back', rfl, hfront₂, -, -⟩ := List.filter_eq_cons_iff.mp hrest
  have hearlier : a ∈ front₁ := by
    have hmem : a ∈ front₁.filter q := by
      rw [hfront₁]
      exact List.mem_filter.mpr ⟨ha, hq⟩
    exact List.mem_of_mem_filter hmem
  have hnone : front₂.countP q = 0 := by
    rw [List.countP_eq_zero]
    exact hfront₂
  refine ⟨front₁ ++ front₂, back', by simp, by simp [hearlier], ?_⟩
  rw [List.countP_append, hnone, Nat.add_zero, List.countP_eq_length_filter, hfront₁,
    List.countP_eq_length_filter]

/-! ## Continuing the first elements -/

section Continued

variable [DecidableEq α]

/-- The first elements, and behind them those that are not among them, once. -/
def continued (n : Nat) (es : List α) : List α :=
  es.take n ++ ((es.drop n).filter fun e => e ∉ es.take n).dedup

theorem dedup_filter_sublist (es : List α) (p : α → Bool) : (es.filter p).dedup.Sublist es :=
  (List.dedup_sublist _).trans List.filter_sublist

theorem continued_sublist (n : Nat) (es : List α) : (continued n es).Sublist es := by
  have hbehind := dedup_filter_sublist (es.drop n) fun e => e ∉ es.take n
  have happend := hbehind.append_left (es.take n)
  rwa [List.take_append_drop] at happend

theorem nodup_continued (h : (es.take n).Nodup) : (continued n es).Nodup := by
  unfold continued
  rw [List.nodup_append]
  refine ⟨h, List.nodup_dedup _, ?_⟩
  rintro e he e' he' rfl
  rw [List.mem_dedup, List.mem_filter] at he'
  exact of_decide_eq_true he'.2 he

theorem mem_continued : a ∈ continued n es ↔ a ∈ es := by
  constructor
  · exact fun h => (continued_sublist n es).subset h
  · intro h
    unfold continued
    by_cases hfirst : a ∈ es.take n
    · exact List.mem_append_left _ hfirst
    · rw [← List.take_append_drop n es] at h
      have hdrop := (List.mem_append.mp h).resolve_left hfirst
      apply List.mem_append_right
      rw [List.mem_dedup, List.mem_filter]
      exact ⟨hdrop, decide_eq_true hfirst⟩

theorem take_continued (n : Nat) (es : List α) : (continued n es).take n = es.take n := by
  unfold continued
  rw [List.take_append, List.take_take, Nat.min_self]
  by_cases hlong : n ≤ es.length
  · simp [List.length_take, hlong]
  · have hnothing : es.drop n = [] := List.drop_eq_nil_of_le (by omega)
    simp [hnothing]

end Continued

namespace Arranged

/-- The place of an element of the arrangement. -/
theorem length_before (h : Arranged f es shown) (hshown : shown = front ++ a :: back) :
    front.length = place f es front a := by
  have hpairs := h.descending
  rw [hshown, List.pairwise_append, List.pairwise_cons] at hpairs
  obtain ⟨-, ⟨hback, -⟩, hfront⟩ := hpairs
  have hbefore : ∀ e ∈ front, f a ≤ f e := fun e he => hfront e he a List.mem_cons_self
  have hnone : (back.countP fun e => f a < f e) = 0 := by
    rw [List.countP_eq_zero]
    intro e he
    have hle := hback e he
    simp only [decide_eq_true_eq]
    omega
  have hgreater : (es.countP fun e => f a < f e) = front.countP fun e => f a < f e := by
    rw [← h.perm.countP_eq, hshown, List.countP_append, List.countP_cons, hnone]
    simp
  have hequal : (front.countP fun e => f e = f a) =
      front.countP fun e => ¬ decide (f a < f e) = true := by
    refine List.countP_congr fun e he => ?_
    have hle := hbefore e he
    simp only [decide_eq_true_eq]
    omega
  unfold place
  rw [hgreater, hequal]
  exact List.length_eq_countP_add_countP _

/-- A repetition in the list is one in the arrangement, and the other way round. -/
theorem exists_shown (h : Arranged f es shown) (hes : es = front ++ a :: back)
    (ha : a ∈ front) :
    ∃ front' back', shown = front' ++ a :: back' ∧ a ∈ front' ∧
      front'.length = place f es front a := by
  have hclass : (shown.filter fun e => f e = f a) = es.filter fun e => f e = f a := h.stable _
  rw [hes] at hclass
  obtain ⟨front', back', hshown, ha', hcount⟩ := exists_repetition (by simp) ha hclass
  refine ⟨front', back', hshown, ha', ?_⟩
  rw [h.length_before hshown]
  unfold place
  rw [hcount]

theorem exists_listed (h : Arranged f es shown) (hshown : shown = front ++ a :: back)
    (ha : a ∈ front) :
    ∃ front' back', es = front' ++ a :: back' ∧ a ∈ front' ∧
      front.length = place f es front' a := by
  have hclass : (es.filter fun e => f e = f a) = shown.filter fun e => f e = f a :=
    (h.stable _).symm
  rw [hshown] at hclass
  obtain ⟨front', back', hes, ha', hcount⟩ := exists_repetition (by simp) ha hclass
  refine ⟨front', back', hes, ha', ?_⟩
  rw [h.length_before hshown]
  unfold place
  rw [hcount]

theorem nodup_take_iff (h : Arranged f es shown) :
    (shown.take n).Nodup ↔
      ∀ front a back, es = front ++ a :: back → a ∈ front → n ≤ place f es front a := by
  rw [StableOrder.nodup_take_iff]
  constructor
  · intro hshown front a back hes ha
    obtain ⟨front', back', hsplit, ha', hlength⟩ := h.exists_shown hes ha
    rw [← hlength]
    exact hshown front' a back' hsplit ha'
  · intro hes front a back hshown ha
    obtain ⟨front', back', hsplit, ha', hlength⟩ := h.exists_listed hshown ha
    rw [hlength]
    exact hes front' a back' hsplit ha'

/-- No element is shown twice exactly when each repetition has its place behind the
shown elements. -/
theorem nodup_firsts_iff (h : Arranged f es shown) (limit : Option Nat) :
    (firsts limit shown).Nodup ↔
      ∀ front a back, es = front ++ a :: back → a ∈ front →
        ∃ n, limit = some n ∧ n ≤ place f es front a := by
  cases limit with
  | some n => simpa [firsts] using h.nodup_take_iff
  | none =>
      have hall : (es.take es.length).Nodup ↔ ∀ front a back, es = front ++ a :: back →
          a ∈ front → es.length ≤ front.length :=
        StableOrder.nodup_take_iff
      rw [List.take_length] at hall
      simp only [firsts, h.perm.nodup_iff, hall, reduceCtorEq, false_and, exists_false]
      constructor
      · intro hplaces front a back hes ha
        have hle := hplaces front a back hes ha
        rw [hes, List.length_append, List.length_cons] at hle
        omega
      · intro hnever front a back hes ha
        exact (hnever front a back hes ha).elim

/-- The shown elements are the first of an arrangement of the rows, each once, exactly
when none of them is shown twice. -/
theorem exists_whole_take_iff (h : Arranged f es shown) {rows : List α} (hrows : rows.Nodup)
    (hmem : ∀ a, a ∈ es ↔ a ∈ rows) :
    (∃ whole : List α, whole.Perm rows ∧ (whole.Pairwise fun a b => f b ≤ f a) ∧
        shown.take n = whole.take n) ↔
      (shown.take n).Nodup := by
  classical
  constructor
  · rintro ⟨whole, hwhole, -, htake⟩
    rw [htake]
    exact (hwhole.nodup_iff.mpr hrows).sublist (List.take_sublist n whole)
  · intro hnodup
    have hsublist := continued_sublist n shown
    have hwhole : (continued n shown).Perm rows := by
      apply (List.perm_ext_iff_of_nodup (nodup_continued hnodup) hrows).mpr
      intro e
      rw [mem_continued, h.perm.mem_iff, hmem]
    exact ⟨continued n shown, hwhole, h.descending.sublist hsublist, (take_continued n shown).symm⟩

/-- The same with or without a limit. -/
theorem exists_whole_iff (h : Arranged f es shown) {rows : List α} (hrows : rows.Nodup)
    (hmem : ∀ a, a ∈ es ↔ a ∈ rows) (limit : Option Nat) :
    (∃ whole : List α, whole.Perm rows ∧ (whole.Pairwise fun a b => f b ≤ f a) ∧
        firsts limit shown = firsts limit whole) ↔
      (firsts limit shown).Nodup := by
  cases limit with
  | some n => exact h.exists_whole_take_iff hrows hmem
  | none =>
      constructor
      · rintro ⟨whole, hwhole, -, hshown⟩
        rw [hshown]
        exact hwhole.nodup_iff.mpr hrows
      · intro hnodup
        refine ⟨shown, ?_, h.descending, rfl⟩
        have hnodup' : shown.Nodup := hnodup
        rw [List.perm_ext_iff_of_nodup hnodup' hrows]
        intro a
        rw [h.perm.mem_iff, hmem]

end Arranged

/-! ## Java's sort -/

/-- `compareByDescending` of a selector. -/
def compareByDescending (f : α → Nat) (a b : α) : Int :=
  if f b < f a then -1 else if f b = f a then 0 else 1

theorem compareByDescending_le_zero_iff {b : α} :
    compareByDescending f a b ≤ 0 ↔ f b ≤ f a := by
  unfold compareByDescending
  split
  · omega
  · split
    · omega
    · omega

theorem preorders_compareByDescending (f : α → Nat) :
    LegacyMergeSort.Preorders (compareByDescending f) := by
  constructor
  · intro a b c hab hbc
    rw [compareByDescending_le_zero_iff] at hab hbc ⊢
    omega
  · intro a b
    rw [compareByDescending_le_zero_iff, compareByDescending_le_zero_iff]
    omega

/-- Java's sort arranges. -/
theorem arranged_legacyMergeSort (f : α → Nat) (es : List α) :
    Arranged f es (LegacyMergeSort.legacyMergeSort (compareByDescending f) es) where
  perm := LegacyMergeSort.legacyMergeSort_perm _ _
  descending :=
    (LegacyMergeSort.inOrder_legacyMergeSort (preorders_compareByDescending f) es).imp
      fun h => compareByDescending_le_zero_iff.mp h
  stable c := by
    apply LegacyMergeSort.filter_legacyMergeSort (preorders_compareByDescending f)
    intro a b ha hb
    rw [decide_eq_true_eq] at ha hb
    rw [compareByDescending_le_zero_iff]
    omega

end StableOrder
