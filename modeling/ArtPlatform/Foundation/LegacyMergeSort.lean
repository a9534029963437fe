import Mathlib.Data.List.DropRight
import Mathlib.Data.List.Perm.Basic
import Mathlib.Data.List.Sort
import Mathlib.Tactic.Common

/-!
# Java's legacy merge sort

The sort of a list by a comparator as the JDK does it with the system property
`java.util.Arrays.useLegacyMergeSort`: short lists by insertion from the right, longer
ones by sorting the two halves and merging them, unless the halves are in order
already.  It asks a comparator only whether its answer is positive, and it sorts with
any comparator; with one that is no preorder the result is some permutation.

Main results:

- Theorem `legacyMergeSort_perm`: the result is a permutation, whatever the comparator.
- Theorem `legacyMergeSort_congr`: only the comparator's answers on the elements matter.
- Theorem `inOrder_legacyMergeSort`: a comparator that is a total preorder sorts.
- Theorem `filter_legacyMergeSort`: the elements of one class keep their order.
-/

namespace LegacyMergeSort

variable {α : Type}

/-- The answers of a comparator that decide the sort make a total preorder. -/
structure Preorders (compare : α → α → Int) : Prop where
  trans : ∀ a b c, compare a b ≤ 0 → compare b c ≤ 0 → compare a c ≤ 0
  total : ∀ a b, compare a b ≤ 0 ∨ compare b a ≤ 0

/-- Lists shorter than this are sorted by insertion. -/
def INSERTIONSORT_THRESHOLD : Nat := 7

/-- Insert an element from the right: it passes the greater ones. -/
def insertBack (compare : α → α → Int) (sorted : List α) (x : α) : List α :=
  (sorted.rdropWhile fun e => 0 < compare e x) ++
    x :: sorted.rtakeWhile fun e => 0 < compare e x

def insertionSort (compare : α → α → Int) (es : List α) : List α :=
  es.foldl (insertBack compare) []

/-- Merge two halves; they are joined when the last of the first is not greater than
the first of the second. -/
def mergeHalves (compare : α → α → Int) (left right : List α) : List α :=
  match left.getLast?, right.head? with
  | some a, some b =>
      if compare a b ≤ 0 then left ++ right
      else left.merge right fun a b => compare a b ≤ 0
  | _, _ => left ++ right

def legacyMergeSort (compare : α → α → Int) (es : List α) : List α :=
  if es.length < INSERTIONSORT_THRESHOLD then insertionSort compare es
  else mergeHalves compare (legacyMergeSort compare (es.take (es.length / 2)))
    (legacyMergeSort compare (es.drop (es.length / 2)))
termination_by es.length
decreasing_by
  all_goals simp only [INSERTIONSORT_THRESHOLD, List.length_take, List.length_drop] at *
  · omega
  · omega

variable {compare compare' : α → α → Int} {es left right : List α}

theorem legacyMergeSort_of_short (compare : α → α → Int)
    (h : es.length < INSERTIONSORT_THRESHOLD) :
    legacyMergeSort compare es = insertionSort compare es := by
  rw [legacyMergeSort, if_pos h]

/-- The elements that stay before an inserted one, and those that it passes. -/
theorem split_insertBack (compare : α → α → Int) (sorted : List α) (x : α) :
    (sorted.rdropWhile fun e => 0 < compare e x) ++
      (sorted.rtakeWhile fun e => 0 < compare e x) = sorted :=
  List.rdropWhile_append_rtakeWhile

/-! ## Permutations -/

theorem insertBack_perm (compare : α → α → Int) (sorted : List α) (x : α) :
    (insertBack compare sorted x).Perm (sorted ++ [x]) := by
  have hsplit := split_insertBack compare sorted x
  conv_rhs => rw [← hsplit]
  unfold insertBack
  rw [List.append_assoc]
  have hswap : ([x] ++ sorted.rtakeWhile fun e => decide (0 < compare e x)).Perm
      ((sorted.rtakeWhile fun e => decide (0 < compare e x)) ++ [x]) :=
    List.perm_append_comm
  exact hswap.append_left _

theorem insertionSort_perm (compare : α → α → Int) (es : List α) :
    (insertionSort compare es).Perm es := by
  induction es using List.reverseRecOn with
  | nil => exact List.Perm.refl _
  | append_singleton es x ih =>
      unfold insertionSort at ih ⊢
      rw [List.foldl_concat]
      exact (insertBack_perm compare _ x).trans (ih.append_right [x])

theorem mergeHalves_perm (compare : α → α → Int) (left right : List α) :
    (mergeHalves compare left right).Perm (left ++ right) := by
  unfold mergeHalves
  split
  · split
    · exact List.Perm.refl _
    · exact List.merge_perm_append _
  · exact List.Perm.refl _

/-- The result is a permutation, whatever the comparator. -/
theorem legacyMergeSort_perm (compare : α → α → Int) (es : List α) :
    (legacyMergeSort compare es).Perm es := by
  fun_induction legacyMergeSort compare es with
  | case1 es hshort => exact insertionSort_perm compare es
  | case2 es hlong ihleft ihright =>
      refine (mergeHalves_perm compare _ _).trans ((ihleft.append ihright).trans ?_)
      rw [List.take_append_drop]

@[simp]
theorem mem_legacyMergeSort {e : α} : e ∈ legacyMergeSort compare es ↔ e ∈ es :=
  (legacyMergeSort_perm compare es).mem_iff

/-! ## Only the answers on the elements matter -/

theorem insertBack_congr {sorted : List α} {x : α}
    (h : ∀ e ∈ sorted, (compare e x ≤ 0 ↔ compare' e x ≤ 0)) :
    insertBack compare sorted x = insertBack compare' sorted x := by
  have hpos : ∀ e ∈ sorted, (decide (0 < compare e x)) = decide (0 < compare' e x) := by
    intro e he
    have hiff := h e he
    exact decide_eq_decide.mpr (by omega)
  unfold insertBack
  induction sorted using List.reverseRecOn with
  | nil => rfl
  | append_singleton sorted e ih =>
      have hlast := hpos e (by simp)
      have hrest : ∀ f ∈ sorted, f ∈ sorted ++ [e] := fun f hf => List.mem_append_left _ hf
      have ih' := ih (fun f hf => h f (hrest f hf)) fun f hf => hpos f (hrest f hf)
      by_cases hpass : 0 < compare e x
      · have hpass' : 0 < compare' e x := by simpa [hpass] using hlast.symm
        rw [List.rdropWhile_concat_pos _ _ _ (by simpa using hpass),
          List.rdropWhile_concat_pos _ _ _ (by simpa using hpass'),
          List.rtakeWhile_concat_pos _ _ _ (by simpa using hpass),
          List.rtakeWhile_concat_pos _ _ _ (by simpa using hpass'),
          ← List.cons_append, ← List.cons_append, ← List.append_assoc, ← List.append_assoc, ih']
      · have hpass' : ¬ 0 < compare' e x := by simpa [hpass] using hlast.symm
        rw [List.rdropWhile_concat_neg _ _ _ (by simpa using hpass),
          List.rdropWhile_concat_neg _ _ _ (by simpa using hpass'),
          List.rtakeWhile_concat_neg _ _ _ (by simpa using hpass),
          List.rtakeWhile_concat_neg _ _ _ (by simpa using hpass')]

theorem insertionSort_congr
    (h : ∀ a ∈ es, ∀ b ∈ es, (compare a b ≤ 0 ↔ compare' a b ≤ 0)) :
    insertionSort compare es = insertionSort compare' es := by
  induction es using List.reverseRecOn with
  | nil => rfl
  | append_singleton es x ih =>
      have hrest : ∀ f ∈ es, f ∈ es ++ [x] := fun f hf => List.mem_append_left _ hf
      have hearlier : insertionSort compare es = insertionSort compare' es :=
        ih fun a ha b hb => h a (hrest a ha) b (hrest b hb)
      unfold insertionSort at hearlier ⊢
      rw [List.foldl_concat, List.foldl_concat, ← hearlier]
      refine insertBack_congr fun e he => ?_
      have hmem : e ∈ es := (insertionSort_perm compare es).mem_iff.mp he
      exact h e (hrest e hmem) x (by simp)

theorem mergeHalves_congr
    (h : ∀ a ∈ left, ∀ b ∈ right, (compare a b ≤ 0 ↔ compare' a b ≤ 0)) :
    mergeHalves compare left right = mergeHalves compare' left right := by
  unfold mergeHalves
  split
  · rename_i a b ha hb
    have hends := h a (List.mem_of_getLast? ha) b (List.mem_of_head? hb)
    have hmerge : (left.merge right fun a b => compare a b ≤ 0).map id =
        (left.map id).merge (right.map id) fun a b => compare' a b ≤ 0 :=
      List.map_merge fun a ha b hb => decide_eq_decide.mpr (h a ha b hb)
    simp only [List.map_id] at hmerge
    by_cases hle : compare a b ≤ 0
    · rw [if_pos hle, if_pos (hends.mp hle)]
    · rw [if_neg hle, if_neg fun hle' => hle (hends.mpr hle'), hmerge]
  · rfl

/-- Only the comparator's answers on the elements matter. -/
theorem legacyMergeSort_congr
    (h : ∀ a ∈ es, ∀ b ∈ es, (compare a b ≤ 0 ↔ compare' a b ≤ 0)) :
    legacyMergeSort compare es = legacyMergeSort compare' es := by
  fun_induction legacyMergeSort compare es with
  | case1 es hshort =>
      rw [legacyMergeSort_of_short compare' hshort]
      exact insertionSort_congr h
  | case2 es hlong ihleft ihright =>
      have htake : ∀ e ∈ es.take (es.length / 2), e ∈ es := fun e => List.mem_of_mem_take
      have hdrop : ∀ e ∈ es.drop (es.length / 2), e ∈ es := fun e => List.mem_of_mem_drop
      rw [legacyMergeSort.eq_1 compare' es, if_neg hlong,
        ← ihleft fun a ha b hb => h a (htake a ha) b (htake b hb),
        ← ihright fun a ha b hb => h a (hdrop a ha) b (hdrop b hb)]
      refine mergeHalves_congr fun a ha b hb => ?_
      exact h a (htake a (mem_legacyMergeSort.mp ha)) b (hdrop b (mem_legacyMergeSort.mp hb))

/-! ## Sorted results -/

/-- In the order of the comparator. -/
def InOrder (compare : α → α → Int) (es : List α) : Prop :=
  es.Pairwise fun a b => compare a b ≤ 0

/-- What stays before an inserted element is not greater. -/
theorem le_of_mem_rdropWhile (hcompare : Preorders compare) {sorted : List α} {x : α}
    (hsorted : InOrder compare sorted) :
    ∀ e ∈ sorted.rdropWhile (fun e => 0 < compare e x), compare e x ≤ 0 := by
  induction sorted using List.reverseRecOn with
  | nil => simp
  | append_singleton sorted last ih =>
      obtain ⟨hfront, -, hcross⟩ := List.pairwise_append.mp hsorted
      by_cases hpass : 0 < compare last x
      · rw [List.rdropWhile_concat_pos _ _ _ (by simpa using hpass)]
        exact ih hfront
      · rw [List.rdropWhile_concat_neg _ _ _ (by simpa using hpass)]
        have hlast : compare last x ≤ 0 := by omega
        intro e he
        rcases List.mem_append.mp he with he | he
        · exact hcompare.trans e last x (hcross e he last (by simp)) hlast
        · rw [List.mem_singleton.mp he]
          exact hlast

theorem inOrder_insertBack (hcompare : Preorders compare) {sorted : List α} (x : α)
    (hsorted : InOrder compare sorted) :
    InOrder compare (insertBack compare sorted x) := by
  have hstay := le_of_mem_rdropWhile hcompare (x := x) hsorted
  have hpassed : ∀ e ∈ sorted.rtakeWhile (fun e => 0 < compare e x), compare x e ≤ 0 := by
    intro e he
    have hgreater : 0 < compare e x := by simpa using List.mem_rtakeWhile_imp he
    rcases hcompare.total e x with hle | hle
    · omega
    · exact hle
  unfold InOrder at hsorted
  rw [← split_insertBack compare sorted x] at hsorted
  obtain ⟨hfront, hback, hcross⟩ := List.pairwise_append.mp hsorted
  refine List.pairwise_append.mpr ⟨hfront, List.pairwise_cons.mpr ⟨hpassed, hback⟩, ?_⟩
  intro a ha b hb
  rcases List.mem_cons.mp hb with rfl | hb
  · exact hstay a ha
  · exact hcross a ha b hb

theorem inOrder_insertionSort (hcompare : Preorders compare) (es : List α) :
    InOrder compare (insertionSort compare es) := by
  induction es using List.reverseRecOn with
  | nil => exact List.Pairwise.nil
  | append_singleton es x ih =>
      unfold insertionSort at ih ⊢
      rw [List.foldl_concat]
      exact inOrder_insertBack hcompare x ih

theorem inOrder_merge (hcompare : Preorders compare) (hleft : InOrder compare left)
    (hright : InOrder compare right) :
    InOrder compare (left.merge right fun a b => compare a b ≤ 0) := by
  have hpairwise : (left.merge right fun a b => compare a b ≤ 0).Pairwise
      fun a b => decide (compare a b ≤ 0) = true := by
    refine List.pairwise_merge ?_ ?_ left right ?_ ?_
    · intro a b c hab hbc
      simp only [decide_eq_true_eq] at hab hbc ⊢
      exact hcompare.trans a b c hab hbc
    · intro a b
      simpa using hcompare.total a b
    · exact hleft.imp fun hab => by simpa using hab
    · exact hright.imp fun hab => by simpa using hab
  exact hpairwise.imp fun hab => by simpa using hab

theorem inOrder_mergeHalves (hcompare : Preorders compare) (hleft : InOrder compare left)
    (hright : InOrder compare right) :
    InOrder compare (mergeHalves compare left right) := by
  unfold mergeHalves
  split
  · rename_i a b ha hb
    split
    · rename_i hle
      obtain ⟨front, rfl⟩ := List.getLast?_eq_some_iff.mp ha
      obtain ⟨back, rfl⟩ := List.head?_eq_some_iff.mp hb
      refine List.pairwise_append.mpr ⟨hleft, hright, fun x hx y hy => ?_⟩
      have hxa : compare x a ≤ 0 := by
        rcases List.mem_append.mp hx with hx | hx
        · exact (List.pairwise_append.mp hleft).2.2 x hx a (by simp)
        · rw [List.mem_singleton.mp hx]
          simpa using hcompare.total a a
      have hxb : compare x b ≤ 0 := hcompare.trans x a b hxa hle
      rcases List.mem_cons.mp hy with rfl | hy
      · exact hxb
      · exact hcompare.trans x b y hxb ((List.pairwise_cons.mp hright).1 y hy)
    · exact inOrder_merge hcompare hleft hright
  · rename_i hends
    rcases left.eq_nil_or_concat with rfl | ⟨front, a, rfl⟩
    · simpa using hright
    · cases right with
      | nil => simpa using hleft
      | cons b back => exact absurd rfl (hends a b (by simp))

/-- A comparator that is a total preorder sorts. -/
theorem inOrder_legacyMergeSort (hcompare : Preorders compare) (es : List α) :
    InOrder compare (legacyMergeSort compare es) := by
  fun_induction legacyMergeSort compare es with
  | case1 es hshort => exact inOrder_insertionSort hcompare es
  | case2 es hlong ihleft ihright => exact inOrder_mergeHalves hcompare ihleft ihright

/-! ## Stability -/

/-- A class of elements that tie. -/
def Ties (compare : α → α → Int) (q : α → Bool) : Prop :=
  ∀ a b, q a = true → q b = true → compare a b ≤ 0

variable {q : α → Bool}

theorem filter_insertBack (hq : Ties compare q) (sorted : List α) (x : α) :
    (insertBack compare sorted x).filter q = sorted.filter q ++ [x].filter q := by
  conv_rhs => rw [← split_insertBack compare sorted x]
  unfold insertBack
  rw [List.filter_append, List.filter_append, ← List.singleton_append, List.filter_append,
    List.append_assoc]
  congr 1
  by_cases hx : q x = true
  · have hnone : (sorted.rtakeWhile fun e => decide (0 < compare e x)).filter q = [] := by
      refine List.filter_eq_nil_iff.mpr fun e he hqe => ?_
      have hgreater : 0 < compare e x := by simpa using List.mem_rtakeWhile_imp he
      have hle := hq e x hqe hx
      omega
    rw [hnone, List.append_nil, List.nil_append]
  · simp [hx]

theorem filter_insertionSort (hq : Ties compare q) (es : List α) :
    (insertionSort compare es).filter q = es.filter q := by
  induction es using List.reverseRecOn with
  | nil => rfl
  | append_singleton es x ih =>
      unfold insertionSort at ih ⊢
      rw [List.foldl_concat, filter_insertBack hq, ih, List.filter_append]

theorem filter_merge (hcompare : Preorders compare) (hq : Ties compare q)
    (hleft : InOrder compare left) :
    (left.merge right fun a b => compare a b ≤ 0).filter q =
      left.filter q ++ right.filter q := by
  induction left generalizing right with
  | nil => simp
  | cons x left ihleft =>
      induction right with
      | nil => simp
      | cons y right ihright =>
          obtain ⟨hx, htail⟩ := List.pairwise_cons.mp hleft
          by_cases hle : compare x y ≤ 0
          · rw [List.cons_merge_cons_pos _ _ _ (by simpa using hle)]
            by_cases hqx : q x = true
            · rw [List.filter_cons_of_pos hqx, ihleft htail, List.filter_cons_of_pos hqx,
                List.cons_append]
            · rw [List.filter_cons_of_neg hqx, ihleft htail, List.filter_cons_of_neg hqx]
          · rw [List.cons_merge_cons_neg _ _ _ (by simpa using hle)]
            by_cases hy : q y = true
            · -- An element of the class of `y` on the left would have been taken before.
              have hnone : (x :: left).filter q = [] := by
                refine List.filter_eq_nil_iff.mpr fun z hz hqz => ?_
                have hzy : compare z y ≤ 0 := hq z y hqz hy
                rcases List.mem_cons.mp hz with rfl | hz
                · exact hle hzy
                · exact hle (hcompare.trans x z y (hx z hz) hzy)
              rw [List.filter_cons_of_pos hy, ihright, hnone, List.nil_append, List.nil_append,
                List.filter_cons_of_pos hy]
            · rw [List.filter_cons_of_neg hy, ihright, List.filter_cons_of_neg hy]

theorem filter_mergeHalves (hcompare : Preorders compare) (hq : Ties compare q)
    (hleft : InOrder compare left) :
    (mergeHalves compare left right).filter q = left.filter q ++ right.filter q := by
  unfold mergeHalves
  split
  · split
    · exact List.filter_append _ _
    · exact filter_merge hcompare hq hleft
  · exact List.filter_append _ _

/-- The elements of one class keep their order. -/
theorem filter_legacyMergeSort (hcompare : Preorders compare) (hq : Ties compare q)
    (es : List α) : (legacyMergeSort compare es).filter q = es.filter q := by
  fun_induction legacyMergeSort compare es with
  | case1 es hshort => exact filter_insertionSort hq es
  | case2 es hlong ihleft ihright =>
      rw [filter_mergeHalves hcompare hq (inOrder_legacyMergeSort hcompare _), ihleft, ihright,
        ← List.filter_append, List.take_append_drop]

end LegacyMergeSort
