import Mathlib.Data.List.Basic
import Mathlib.Data.List.Nodup
import Mathlib.Data.List.Perm.Basic
import Mathlib.Data.List.Count
import Mathlib.Tactic.Common

/-!
# Selecting rows by optional criteria

A criterion is a list of admitted values, and admits everything when it is empty.
Rows are selected by a test on all of them, or key by key: the rows of the first key,
then those of the second, and so on.  A key that is listed twice brings its rows
twice, so the two ways agree exactly when that happens to no row.

Main results:

- Theorem `count_byKeys`: how often a row comes when rows are selected key by key.
- Theorem `nodup_byKeys_iff`: when no row comes twice.
- Theorem `perm_byKeys_iff`: when the selection key by key is the selection by
  membership.
- Theorem `perm_filter_byKeys_iff`: the same for the rows that pass a test.
-/

namespace Selection

variable {α κ : Type} [DecidableEq κ]

/-- A criterion without values admits all. -/
def admits (criterion : List κ) (k : κ) : Bool :=
  criterion.isEmpty || criterion.contains k

/-- Filter by a criterion, when there is one. -/
def filterBy (criterion : List κ) (f : α → κ) (es : List α) : List α :=
  if criterion.isEmpty then es else es.filter fun e => criterion.contains (f e)

/-- The rows of the listed keys, key by key. -/
def byKeys (rows : List α) (key : α → κ) (ks : List κ) : List α :=
  ks.flatMap fun k => rows.filter fun e => key e = k

variable {rows : List α} {key : α → κ} {ks : List κ} {k : κ} {e : α}

@[simp]
theorem admits_nil (k : κ) : admits [] k = true :=
  rfl

theorem admits_of_ne_nil {criterion : List κ} (h : criterion ≠ []) :
    admits criterion k = criterion.contains k := by
  unfold admits
  rw [List.isEmpty_eq_false_iff.mpr h, Bool.false_or]

/-- Filtering by a criterion is filtering by what it admits. -/
theorem filterBy_eq (criterion : List κ) (f : α → κ) (es : List α) :
    filterBy criterion f es = es.filter fun e => admits criterion (f e) := by
  unfold filterBy admits
  split
  · rename_i hempty
    simp [hempty]
  · rename_i hempty
    simp [hempty]

/-- A second test leaves out nothing exactly when the first one implies it. -/
theorem perm_filter_and_iff (es : List α) (p q : α → Bool) :
    (es.filter p).Perm (es.filter fun e => p e && q e) ↔
      ∀ e ∈ es, p e = true → q e = true := by
  have hboth : (es.filter fun e => p e && q e) = (es.filter p).filter q := by
    rw [List.filter_filter]
    exact List.filter_congr fun e _ => Bool.and_comm _ _
  rw [hboth]
  constructor
  · intro hperm e he hp
    exact (List.mem_filter.mp (hperm.mem_iff.mp (List.mem_filter.mpr ⟨he, hp⟩))).2
  · intro h
    have hall : (es.filter p).filter q = es.filter p := by
      apply List.filter_eq_self.mpr
      intro e he
      obtain ⟨hmem, hp⟩ := List.mem_filter.mp he
      exact h e hmem hp
    rw [hall]

@[simp]
theorem byKeys_nil (rows : List α) (key : α → κ) : byKeys rows key [] = [] :=
  rfl

@[simp]
theorem byKeys_cons (rows : List α) (key : α → κ) (k : κ) (ks : List κ) :
    byKeys rows key (k :: ks) = (rows.filter fun e => key e = k) ++ byKeys rows key ks :=
  rfl

theorem mem_byKeys : e ∈ byKeys rows key ks ↔ e ∈ rows ∧ key e ∈ ks := by
  unfold byKeys
  rw [List.mem_flatMap]
  constructor
  · rintro ⟨k, hk, he⟩
    obtain ⟨hrow, hkey⟩ := List.mem_filter.mp he
    have hkey' : key e = k := by simpa using hkey
    exact ⟨hrow, hkey' ▸ hk⟩
  · rintro ⟨hrow, hk⟩
    exact ⟨key e, hk, List.mem_filter.mpr ⟨hrow, by simp⟩⟩

/-- A test on the rows may come before or after the selection. -/
theorem filter_byKeys (p : α → Bool) (rows : List α) (key : α → κ) (ks : List κ) :
    (byKeys rows key ks).filter p = byKeys (rows.filter p) key ks := by
  induction ks with
  | nil => rfl
  | cons k ks ih =>
      rw [byKeys_cons, byKeys_cons, List.filter_append, ih, List.filter_filter,
        List.filter_filter]
      congr 1
      refine List.filter_congr fun e _ => ?_
      rw [Bool.and_comm]

/-- A row comes as often as its key is listed. -/
theorem count_byKeys [DecidableEq α] (rows : List α) (key : α → κ) (ks : List κ) (e : α) :
    (byKeys rows key ks).count e = ks.count (key e) * rows.count e := by
  induction ks with
  | nil => simp
  | cons k ks ih =>
      rw [byKeys_cons, List.count_append, ih]
      by_cases hk : key e = k
      · subst hk
        rw [List.count_filter (by simp), List.count_cons_self, Nat.add_mul, Nat.one_mul,
          Nat.add_comm]
      · have hnone : e ∉ rows.filter fun e => key e = k := by
          simp [hk]
        rw [List.count_eq_zero.mpr hnone, List.count_cons_of_ne (Ne.symm hk), Nat.zero_add]

/-- No row comes twice exactly when no key with a row is listed twice. -/
theorem nodup_byKeys_iff (hrows : rows.Nodup) :
    (byKeys rows key ks).Nodup ↔ ∀ e ∈ rows, ks.count (key e) ≤ 1 := by
  classical
  rw [List.nodup_iff_count_le_one]
  constructor
  · intro h e he
    have hcount := h e
    rwa [count_byKeys, List.count_eq_one_of_mem hrows he, Nat.mul_one] at hcount
  · intro h e
    rw [count_byKeys]
    by_cases he : e ∈ rows
    · rw [List.count_eq_one_of_mem hrows he, Nat.mul_one]
      exact h e he
    · rw [List.count_eq_zero_of_not_mem he, Nat.mul_zero]
      exact Nat.zero_le 1

/-- Selecting key by key and selecting by membership agree exactly when no key with a
row is listed twice. -/
theorem perm_byKeys_iff (hrows : rows.Nodup) :
    (byKeys rows key ks).Perm (rows.filter fun e => ks.contains (key e)) ↔
      ∀ e ∈ rows, ks.count (key e) ≤ 1 := by
  have hselected : (rows.filter fun e => ks.contains (key e)).Nodup := hrows.filter _
  rw [← nodup_byKeys_iff hrows]
  constructor
  · intro hperm
    exact hperm.nodup_iff.mpr hselected
  · intro hnodup
    rw [List.perm_ext_iff_of_nodup hnodup hselected]
    intro e
    rw [mem_byKeys, List.mem_filter, List.contains_iff_mem]

/-- The same with a test on the rows: it is about the rows that pass the test. -/
theorem perm_filter_byKeys_iff (hrows : rows.Nodup) (p : α → Bool) :
    ((byKeys rows key ks).filter p).Perm
        (rows.filter fun e => ks.contains (key e) && p e) ↔
      ∀ e ∈ rows, (ks.contains (key e) && p e) = true → ks.count (key e) ≤ 1 := by
  have htested : (rows.filter fun e => ks.contains (key e) && p e) =
      (rows.filter p).filter fun e => ks.contains (key e) := by
    rw [List.filter_filter]
  rw [filter_byKeys, htested, perm_byKeys_iff (hrows.filter p)]
  constructor
  · intro h e he hadmitted
    rw [Bool.and_eq_true] at hadmitted
    exact h e (List.mem_filter.mpr ⟨he, hadmitted.2⟩)
  · intro h e he
    obtain ⟨hrow, hp⟩ := List.mem_filter.mp he
    by_cases hlisted : key e ∈ ks
    · exact h e hrow (by simp [hlisted, hp])
    · rw [List.count_eq_zero.mpr hlisted]
      exact Nat.zero_le 1

end Selection
