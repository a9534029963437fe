import Mathlib.Data.List.Basic
import Mathlib.Data.List.Induction
import Mathlib.Data.List.Nodup
import Mathlib.Tactic.Common

/-!
# Keyed spaces

A space is a table of rows with a primary key: `put` replaces the row of the
same key, `get` finds it, `selectAll` lists the rows.  The rows carry the proof
that no key occurs twice, so a row of a space is determined by its key and the
later developments never argue about duplicates again.

Main results:

- Theorem `Space.get_put`: a `put` is visible at its own key and nowhere else.
- Theorem `Space.mem_rows_iff`: the rows are exactly what `get` finds.
- Theorem `Space.apart_put_iff`: which puts keep rows apart.
- Theorem `Space.get_deleteAll_filter`: what is left when the rows of a predicate
  are removed.
- Theorem `Space.get_updateWhere`: rewriting all rows that satisfy a predicate
  is a point-wise rewriting of `get`.
- Theorem `Space.rows_of_sweep`: a sweep leaves no row of the swept predicate.
- Theorem `Space.get_freshKey`: the auto-increment key is free.
-/

/-- Rows that carry their own primary key. -/
class Keyed (α : Type) (κ : outParam Type) where
  key : α → κ

open Keyed (key)

/-- A table of rows with pairwise distinct primary keys. -/
structure Space (α : Type) {κ : Type} [Keyed α κ] where
  rows : List α
  nodup : (rows.map key).Nodup

namespace Space

variable {α κ : Type} [Keyed α κ] [DecidableEq κ]

/-- The space without rows. -/
def empty : Space α where
  rows := []
  nodup := List.nodup_nil

/-- The row of a key. -/
def get (s : Space α) (k : κ) : Option α :=
  s.rows.find? fun e => key e = k

/-- Insert a row, replacing the row of the same key. -/
def put (s : Space α) (e : α) : Space α where
  rows := e :: s.rows.filter fun f => key f ≠ key e
  nodup := by
    rw [List.map_cons, List.nodup_cons]
    refine ⟨?_, s.nodup.sublist (List.filter_sublist.map key)⟩
    intro h
    obtain ⟨f, hf, hkey⟩ := List.mem_map.mp h
    simp [hkey] at hf

/-- Remove the row of a key. -/
def delete (s : Space α) (k : κ) : Space α where
  rows := s.rows.filter fun f => key f ≠ k
  nodup := s.nodup.sublist (List.filter_sublist.map key)

/-- All rows. -/
def selectAll (s : Space α) : List α :=
  s.rows

/-! ## Rows and keys -/

omit [DecidableEq κ] in
/-- Two rows of one key are the same row. -/
theorem row_eq_of_key_eq (s : Space α) {e f : α} (he : e ∈ s.rows)
    (hf : f ∈ s.rows) (hkey : key e = key f) : e = f :=
  List.inj_on_of_nodup_map s.nodup he hf hkey

/-- `get` answers with a row of the key it was asked for. -/
theorem key_of_get {s : Space α} {k : κ} {e : α} (h : s.get k = some e) :
    key e = k := by
  simpa using List.find?_some h

theorem mem_rows_of_get {s : Space α} {k : κ} {e : α} (h : s.get k = some e) :
    e ∈ s.rows :=
  List.mem_of_find?_eq_some h

/-- The rows are exactly the answers of `get`. -/
theorem mem_rows_iff (s : Space α) (e : α) :
    e ∈ s.rows ↔ s.get (key e) = some e := by
  constructor
  · intro he
    cases hget : s.get (key e) with
    | none =>
        have habsent := List.find?_eq_none.mp hget e he
        simp at habsent
    | some f =>
        have hkey : key f = key e := key_of_get hget
        rw [s.row_eq_of_key_eq (mem_rows_of_get hget) he hkey]
  · exact mem_rows_of_get

/-- A key without a row is the key of no row. -/
theorem get_eq_none_iff (s : Space α) (k : κ) :
    s.get k = none ↔ ∀ e ∈ s.rows, key e ≠ k := by
  simp [get]

@[simp]
theorem get_empty (k : κ) : (empty : Space α).get k = none :=
  rfl

/-! ## Point updates -/

private theorem find?_filter_of_imp (l : List α) (p q : α → Bool)
    (himp : ∀ e, q e = true → p e = true) :
    (l.filter p).find? q = l.find? q := by
  induction l with
  | nil => rfl
  | cons e l ih =>
      by_cases hq : q e = true
      · simp [himp e hq, hq]
      · by_cases hp : p e = true <;> simp [hp, hq, ih]

@[simp]
theorem get_put_self (s : Space α) (e : α) : (s.put e).get (key e) = some e := by
  simp [get, put]

theorem get_put_of_ne (s : Space α) (e : α) {k : κ} (h : k ≠ key e) :
    (s.put e).get k = s.get k := by
  have hne : ¬ key e = k := fun heq => h heq.symm
  simp only [get, put, List.find?_cons, hne, decide_false]
  refine find?_filter_of_imp _ _ _ fun f hf => ?_
  simp only [decide_eq_true_eq] at hf
  simpa [hf] using h

/-- A `put` is visible at its own key and nowhere else. -/
theorem get_put (s : Space α) (e : α) (k : κ) :
    (s.put e).get k = if k = key e then some e else s.get k := by
  split
  · subst k
    exact s.get_put_self e
  · exact s.get_put_of_ne e ‹_›

@[simp]
theorem get_delete_self (s : Space α) (k : κ) : (s.delete k).get k = none := by
  simp [get, delete]

theorem get_delete_of_ne (s : Space α) {j k : κ} (h : j ≠ k) :
    (s.delete k).get j = s.get j := by
  refine find?_filter_of_imp _ _ _ fun f hf => ?_
  simp only [decide_eq_true_eq] at hf
  simpa [hf] using h

/-- There is nothing to remove at a free key. -/
theorem delete_of_get_eq_none {s : Space α} {k : κ} (h : s.get k = none) :
    s.delete k = s := by
  have hrows : (s.rows.filter fun f => key f ≠ k) = s.rows := by
    apply List.filter_eq_self.mpr
    intro f hf
    exact decide_eq_true ((s.get_eq_none_iff k).mp h f hf)
  cases s
  unfold delete
  simp only [hrows]

/-- The rows after a `put`: the new row, and the old ones of other keys. -/
theorem mem_rows_put (s : Space α) (e f : α) :
    f ∈ (s.put e).rows ↔ f = e ∨ f ∈ s.rows ∧ key f ≠ key e := by
  simp [put]

/-- A put under a free key adds the row. -/
theorem rows_put_of_get_eq_none {s : Space α} {e : α} (h : s.get (key e) = none) :
    (s.put e).rows = e :: s.rows := by
  have hothers : (s.delete (key e)).rows = s.rows := by
    rw [delete_of_get_eq_none h]
  exact congrArg (e :: ·) hothers

/-- Of two puts at one key the second remains. -/
theorem rows_put_put (s : Space α) {e f : α} (hkey : key e = key f) :
    ((s.put e).put f).rows = (s.put f).rows := by
  simp [put, hkey, List.filter_filter]

/-- A put keeps the rows apart, in whatever symmetric relation they must not meet,
exactly when the new row meets none of the others. -/
theorem apart_put_iff {R : α → α → Prop} (hsymm : ∀ e f, R e f → R f e) {s : Space α}
    (happart : ∀ e ∈ s.rows, ∀ f ∈ s.rows, R e f → e = f) (e : α) :
    (∀ f ∈ (s.put e).rows, ∀ g ∈ (s.put e).rows, R f g → f = g) ↔
      ∀ f ∈ s.rows, key f ≠ key e → ¬ R e f := by
  constructor
  · intro h f hf hkey hR
    have hrow : f ∈ (s.put e).rows := (s.mem_rows_put e f).mpr (.inr ⟨hf, hkey⟩)
    have heq := h e ((s.mem_rows_put e e).mpr (.inl rfl)) f hrow hR
    exact hkey (congrArg key heq.symm)
  · intro h f hf g hg hR
    rcases (s.mem_rows_put e f).mp hf with rfl | ⟨hfold, hfkey⟩
    · rcases (s.mem_rows_put f g).mp hg with rfl | ⟨hgold, hgkey⟩
      · rfl
      · exact absurd hR (h g hgold hgkey)
    · rcases (s.mem_rows_put e g).mp hg with rfl | ⟨hgold, -⟩
      · exact absurd (hsymm f g hR) (h f hfold hfkey)
      · exact happart f hfold g hgold hR

/-- Remove the rows of some keys. -/
def deleteAll (s : Space α) (ks : List κ) : Space α :=
  ks.foldl delete s

theorem get_deleteAll (s : Space α) (ks : List κ) (k : κ) :
    (s.deleteAll ks).get k = if k ∈ ks then none else s.get k := by
  induction ks generalizing s with
  | nil => simp [deleteAll]
  | cons j ks ih =>
      rw [deleteAll, List.foldl_cons, ← deleteAll, ih]
      by_cases hk : k = j
      · subst hk
        simp
      · rw [get_delete_of_ne s hk]
        simp [hk]

/-- Removing the keys of the rows of a predicate leaves the rows that do not
satisfy it. -/
theorem get_deleteAll_filter (s : Space α) (p : α → Bool) (k : κ) :
    (s.deleteAll ((s.rows.filter p).map key)).get k = (s.get k).filter fun e => !p e := by
  rw [get_deleteAll]
  cases hget : s.get k with
  | none => simp
  | some e =>
      have hkey : key e = k := key_of_get hget
      have hmem : k ∈ (s.rows.filter p).map key ↔ p e = true := by
        constructor
        · intro h
          obtain ⟨f, hf, hfk⟩ := List.mem_map.mp h
          have hf' := List.mem_filter.mp hf
          rw [s.row_eq_of_key_eq (mem_rows_of_get hget) hf'.1 (hkey.trans hfk.symm)]
          exact hf'.2
        · intro hp
          rw [← hkey]
          exact List.mem_map_of_mem (List.mem_filter.mpr ⟨mem_rows_of_get hget, hp⟩)
      by_cases hp : p e = true
      · simp [hmem, hp, Option.filter]
      · simp [hmem, hp, Option.filter]

/-! ## Bulk rewriting -/

/-- Put one row after the other. -/
def putAll (s : Space α) (es : List α) : Space α :=
  es.foldl put s

theorem get_putAll_of_forall_ne (s : Space α) (es : List α) {k : κ}
    (h : ∀ e ∈ es, key e ≠ k) : (s.putAll es).get k = s.get k := by
  induction es generalizing s with
  | nil => rfl
  | cons e es ih =>
      have htail : ∀ f ∈ es, key f ≠ k := fun f hf => h f (List.mem_cons_of_mem e hf)
      calc
        ((s.put e).putAll es).get k = (s.put e).get k := ih (s.put e) htail
        _ = s.get k := s.get_put_of_ne e fun hk => h e List.mem_cons_self hk.symm

theorem get_putAll_of_mem (s : Space α) {es : List α} (hnodup : (es.map key).Nodup)
    {e : α} (he : e ∈ es) : (s.putAll es).get (key e) = some e := by
  induction es generalizing s with
  | nil => cases he
  | cons f es ih =>
      rw [List.map_cons, List.nodup_cons] at hnodup
      rcases List.mem_cons.mp he with rfl | he
      · have hother : ∀ g ∈ es, key g ≠ key e := fun g hg hkey =>
          hnodup.1 (hkey ▸ List.mem_map_of_mem hg)
        exact ((s.put e).get_putAll_of_forall_ne es hother).trans (s.get_put_self e)
      · exact ih (s.put f) hnodup.2 he

/-- Putting rewritten rows back rewrites them, however often each is put. -/
theorem get_putAll_map [DecidableEq α] (s : Space α) (es : List α) (f : α → α)
    (hf : ∀ e, key (f e) = key e) (hes : ∀ e ∈ es, s.get (key e) = some e) (k : κ) :
    (s.putAll (es.map f)).get k = (s.get k).map fun e => if e ∈ es then f e else e := by
  induction es using List.reverseRecOn with
  | nil => simp [putAll]
  | append_singleton es e ih =>
      have hearlier : ∀ g ∈ es, s.get (key g) = some g :=
        fun g hg => hes g (List.mem_append_left [e] hg)
      have hlast : s.get (key e) = some e := hes e (List.mem_append_right es (by simp))
      have hstep : s.putAll ((es ++ [e]).map f) = (s.putAll (es.map f)).put (f e) := by
        simp [putAll]
      rw [hstep, get_put, hf]
      by_cases hk : k = key e
      · subst hk
        simp [hlast]
      · rw [if_neg hk, ih hearlier]
        cases hget : s.get k with
        | none => rfl
        | some g =>
            have hne : g ≠ e := by
              rintro rfl
              exact hk (key_of_get hget).symm
            simp [hne]

/-- Rewrite every row that satisfies a predicate: select the rows first, then
put the rewritten ones back one after the other. -/
def updateWhere (s : Space α) (p : α → Bool) (f : α → α) : Space α :=
  s.putAll ((s.selectAll.filter p).map f)

/-- Bulk rewriting is point-wise rewriting of `get`. -/
theorem get_updateWhere (s : Space α) (p : α → Bool) (f : α → α)
    (hf : ∀ e, key (f e) = key e) (k : κ) :
    (s.updateWhere p f).get k = (s.get k).map fun e => if p e then f e else e := by
  have hkeys : (((s.rows.filter p).map f).map key) = (s.rows.filter p).map key := by
    simp [Function.comp_def, hf]
  have hnodup : (((s.rows.filter p).map f).map key).Nodup := by
    rw [hkeys]
    exact s.nodup.sublist (List.filter_sublist.map key)
  -- A key is rewritten when its row satisfies the predicate, and kept otherwise.
  have hkeep : ∀ (_ : ∀ e ∈ s.rows, key e = k → p e = false),
      (s.updateWhere p f).get k = s.get k := by
    intro hrow
    refine s.get_putAll_of_forall_ne _ fun e he hkey => ?_
    obtain ⟨g, hg, rfl⟩ := List.mem_map.mp he
    have hg' := List.mem_filter.mp hg
    simp [hrow g hg'.1 ((hf g).symm.trans hkey)] at hg'
  cases hget : s.get k with
  | none =>
      rw [hkeep, hget]
      · rfl
      · exact fun e he hkey => absurd hkey ((s.get_eq_none_iff k).mp hget e he)
  | some e =>
      have hkey : key e = k := key_of_get hget
      by_cases hp : p e = true
      · have hmem : f e ∈ (s.rows.filter p).map f :=
          List.mem_map_of_mem (List.mem_filter.mpr ⟨mem_rows_of_get hget, hp⟩)
        have hput := s.get_putAll_of_mem hnodup hmem
        rw [hf, hkey] at hput
        simpa [hp, updateWhere, selectAll] using hput
      · rw [hkeep, hget]
        · simp [hp]
        · intro g hg hgk
          rw [s.row_eq_of_key_eq hg (mem_rows_of_get hget) (hgk.trans hkey.symm)]
          simpa using hp

/-- A space whose `get` is a point-wise rewriting has the rewritten rows. -/
theorem mem_rows_of_get_map {s s' : Space α} {f : α → α} (hf : ∀ e, key (f e) = key e)
    (h : ∀ k, s'.get k = (s.get k).map f) (e : α) :
    e ∈ s'.rows ↔ ∃ g ∈ s.rows, f g = e := by
  rw [s'.mem_rows_iff, h]
  constructor
  · intro hget
    obtain ⟨g, hg, rfl⟩ := Option.map_eq_some_iff.mp hget
    exact ⟨g, mem_rows_of_get hg, rfl⟩
  · rintro ⟨g, hg, rfl⟩
    rw [hf, (s.mem_rows_iff g).mp hg]
    rfl

/-- A sweep that rewrites the rows of a predicate out of it leaves no such row, and
keeps the others. -/
theorem rows_of_sweep {s s' : Space α} {p : α → Bool} {f : α → α}
    (hf : ∀ e, key (f e) = key e) (hp : ∀ e, p (f e) = false)
    (h : ∀ k, s'.get k = (s.get k).map fun e => if p e then f e else e) :
    (∀ e ∈ s'.rows, p e = false) ∧ ∀ e ∈ s.rows, p e = false → e ∈ s'.rows := by
  have hkey : ∀ e, key (if p e then f e else e) = key e := by
    intro e
    split
    · exact hf e
    · rfl
  have hrows := mem_rows_of_get_map hkey h
  constructor
  · intro e he
    obtain ⟨g, -, rfl⟩ := (hrows e).mp he
    by_cases hg : p g = true
    · rw [if_pos hg]
      exact hp g
    · rw [if_neg hg]
      simpa using hg
  · intro e he hnot
    refine (hrows e).mpr ⟨e, he, ?_⟩
    rw [hnot]
    rfl

end Space

/-! ## Auto-increment -/

namespace Space

variable {α : Type} [Keyed α Nat]

/-- The key an auto-incremented row gets: one more than the largest key. -/
def freshKey (s : Space α) : Nat :=
  s.rows.foldr (fun e m => max (key e) m) 0 + 1

theorem key_lt_freshKey (s : Space α) {e : α} (he : e ∈ s.rows) :
    key e < s.freshKey := by
  have hle : ∀ l : List α, e ∈ l → key e ≤ l.foldr (fun e m => max (key e) m) 0 := by
    intro l
    induction l with
    | nil => intro h; cases h
    | cons f l ih =>
        intro h
        rcases List.mem_cons.mp h with rfl | h
        · exact Nat.le_max_left _ _
        · exact Nat.le_trans (ih h) (Nat.le_max_right _ _)
  exact Nat.lt_succ_of_le (hle s.rows he)

/-- The auto-increment key is free. -/
theorem get_freshKey (s : Space α) : s.get s.freshKey = none := by
  rw [get_eq_none_iff]
  intro e he hkey
  exact absurd (s.key_lt_freshKey he) (by omega)

end Space
