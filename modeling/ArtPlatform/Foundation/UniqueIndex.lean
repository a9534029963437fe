import ArtPlatform.Foundation.Space

/-!
# Unique indexes

A secondary index of a space is a function of its rows.  A unique index admits no two
rows of one value: the database rejects a put that would bring a second one, and a
lookup by the index finds at most one row.

Main results:

- Theorem `Space.distinct_put_iff`: the puts that a unique index admits are those that
  keep its values distinct.
- Theorem `Space.getByIndex_isSome_iff`: when a lookup by an index finds a row.
-/

open Keyed (key)

namespace Space

variable {α κ ι : Type} [Keyed α κ] [DecidableEq κ] [DecidableEq ι]
  {index : α → ι} {s : Space α} {e : α}

/-- No two rows have one value of the index. -/
def Distinct (index : α → ι) (s : Space α) : Prop :=
  ∀ e ∈ s.rows, ∀ f ∈ s.rows, index e = index f → e = f

/-- The row of an index value. -/
def getByIndex (index : α → ι) (s : Space α) (i : ι) : Option α :=
  s.rows.find? fun e => index e = i

/-- A row of another key has the index value of a row. -/
def taken (index : α → ι) (s : Space α) (e : α) : Bool :=
  s.rows.any fun f => index f = index e && key f ≠ key e

omit [DecidableEq κ] [DecidableEq ι] in
theorem distinct_empty : Distinct index (empty : Space α) := by
  intro e he
  cases he

omit [DecidableEq κ] in
theorem getByIndex_isSome_iff {i : ι} :
    (s.getByIndex index i).isSome = true ↔ ∃ f ∈ s.rows, index f = i := by
  unfold getByIndex
  rw [List.find?_isSome]
  simp

theorem taken_eq_true_iff :
    s.taken index e = true ↔ ∃ f ∈ s.rows, index f = index e ∧ key f ≠ key e := by
  unfold taken
  rw [List.any_eq_true]
  simp

theorem taken_eq_false_iff :
    s.taken index e = false ↔ ∀ f ∈ s.rows, key f ≠ key e → index f ≠ index e := by
  rw [← Bool.not_eq_true, taken_eq_true_iff]
  constructor
  · intro h f hf hkey hindex
    exact h ⟨f, hf, hindex, hkey⟩
  · rintro h ⟨f, hf, hindex, hkey⟩
    exact h f hf hkey hindex

/-- The puts that a unique index admits are those that keep its values distinct. -/
theorem distinct_put_iff (hs : s.Distinct index) :
    (s.put e).Distinct index ↔ s.taken index e = false := by
  have hsymm : ∀ e f : α, index e = index f → index f = index e := fun _ _ h => h.symm
  rw [taken_eq_false_iff]
  refine (apart_put_iff hsymm hs e).trans ?_
  constructor
  · intro h f hf hkey hindex
    exact h f hf hkey hindex.symm
  · intro h f hf hkey hindex
    exact h f hf hkey hindex.symm

omit [DecidableEq ι] in
theorem Distinct.delete (hs : s.Distinct index) (k : κ) : (s.delete k).Distinct index := by
  intro e he f hf hindex
  exact hs e (List.mem_of_mem_filter he) f (List.mem_of_mem_filter hf) hindex

/-- Without a row of the value, and under a free key, the put is admitted. -/
theorem taken_of_getByIndex_none (h : s.getByIndex index (index e) = none) :
    s.taken index e = false := by
  rw [taken_eq_false_iff]
  intro f hf _ hindex
  have hfound := getByIndex_isSome_iff.mpr ⟨f, hf, hindex⟩
  rw [h] at hfound
  cases hfound

end Space
