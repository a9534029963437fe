import ArtPlatform.Foundation.Space

/-!
# Deleting the rows of a predicate one by one

A sweep selects the keys of the rows that satisfy a predicate and then deletes one row
after the other.  Between two deletions it may put rows back, as long as they satisfy
the predicate and replace a row that does.

Main results:

- Theorem `Sweep.select`: the selected keys are those that are left to delete.
- Theorems `Sweep.delete`, `Sweep.put`: what a deletion and a put keep.
- Theorem `Sweep.forall_rows_of_nil`: a finished sweep leaves no row of the predicate.
-/

open Keyed (key)

variable {α κ : Type} [Keyed α κ] [DecidableEq κ]

/-- The keys are those of the rows that are left of the predicate, and the other rows
are those of the space that the sweep started from. -/
structure Sweep (p : α → Bool) (initial : Space α) (ks : List κ) (s : Space α) : Prop where
  nodup : ks.Nodup
  left : ∀ k, k ∈ ks ↔ ∃ e, s.get k = some e ∧ p e = true
  others : ∀ e, p e = false → (e ∈ s.rows ↔ e ∈ initial.rows)

namespace Sweep

variable {p : α → Bool} {initial s : Space α} {k : κ} {ks : List κ}

/-- The keys of the rows of the predicate are those that are left. -/
theorem select (h : ∀ e, p e = false → (e ∈ s.rows ↔ e ∈ initial.rows)) :
    Sweep p initial ((s.rows.filter p).map key) s where
  nodup := s.nodup.sublist (List.filter_sublist.map key)
  left := by
    intro k
    constructor
    · intro hk
      rcases List.mem_map.mp hk with ⟨e, he, rfl⟩
      have he' := List.mem_filter.mp he
      exact ⟨e, (s.mem_rows_iff e).mp he'.1, he'.2⟩
    · rintro ⟨e, hget, hp⟩
      rw [← Space.key_of_get hget]
      exact List.mem_map_of_mem (List.mem_filter.mpr ⟨Space.mem_rows_of_get hget, hp⟩)
  others := h

/-- The row of a key that is left. -/
theorem exists_get (h : Sweep p initial ks s) (hk : k ∈ ks) :
    ∃ e, s.get k = some e ∧ p e = true :=
  (h.left k).mp hk

theorem delete (h : Sweep p initial (k :: ks) s) : Sweep p initial ks (s.delete k) where
  nodup := (List.nodup_cons.mp h.nodup).2
  left := by
    have hnot : k ∉ ks := (List.nodup_cons.mp h.nodup).1
    intro j
    by_cases hj : j = k
    · subst hj
      rw [s.get_delete_self]
      exact iff_of_false hnot (fun ⟨_, hget, _⟩ => nomatch hget)
    · rw [s.get_delete_of_ne hj, ← h.left j, List.mem_cons, or_iff_right hj]
  others := by
    intro e he
    rw [← h.others e he]
    refine ⟨fun hmem => (List.mem_filter.mp hmem).1, fun hmem => ?_⟩
    refine List.mem_filter.mpr ⟨hmem, ?_⟩
    rw [decide_eq_true_eq]
    rintro rfl
    rcases h.exists_get List.mem_cons_self with ⟨f, hget, hf⟩
    rw [(s.mem_rows_iff e).mp hmem] at hget
    cases hget
    rw [he] at hf
    cases hf

theorem put {e : α} (h : Sweep p initial ks s) (hk : key e ∈ ks) (he : p e = true) :
    Sweep p initial ks (s.put e) where
  nodup := h.nodup
  left := by
    intro j
    by_cases hj : j = key e
    · subst hj
      rw [s.get_put_self]
      exact iff_of_true hk ⟨e, rfl, he⟩
    · rw [s.get_put_of_ne e hj]
      exact h.left j
  others := by
    intro f hf
    rw [← h.others f hf, s.mem_rows_put]
    constructor
    · rintro (rfl | ⟨hmem, -⟩)
      · rw [hf] at he
        cases he
      · exact hmem
    · intro hmem
      refine .inr ⟨hmem, fun hkey => ?_⟩
      rcases h.exists_get hk with ⟨g, hget, hg⟩
      rw [← hkey, (s.mem_rows_iff f).mp hmem] at hget
      cases hget
      rw [hf] at hg
      cases hg

/-- A finished sweep leaves no row of the predicate. -/
theorem forall_rows_of_nil (h : Sweep p initial ([] : List κ) s) :
    ∀ e ∈ s.rows, p e = false := by
  intro e he
  by_contra hp
  have hp' : p e = true := by simpa using hp
  exact List.not_mem_nil ((h.left (key e)).mpr ⟨e, (s.mem_rows_iff e).mp he, hp'⟩)

end Sweep
