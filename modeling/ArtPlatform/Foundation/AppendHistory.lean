import Mathlib.Data.List.Basic
import Mathlib.Data.List.Perm.Basic
import Mathlib.Data.List.Infix

/-!
# Appending by reading and putting back

A register holds a list.  An appender reads the whole list, and later puts the
list that it read with one more element at its end.  Between the two the
register may have changed, and the put then forgets what was appended meanwhile.

Main results:

- Theorem `value_perm_iff_fresh`: the register holds the initial elements and
  every appended one, each as often as it was appended, exactly when every put
  found in the register what its appender had read.
-/

namespace AppendHistory

variable {α : Type}

/-- What an appender puts: the list it has read, and the element it appends. -/
structure Put (α : Type) where
  snapshot : List α
  element : α

/-- The register after some puts, the last one last. -/
def value (init : List α) (puts : List (Put α)) : List α :=
  puts.foldl (fun _ p => p.snapshot ++ [p.element]) init

/-- What the puts append. -/
def elements (puts : List (Put α)) : List α :=
  puts.map Put.element

/-- Every put extends a list that the register held at or before that put. -/
inductive History (init : List α) : List (Put α) → Prop
  | nil : History init []
  | snoc {ps qs : List (Put α)} {p : Put α} (h : History init ps) (hqs : qs <+: ps)
      (hp : p.snapshot = value init qs) : History init (ps ++ [p])

/-- Every put extends what the register holds at that put. -/
inductive Fresh (init : List α) : List (Put α) → Prop
  | nil : Fresh init []
  | snoc {ps : List (Put α)} {p : Put α} (h : Fresh init ps)
      (hp : p.snapshot = value init ps) : Fresh init (ps ++ [p])

variable {init : List α} {ps qs : List (Put α)} {p : Put α}

@[simp]
theorem value_nil : value init [] = init :=
  rfl

@[simp]
theorem value_snoc : value init (ps ++ [p]) = p.snapshot ++ [p.element] := by
  simp [value]

@[simp]
theorem elements_snoc : elements (ps ++ [p]) = elements ps ++ [p.element] := by
  simp [elements]

/-- What the last put of a fresh history found, and that the ones before are fresh. -/
theorem Fresh.inv (h : Fresh init (ps ++ [p])) :
    Fresh init ps ∧ p.snapshot = value init ps := by
  generalize hqs : ps ++ [p] = qs at h
  cases h with
  | nil => simp at hqs
  | snoc h hp =>
      obtain ⟨rfl, heq⟩ := List.append_inj' hqs rfl
      obtain rfl : p = _ := by simpa using heq
      exact ⟨h, hp⟩

/-- In a fresh history nothing is lost. -/
theorem Fresh.value_eq (h : Fresh init ps) : value init ps = init ++ elements ps := by
  induction h with
  | nil => simp [elements]
  | snoc _ hp ih => rw [value_snoc, hp, ih, elements_snoc, List.append_assoc]

/-! ## Lost elements -/

/-- The register has never held more than the initial elements and those that were
appended until then. -/
theorem length_value_le (h : History init ps) :
    ∀ qs, qs <+: ps → (value init qs).length ≤ init.length + qs.length := by
  induction h with
  | nil =>
      intro qs hqs
      rw [List.prefix_nil.mp hqs]
      simp
  | snoc h hearly hp ih =>
      rename_i ps rs p
      intro qs hqs
      rcases List.prefix_concat_iff.mp hqs with rfl | hqs
      · have hread := ih rs hearly
        have hlength := hearly.length_le
        rw [value_snoc, hp, List.length_append, List.length_append]
        simp only [List.length_singleton]
        omega
      · exact ih qs hqs

/-- After a put that is not fresh, everything that the register has held is too
short to hold all elements: a later put cannot bring the lost ones back. -/
theorem length_value_lt (h : History init ps) (hstale : ¬ Fresh init ps) :
    ∀ qs, qs <+: ps → (value init qs).length < init.length + ps.length := by
  induction h with
  | nil => exact absurd Fresh.nil hstale
  | snoc h hearly hp ih =>
      rename_i ps rs p
      intro qs hqs
      by_cases hfresh : Fresh init ps
      · -- The last put is the first stale one: it extends a shorter, earlier list.
        have hne : rs ≠ ps := fun heq => hstale (hfresh.snoc (heq ▸ hp))
        have hshorter : rs.length < ps.length :=
          Nat.lt_of_le_of_ne hearly.length_le fun heq => hne (hearly.eq_of_length heq)
        have hread := length_value_le h rs hearly
        rcases List.prefix_concat_iff.mp hqs with rfl | hqs
        · rw [value_snoc, hp]
          simp only [List.length_append, List.length_singleton]
          omega
        · have hearlier := length_value_le h qs hqs
          have hlength := hqs.length_le
          rw [List.length_append, List.length_singleton]
          omega
      · have hread := ih hfresh rs hearly
        rcases List.prefix_concat_iff.mp hqs with rfl | hqs
        · rw [value_snoc, hp]
          simp only [List.length_append, List.length_singleton]
          omega
        · have hearlier := ih hfresh qs hqs
          rw [List.length_append, List.length_singleton]
          omega

/-- The register holds every element as often as it was appended exactly when
every put was fresh. -/
theorem value_perm_iff_fresh (h : History init ps) :
    (value init ps).Perm (init ++ elements ps) ↔ Fresh init ps := by
  constructor
  · intro hperm
    by_contra hstale
    have hlt := length_value_lt h hstale ps (List.prefix_refl ps)
    have hlength := hperm.length_eq
    rw [List.length_append, elements, List.length_map] at hlength
    omega
  · intro hfresh
    rw [hfresh.value_eq]

end AppendHistory
