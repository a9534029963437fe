import Mathlib.Data.List.Infix
import Mathlib.Tactic.Common

/-!
# Replacing the occurrences of a list

The occurrences of a list in a text are taken from left to right, without overlaps; what is left
of the text between them are the pieces.  Replacing the occurrences joins the pieces again, with
the replacement between them.

Main results:

- Theorem `intercalate_pieces`: with the list itself between them the pieces are the text.
- Theorem `not_infix_of_mem_pieces`: no piece contains the list.
- Theorem `pieces_of_first`: the pieces of a text whose first occurrence is known.
- Theorem `infix_intercalate_iff`: a list no longer than the separator occurs in joined pieces
  exactly if it occurs in one piece with the separators next to it.
- Theorem `infix_of_mem_stretches`: where the separator repeats a character with which the
  list neither begins nor ends, it occurs in a piece itself.
-/

namespace Replacement

variable {α : Type}

section

variable [DecidableEq α]

/-- The pieces of a text behind the first `skip` characters. -/
def piecesFrom (old : List α) : Nat → List α → List (List α)
  | _, [] => [[]]
  | skip + 1, _ :: text => piecesFrom old skip text
  | 0, c :: text =>
      if old <+: c :: text then [] :: piecesFrom old (old.length - 1) text
      else (piecesFrom old 0 text).modifyHead (c :: ·)

def pieces (old text : List α) : List (List α) :=
  piecesFrom old 0 text

/-- The text with every occurrence replaced. -/
def replace (old new text : List α) : List α :=
  List.intercalate new (pieces old text)

variable {old new text : List α}

attribute [local simp] piecesFrom in
theorem piecesFrom_ne_nil (old : List α) (skip : Nat) (text : List α) :
    piecesFrom old skip text ≠ [] := by
  induction text generalizing skip with
  | nil => cases skip <;> simp
  | cons c text ih =>
      cases skip with
      | succ skip => exact ih skip
      | zero =>
          rw [piecesFrom]
          split
          · exact List.cons_ne_nil _ _
          · obtain ⟨piece, rest, hpieces⟩ := List.exists_cons_of_ne_nil (ih 0)
            rw [hpieces]
            exact List.cons_ne_nil _ _

theorem piecesFrom_drop (old : List α) (skip : Nat) (text : List α) :
    piecesFrom old skip text = pieces old (text.drop skip) := by
  induction text generalizing skip with
  | nil => cases skip <;> rfl
  | cons c text ih =>
      cases skip with
      | zero => rfl
      | succ skip => exact ih skip

theorem pieces_nil (old : List α) : pieces old [] = [[]] :=
  rfl

/-- A text that begins with the list. -/
theorem pieces_append_self (hold : old ≠ []) (text : List α) :
    pieces old (old ++ text) = [] :: pieces old text := by
  obtain ⟨c, rest, rfl⟩ := List.exists_cons_of_ne_nil hold
  have hprefix : c :: rest <+: c :: (rest ++ text) := List.prefix_append (c :: rest) text
  rw [pieces, List.cons_append, piecesFrom, if_pos hprefix, piecesFrom_drop]
  simp

/-- A text that does not begin with the list. -/
theorem pieces_cons_of_mismatch {c : α} (h : ¬ old <+: c :: text) :
    pieces old (c :: text) = (pieces old text).modifyHead (c :: ·) := by
  rw [pieces, piecesFrom, if_neg h]
  rfl

/-- The first occurrence is behind `before`. -/
theorem pieces_of_first (hold : old ≠ []) (before text : List α)
    (hfirst : ∀ i < before.length, ¬ old <+: (before ++ (old ++ text)).drop i) :
    pieces old (before ++ (old ++ text)) = before :: pieces old text := by
  induction before with
  | nil => exact pieces_append_self hold text
  | cons c before ih =>
      have hrest : ∀ i < before.length, ¬ old <+: (before ++ (old ++ text)).drop i :=
        fun i hi => hfirst (i + 1) (Nat.succ_lt_succ hi)
      have hhead : ¬ old <+: c :: (before ++ (old ++ text)) := hfirst 0 (Nat.succ_pos _)
      rw [List.cons_append, pieces_cons_of_mismatch hhead, ih hrest]
      rfl

/-- A text without an occurrence is one piece. -/
theorem pieces_of_not_infix (h : ¬ old <:+: text) : pieces old text = [text] := by
  induction text with
  | nil => rfl
  | cons c text ih =>
      rw [List.infix_cons_iff, not_or] at h
      rw [pieces_cons_of_mismatch h.1, ih h.2]
      rfl

/-- The list and the induction: a text begins with the list and goes on, or has another first
character, or is empty. -/
theorem pieces_induction {motive : List α → Prop} (hold : old ≠ []) (nil : motive [])
    (occurrence : ∀ text, motive text → motive (old ++ text))
    (other : ∀ c text, ¬ old <+: c :: text → motive text → motive (c :: text)) (text : List α) :
    motive text := by
  induction hlength : text.length using Nat.strong_induction_on generalizing text with
  | _ length ih =>
      cases text with
      | nil => exact nil
      | cons c text =>
          by_cases hprefix : old <+: c :: text
          · obtain ⟨rest, hrest⟩ := hprefix
            have hshorter : rest.length < length := by
              have hpos := List.length_pos_iff.mpr hold
              rw [← hlength, ← hrest, List.length_append]
              omega
            rw [← hrest]
            exact occurrence rest (ih _ hshorter rest rfl)
          · exact other c text hprefix (ih _ (by rw [← hlength]; simp) text rfl)

/-- With the list itself between them the pieces are the text. -/
theorem intercalate_pieces (hold : old ≠ []) (text : List α) :
    List.intercalate old (pieces old text) = text := by
  induction text using pieces_induction hold with
  | nil => rfl
  | occurrence text ih =>
      have hne : pieces old text ≠ [] := piecesFrom_ne_nil old 0 text
      rw [pieces_append_self hold, List.intercalate_cons_of_ne_nil hne, ih, List.nil_append]
  | other c text hprefix ih =>
      rw [pieces_cons_of_mismatch hprefix]
      obtain ⟨piece, rest, hpieces⟩ := List.exists_cons_of_ne_nil (piecesFrom_ne_nil old 0 text)
      rw [pieces, hpieces] at ih ⊢
      rw [List.modifyHead_cons, List.intercalate_cons_cons_left, ih]

/-- The first piece is what the text begins with. -/
theorem head_pieces_prefix (hold : old ≠ []) {piece : List α} {rest : List (List α)}
    (h : pieces old text = piece :: rest) : piece <+: text := by
  rw [← intercalate_pieces hold text, h]
  cases rest with
  | nil => rw [List.intercalate_singleton]
  | cons next rest =>
      rw [List.intercalate_cons_cons, List.append_assoc]
      exact List.prefix_append _ _

/-- No piece contains the list. -/
theorem not_infix_of_mem_pieces (hold : old ≠ []) {piece : List α}
    (h : piece ∈ pieces old text) : ¬ old <:+: piece := by
  induction text using pieces_induction hold generalizing piece with
  | nil =>
      rw [pieces_nil, List.mem_singleton] at h
      subst h
      simpa using hold
  | occurrence text ih =>
      rw [pieces_append_self hold, List.mem_cons] at h
      rcases h with rfl | h
      · simpa using hold
      · exact ih h
  | other c text hprefix ih =>
      rw [pieces_cons_of_mismatch hprefix] at h
      obtain ⟨first, rest, hpieces⟩ := List.exists_cons_of_ne_nil (piecesFrom_ne_nil old 0 text)
      change pieces old text = first :: rest at hpieces
      rw [hpieces, List.modifyHead_cons, List.mem_cons] at h
      rcases h with rfl | h
      · rw [List.infix_cons_iff, not_or]
        refine ⟨fun hfirst => hprefix ?_, ih (by rw [hpieces]; exact List.mem_cons_self)⟩
        have hbegins := head_pieces_prefix hold hpieces
        exact hfirst.trans ((List.prefix_cons_inj c).mpr hbegins)
      · exact ih (by rw [hpieces]; exact List.mem_cons_of_mem _ h)

end

/-! ## Occurrences in joined pieces -/

/-- The pieces with the separators next to them; `before` is in front of the first one. -/
def stretches (separator before : List α) : List (List α) → List (List α)
  | [] => []
  | [piece] => [before ++ piece]
  | piece :: next :: rest =>
      (before ++ piece ++ separator) :: stretches separator separator (next :: rest)

/-- An occurrence that is no longer than the middle does not reach over both its ends. -/
theorem infix_append_middle_iff {list middle : List α} (hlength : list.length ≤ middle.length)
    (left right : List α) :
    list <:+: left ++ middle ++ right ↔ list <:+: left ++ middle ∨ list <:+: middle ++ right := by
  constructor
  · rintro ⟨before, behind, happ⟩
    by_cases hreach : before.length + list.length ≤ left.length + middle.length
    · left
      have hprefix : before ++ list <+: left ++ middle := by
        refine List.prefix_of_prefix_length_le (List.prefix_append (before ++ list) behind) ?_
          (by simpa using hreach)
        rw [happ]
        exact List.prefix_append _ _
      exact (List.suffix_append before list).isInfix.trans hprefix.isInfix
    · right
      have hsuffix : list ++ behind <:+ middle ++ right := by
        have htotal := congrArg List.length happ
        simp only [List.length_append] at htotal
        refine List.suffix_of_suffix_length_le (List.suffix_append before (list ++ behind)) ?_
          (by simp only [List.length_append]; omega)
        rw [← List.append_assoc, happ, List.append_assoc]
        exact List.suffix_append _ _
      exact (List.prefix_append list behind).isInfix.trans hsuffix.isInfix
  · rintro (h | h)
    · exact h.trans (List.prefix_append _ _).isInfix
    · rw [List.append_assoc]
      exact h.trans (List.suffix_append _ _).isInfix

/-- A list no longer than the separator occurs in joined pieces exactly if it occurs in one
piece with the separators next to it. -/
theorem infix_intercalate_iff {list separator : List α}
    (hlength : list.length ≤ separator.length) (before : List α) {parts : List (List α)}
    (hparts : parts ≠ []) :
    list <:+: before ++ List.intercalate separator parts ↔
      ∃ stretch ∈ stretches separator before parts, list <:+: stretch := by
  induction parts generalizing before with
  | nil => exact absurd rfl hparts
  | cons piece rest ih =>
      cases rest with
      | nil => simp [stretches, List.intercalate_singleton]
      | cons next rest =>
          have hbehind := ih separator (List.cons_ne_nil _ _)
          rw [List.intercalate_cons_cons, stretches, ← List.append_assoc, ← List.append_assoc,
            infix_append_middle_iff hlength, hbehind]
          simp

section

variable {list text : List α} {c : α}

/-- An occurrence of a list that does not begin with the character does not begin in its
repetition. -/
theorem infix_of_infix_replicate_append (hhead : list.head? ≠ some c) (hne : list ≠ [])
    {count : Nat} (h : list <:+: List.replicate count c ++ text) : list <:+: text := by
  induction count with
  | zero => simpa using h
  | succ count ih =>
      rw [List.replicate_succ, List.cons_append, List.infix_cons_iff] at h
      rcases h with hprefix | hinfix
      · obtain ⟨first, rest, rfl⟩ := List.exists_cons_of_ne_nil hne
        rw [List.cons_prefix_cons] at hprefix
        exact absurd (congrArg some hprefix.1) hhead
      · exact ih hinfix

/-- The same for the end of the list. -/
theorem infix_of_infix_append_replicate (hlast : list.getLast? ≠ some c) (hne : list ≠ [])
    {count : Nat} (h : list <:+: text ++ List.replicate count c) : list <:+: text := by
  rw [← List.reverse_infix] at h ⊢
  rw [List.reverse_append, List.reverse_replicate] at h
  exact infix_of_infix_replicate_append (by rwa [List.head?_reverse]) (by simpa using hne) h

/-- Where the separator repeats a character with which the list neither begins nor ends, an
occurrence is in a piece itself. -/
theorem infix_of_mem_stretches (hhead : list.head? ≠ some c) (hlast : list.getLast? ≠ some c)
    (hne : list ≠ []) {count count' : Nat} {parts : List (List α)} {stretch : List α}
    (hstretch : stretch ∈
      stretches (List.replicate count c) (List.replicate count' c) parts)
    (h : list <:+: stretch) : ∃ piece ∈ parts, list <:+: piece := by
  induction parts generalizing count' with
  | nil => cases hstretch
  | cons piece rest ih =>
      cases rest with
      | nil =>
          rw [stretches, List.mem_singleton] at hstretch
          subst hstretch
          exact ⟨piece, List.mem_cons_self, infix_of_infix_replicate_append hhead hne h⟩
      | cons next rest =>
          rw [stretches, List.mem_cons] at hstretch
          rcases hstretch with rfl | hstretch
          · have hinner := infix_of_infix_append_replicate hlast hne h
            exact ⟨piece, List.mem_cons_self, infix_of_infix_replicate_append hhead hne hinner⟩
          · obtain ⟨found, hmem, hinfix⟩ := ih hstretch
            exact ⟨found, List.mem_cons_of_mem _ hmem, hinfix⟩

end

end Replacement
