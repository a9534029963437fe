import Mathlib.Computability.Language
import Mathlib.Tactic.Common

/-!
# Regular expressions with character classes

A character class is a predicate, so that a class may leave out a few characters of a large
alphabet.  An expression is matched by its derivatives; a pattern is searched for in a text,
with or without anchors.

Main results:

- Theorem `mem_deriv_iff`: the derivative by a character has the rests of the words that begin
  with it.
- Theorem `CharsWithin.of_mem`: the words are made of the characters of the classes.
- Theorem `isMatch_iff`: the matcher accepts the words of the language.
- Theorem `test_iff`: a pattern is found in a text exactly if a stretch of it is a word, at its
  beginning and its end as far as the pattern is anchored.
-/

open Computability

inductive Regex (α : Type)
  | empty
  | chars (class_ : α → Bool)
  | alt (r s : Regex α)
  | seq (r s : Regex α)
  | star (r : Regex α)

namespace Regex

variable {α : Type}

def fail : Regex α :=
  chars fun _ => false

/-- `r?` -/
def opt (r : Regex α) : Regex α :=
  alt r empty

/-- `r+` -/
def plus (r : Regex α) : Regex α :=
  seq r (star r)

/-- `r{n}` -/
def times (r : Regex α) : Nat → Regex α
  | 0 => empty
  | n + 1 => seq r (times r n)

/-- `r{n,}` -/
def atLeast (r : Regex α) (n : Nat) : Regex α :=
  seq (times r n) (star r)

/-- `r{n,n+m}` -/
def timesTo (r : Regex α) (n : Nat) : Nat → Regex α
  | 0 => times r n
  | m + 1 => alt (times r (n + m + 1)) (timesTo r n m)

def char [DecidableEq α] (c : α) : Regex α :=
  chars fun c' => c' = c

def word [DecidableEq α] : List α → Regex α
  | [] => empty
  | c :: w => seq (char c) (word w)

/-- One of several expressions. -/
def oneOf : List (Regex α) → Regex α
  | [] => fail
  | [r] => r
  | r :: s :: rs => alt r (oneOf (s :: rs))

def language : Regex α → Language α
  | empty => 1
  | chars class_ => {w | ∃ c, class_ c = true ∧ w = [c]}
  | alt r s => r.language + s.language
  | seq r s => r.language * s.language
  | star r => r.language∗

/-! ## Matching -/

def nullable : Regex α → Bool
  | empty => true
  | chars _ => false
  | alt r s => r.nullable || s.nullable
  | seq r s => r.nullable && s.nullable
  | star _ => true

/-- What has still to follow a character. -/
def deriv : Regex α → α → Regex α
  | empty, _ => fail
  | chars class_, c => if class_ c then empty else fail
  | alt r s, c => alt (r.deriv c) (s.deriv c)
  | seq r s, c =>
      if r.nullable then alt (seq (r.deriv c) s) (s.deriv c) else seq (r.deriv c) s
  | star r, c => seq (r.deriv c) (star r)

def isMatch (r : Regex α) : List α → Bool
  | [] => r.nullable
  | c :: w => (r.deriv c).isMatch w

section

variable {r s : Regex α} {w : List α} {c : α}

@[simp]
theorem mem_empty : w ∈ (empty : Regex α).language ↔ w = [] :=
  Iff.rfl

@[simp]
theorem mem_chars {class_ : α → Bool} :
    w ∈ (chars class_).language ↔ ∃ c, class_ c = true ∧ w = [c] :=
  Iff.rfl

@[simp]
theorem mem_alt : w ∈ (alt r s).language ↔ w ∈ r.language ∨ w ∈ s.language :=
  Iff.rfl

theorem mem_seq : w ∈ (seq r s).language ↔
    ∃ u ∈ r.language, ∃ v ∈ s.language, u ++ v = w :=
  Iff.rfl

theorem not_mem_fail : w ∉ (fail : Regex α).language := by
  rintro ⟨c, hc, -⟩
  cases hc

theorem nullable_iff : r.nullable = true ↔ [] ∈ r.language := by
  induction r with
  | empty => simp [nullable]
  | chars class_ => simp [nullable]
  | alt r s ihr ihs => rw [nullable, Bool.or_eq_true, ihr, ihs, mem_alt]
  | seq r s ihr ihs =>
      rw [nullable, Bool.and_eq_true, ihr, ihs, mem_seq]
      constructor
      · rintro ⟨hr, hs⟩
        exact ⟨[], hr, [], hs, rfl⟩
      · rintro ⟨u, hu, v, hv, happ⟩
        obtain ⟨rfl, rfl⟩ := List.append_eq_nil_iff.mp happ
        exact ⟨hu, hv⟩
  | star r ih => simp [nullable, language, Language.nil_mem_kstar]

/-- A word of a sequence begins in the first expression, or the first one is passed over. -/
theorem cons_mem_seq : c :: w ∈ (seq r s).language ↔
    (∃ u, c :: u ∈ r.language ∧ ∃ v ∈ s.language, u ++ v = w) ∨
      [] ∈ r.language ∧ c :: w ∈ s.language := by
  rw [mem_seq]
  constructor
  · rintro ⟨u, hu, v, hv, happ⟩
    cases u with
    | nil =>
        rw [List.nil_append] at happ
        exact Or.inr ⟨hu, happ ▸ hv⟩
    | cons c' u =>
        obtain ⟨rfl, hw⟩ := List.cons.inj happ
        exact Or.inl ⟨u, hu, v, hv, hw⟩
  · rintro (⟨u, hu, v, hv, rfl⟩ | ⟨hr, hs⟩)
    · exact ⟨c :: u, hu, v, hv, rfl⟩
    · exact ⟨[], hr, c :: w, hs, rfl⟩

/-- A word of a repetition begins with a word that is not empty. -/
theorem cons_mem_star : c :: w ∈ (star r).language ↔
    ∃ u, c :: u ∈ r.language ∧ ∃ v ∈ (star r).language, u ++ v = w := by
  have hstar : (star r).language = r.language∗ := rfl
  constructor
  · intro h
    rw [hstar, Language.kstar_def_nonempty] at h
    obtain ⟨words, hflatten, hwords⟩ := h
    cases words with
    | nil => cases hflatten
    | cons first words =>
        obtain ⟨hfirst, hne⟩ := hwords first List.mem_cons_self
        obtain ⟨c', u, rfl⟩ := List.exists_cons_of_ne_nil hne
        obtain ⟨rfl, hw⟩ := List.cons.inj hflatten
        refine ⟨u, hfirst, words.flatten, ?_, hw.symm⟩
        exact Language.join_mem_kstar fun word hword =>
          (hwords word (List.mem_cons_of_mem _ hword)).1
  · rintro ⟨u, hu, v, hv, rfl⟩
    rw [hstar, ← Language.one_add_self_mul_kstar_eq_kstar]
    exact Or.inr (Language.append_mem_mul hu hv)

/-- The derivative by a character has the rests of the words that begin with it. -/
theorem mem_deriv_iff : w ∈ (r.deriv c).language ↔ c :: w ∈ r.language := by
  induction r generalizing w with
  | empty => exact iff_of_false not_mem_fail (by simp)
  | chars class_ =>
      rw [deriv]
      split
      · rename_i hclass
        constructor
        · rintro rfl
          exact ⟨c, hclass, rfl⟩
        · rintro ⟨c', -, happ⟩
          exact (List.cons.inj happ).2
      · rename_i hclass
        refine iff_of_false not_mem_fail ?_
        rintro ⟨c', hc', happ⟩
        obtain ⟨rfl, -⟩ := List.cons.inj happ
        exact hclass hc'
  | alt r s ihr ihs => rw [deriv, mem_alt, mem_alt, ihr, ihs]
  | seq r s ihr ihs =>
      have hseq : w ∈ (seq (r.deriv c) s).language ↔
          ∃ u, c :: u ∈ r.language ∧ ∃ v ∈ s.language, u ++ v = w := by
        simp only [mem_seq, ihr]
      rw [cons_mem_seq, deriv, ← hseq]
      split
      · rename_i hnullable
        rw [mem_alt, ihs]
        simp [nullable_iff.mp hnullable]
      · rename_i hnullable
        rw [nullable_iff] at hnullable
        simp [hnullable]
  | star r ih =>
      rw [cons_mem_star, deriv, mem_seq]
      simp only [ih]

/-- The matcher accepts the words of the language. -/
theorem isMatch_iff : r.isMatch w = true ↔ w ∈ r.language := by
  induction w generalizing r with
  | nil => exact nullable_iff
  | cons c w ih => rw [isMatch, ih, mem_deriv_iff]

/-- The characters of all classes have a property. -/
def CharsWithin (P : α → Prop) : Regex α → Prop
  | empty => True
  | chars class_ => ∀ c, class_ c = true → P c
  | alt r s | seq r s => r.CharsWithin P ∧ s.CharsWithin P
  | star r => r.CharsWithin P

/-- The words are made of the characters of the classes. -/
theorem CharsWithin.of_mem {P : α → Prop} (h : r.CharsWithin P) (hw : w ∈ r.language) :
    ∀ c ∈ w, P c := by
  induction r generalizing w with
  | empty =>
      obtain rfl : w = [] := hw
      simp
  | chars class_ =>
      obtain ⟨c, hc, rfl⟩ := hw
      simpa using h c hc
  | alt r s ihr ihs =>
      rcases hw with hw | hw
      · exact ihr h.1 hw
      · exact ihs h.2 hw
  | seq r s ihr ihs =>
      obtain ⟨u, hu, v, hv, rfl⟩ := hw
      exact List.forall_mem_append.mpr ⟨ihr h.1 hu, ihs h.2 hv⟩
  | star r ih =>
      obtain ⟨words, rfl, hwords⟩ := Language.mem_kstar.mp hw
      intro c hc
      obtain ⟨word, hword, hc'⟩ := List.mem_flatten.mp hc
      exact ih h (hwords word hword) c hc'

/-! ## Words of the derived forms -/

theorem mem_opt : w ∈ (opt r).language ↔ w ∈ r.language ∨ w = [] :=
  Iff.rfl

theorem mem_seq_chars {class_ : α → Bool} : w ∈ (seq (chars class_) s).language ↔
    ∃ c v, w = c :: v ∧ class_ c = true ∧ v ∈ s.language := by
  rw [mem_seq]
  constructor
  · rintro ⟨_, ⟨c, hc, rfl⟩, v, hv, rfl⟩
    exact ⟨c, v, rfl, hc, hv⟩
  · rintro ⟨c, v, rfl, hc, hv⟩
    exact ⟨[c], ⟨c, hc, rfl⟩, v, hv, rfl⟩

theorem mem_seq_char [DecidableEq α] : w ∈ (seq (char c) s).language ↔
    ∃ v, w = c :: v ∧ v ∈ s.language := by
  simp [char, mem_seq_chars]

theorem mem_star_chars {class_ : α → Bool} :
    w ∈ (star (chars class_)).language ↔ ∀ c ∈ w, class_ c = true := by
  induction w with
  | nil => exact iff_of_true (Language.nil_mem_kstar _) (by simp)
  | cons c w ih =>
      rw [cons_mem_star]
      constructor
      · rintro ⟨u, ⟨c', hc', hu⟩, v, hv, rfl⟩
        obtain ⟨rfl, rfl⟩ := List.cons.inj hu
        rw [List.nil_append] at ih
        simpa [hc'] using ih.mp hv
      · intro h
        rw [List.forall_mem_cons] at h
        exact ⟨[], ⟨c, h.1, rfl⟩, w, ih.mpr h.2, rfl⟩

theorem mem_plus_chars {class_ : α → Bool} :
    w ∈ (plus (chars class_)).language ↔ w ≠ [] ∧ ∀ c ∈ w, class_ c = true := by
  rw [plus, mem_seq_chars]
  constructor
  · rintro ⟨c, v, rfl, hc, hv⟩
    exact ⟨List.cons_ne_nil c v, List.forall_mem_cons.mpr ⟨hc, mem_star_chars.mp hv⟩⟩
  · rintro ⟨hne, hall⟩
    obtain ⟨c, v, rfl⟩ := List.exists_cons_of_ne_nil hne
    rw [List.forall_mem_cons] at hall
    exact ⟨c, v, rfl, hall.1, mem_star_chars.mpr hall.2⟩

theorem mem_times_chars {class_ : α → Bool} {n : Nat} :
    w ∈ (times (chars class_) n).language ↔ w.length = n ∧ ∀ c ∈ w, class_ c = true := by
  induction n generalizing w with
  | zero =>
      rw [times, mem_empty, List.length_eq_zero_iff]
      constructor
      · rintro rfl
        exact ⟨rfl, by simp⟩
      · exact fun h => h.1
  | succ n ih =>
      rw [times, mem_seq_chars]
      simp only [ih]
      constructor
      · rintro ⟨c, v, rfl, hc, hlength, hall⟩
        exact ⟨by simp [hlength], List.forall_mem_cons.mpr ⟨hc, hall⟩⟩
      · rintro ⟨hlength, hall⟩
        obtain ⟨c, v, rfl⟩ := List.exists_cons_of_length_eq_add_one hlength
        rw [List.forall_mem_cons] at hall
        exact ⟨c, v, rfl, hall.1, by simpa using hlength, hall.2⟩

theorem mem_atLeast_chars {class_ : α → Bool} {n : Nat} :
    w ∈ (atLeast (chars class_) n).language ↔ n ≤ w.length ∧ ∀ c ∈ w, class_ c = true := by
  rw [atLeast, mem_seq]
  constructor
  · rintro ⟨u, hu, v, hv, rfl⟩
    rw [mem_times_chars] at hu
    rw [mem_star_chars] at hv
    exact ⟨by simp [hu.1], List.forall_mem_append.mpr ⟨hu.2, hv⟩⟩
  · rintro ⟨hlength, hall⟩
    refine ⟨w.take n, mem_times_chars.mpr ⟨by simp [hlength], fun c hc => ?_⟩, w.drop n,
      mem_star_chars.mpr fun c hc => ?_, List.take_append_drop n w⟩
    · exact hall c (List.mem_of_mem_take hc)
    · exact hall c (List.mem_of_mem_drop hc)

/-- A sequence whose first expression may be left out. -/
theorem mem_seq_opt : w ∈ (seq (opt r) s).language ↔
    w ∈ s.language ∨ w ∈ (seq r s).language := by
  rw [mem_seq, mem_seq]
  constructor
  · rintro ⟨u, hu | rfl, v, hv, rfl⟩
    · exact Or.inr ⟨u, hu, v, hv, rfl⟩
    · exact Or.inl hv
  · rintro (h | ⟨u, hu, v, hv, rfl⟩)
    · exact ⟨[], Or.inr rfl, w, h, rfl⟩
    · exact ⟨u, Or.inl hu, v, hv, rfl⟩

theorem mem_timesTo_chars {class_ : α → Bool} {n m : Nat} :
    w ∈ (timesTo (chars class_) n m).language ↔
      (n ≤ w.length ∧ w.length ≤ n + m) ∧ ∀ c ∈ w, class_ c = true := by
  induction m with
  | zero =>
      rw [timesTo, mem_times_chars]
      exact and_congr_left fun _ => by omega
  | succ m ih =>
      rw [timesTo, mem_alt, ih, mem_times_chars, ← or_and_right]
      exact and_congr_left fun _ => by omega

theorem mem_word [DecidableEq α] {u : List α} : w ∈ (word u).language ↔ w = u := by
  induction u generalizing w with
  | nil => exact Iff.rfl
  | cons c u ih =>
      rw [word, mem_seq_char]
      simp [ih]

theorem mem_oneOf {rs : List (Regex α)} :
    w ∈ (oneOf rs).language ↔ ∃ r ∈ rs, w ∈ r.language := by
  induction rs with
  | nil => exact iff_of_false not_mem_fail (by simp)
  | cons r rs ih =>
      cases rs with
      | nil => simp [oneOf]
      | cons s rs =>
          rw [oneOf, mem_alt, ih]
          simp

end

/-! ## Searching -/

/-- An expression between its anchors, of a text that is one line. -/
structure Pattern (α : Type) where
  fromStart : Bool := true
  regex : Regex α
  toEnd : Bool := true

namespace Pattern

variable {pattern : Pattern α} {text : List α}

/-- Anything where there is no anchor. -/
def gap (anchored : Bool) : Regex α :=
  if anchored then empty else star (chars fun _ => true)

/-- `text.match(pattern)` finds something. -/
def test (pattern : Pattern α) (text : List α) : Bool :=
  (seq (gap pattern.fromStart) (seq pattern.regex (gap pattern.toEnd))).isMatch text

theorem mem_gap {anchored : Bool} :
    text ∈ (gap anchored).language ↔ (anchored = true → text = []) := by
  cases anchored with
  | true => simp [gap]
  | false => simp [gap, mem_star_chars]

/-- A pattern is found exactly if a stretch of the text is a word, at its beginning and its end
as far as the pattern is anchored. -/
theorem test_iff : pattern.test text = true ↔
    ∃ before word behind, text = before ++ word ++ behind ∧ word ∈ pattern.regex.language ∧
      (pattern.fromStart = true → before = []) ∧ (pattern.toEnd = true → behind = []) := by
  rw [test, isMatch_iff, mem_seq]
  simp only [mem_seq, mem_gap]
  constructor
  · rintro ⟨before, hbefore, _, ⟨word, hword, behind, hbehind, rfl⟩, rfl⟩
    exact ⟨before, word, behind, (List.append_assoc ..).symm, hword, hbefore, hbehind⟩
  · rintro ⟨before, word, behind, rfl, hword, hbefore, hbehind⟩
    exact ⟨before, hbefore, _, ⟨word, hword, behind, hbehind, rfl⟩, (List.append_assoc ..).symm⟩

/-- With both anchors the whole text is a word. -/
theorem test_iff_of_anchored (hstart : pattern.fromStart = true) (hend : pattern.toEnd = true) :
    pattern.test text = true ↔ text ∈ pattern.regex.language := by
  rw [test_iff]
  constructor
  · rintro ⟨before, word, behind, rfl, hword, hbefore, hbehind⟩
    rwa [hbefore hstart, hbehind hend, List.nil_append, List.append_nil]
  · exact fun h => ⟨[], text, [], by simp, h, fun _ => rfl, fun _ => rfl⟩

end Pattern

end Regex
