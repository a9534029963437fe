import ArtPlatform.Web.Regexps
import Mathlib.Data.Nat.Digits.Lemmas

/-!
# Port fields

A text field refuses a text that its mask or another rule does not let pass.  The field of a
port has the port pattern as its mask, and refuses a leading zero.

Main results:

- Theorem `portRegex_numeral_iff`: the numerals that the pattern lacks.
- Theorem `numeral_of_portRegex`: the texts of the pattern without a leading zero are numerals
  of ports.
- Theorem `portField_iff`: the text is always empty or the numeral of a port; a port can be
  typed if and only if it is not one of those that the pattern lacks.
- Theorem `port_refused`: 60000 cannot be typed.
-/

namespace ArtPlatform.Web

open Regex

/-! ## Text fields -/

/-- A text field with its rules: the mask, the pattern of its error, and what is asked of a text
besides. -/
structure TextField where
  mask : Option (Pattern UInt16) := none
  regexp : Option (Pattern UInt16) := none
  prevents : List (Text → Bool) := []
  text : Text := []
  error : Bool := false

namespace TextField

/-- `value.match(pattern)`, where there is a value and a pattern. -/
def mismatch (pattern : Option (Pattern UInt16)) (value : Text) : Bool :=
  value ≠ [] && pattern.any fun pattern => !pattern.test value

/-- The setter of the text.  The first rule sets the error where the mask lets the text pass;
another rule may refuse the text all the same. -/
def setText (s : TextField) (value : Text) : TextField :=
  if s.text = value then s
  else if mismatch s.mask value then s
  else
    let checked := { s with error := mismatch s.regexp value }
    if s.prevents.all fun lets => lets value then { checked with text := value } else checked

def propose (s : TextField) (values : List Text) : TextField :=
  values.foldl setText s

end TextField

open TextField

/-! ## The field of a port -/

def digitUnit (d : Nat) : UInt16 :=
  UInt16.ofNat (48 + d)

/-- The decimal numeral. -/
def numeral (n : Nat) : Text :=
  ((Nat.digits 10 n).reverse).map digitUnit

abbrev Port := { port : Nat // 1 ≤ port ∧ port ≤ 65535 }

/-- `!port?.startsWith("0")` -/
def withoutLeadingZero (port : Text) : Bool :=
  port.head? ≠ some (unit '0')

/-- The field of `portsCollection`, of a new port or of a given one. -/
def portField (port : Option Port) : TextField where
  mask := some portRegex
  regexp := some portRegex
  prevents := [withoutLeadingZero]
  text := (port.map fun port => numeral port).getD []

/-- The prefixes of a text, one character longer at a time. -/
def prefixes (text : Text) : List Text :=
  (List.range text.length).map fun i => text.take (i + 1)

/-- The field of a new port when the prefixes of its numeral have been proposed. -/
def typed (port : Port) : TextField :=
  (portField none).propose (prefixes (numeral port))

def IsPortNumeral (text : Text) : Prop :=
  ∃ port : Port, text = numeral port

/-- The ports that the pattern lacks. -/
def LackingPort (n : Nat) : Prop :=
  (60000 ≤ n ∧ n ≤ 60999) ∨ (65000 ≤ n ∧ n ≤ 65099) ∨ (65500 ≤ n ∧ n ≤ 65509) ∨ n = 65530

/-! ## Numerals -/

theorem toNat_digitUnit {d : Nat} (h : d < 10) : (digitUnit d).toNat = 48 + d := by
  rw [digitUnit, UInt16.toNat_ofNat']
  exact Nat.mod_eq_of_lt (by omega)

theorem numeral_of_lt {n : Nat} (hpos : 0 < n) (hlt : n < 10) : numeral n = [digitUnit n] := by
  rw [numeral, Nat.digits_of_lt 10 n hpos.ne' hlt]
  rfl

theorem numeral_of_le {n : Nat} (h : 10 ≤ n) :
    numeral n = numeral (n / 10) ++ [digitUnit (n % 10)] := by
  rw [numeral, Nat.digits_def' (by decide) (by omega), List.reverse_cons, List.map_append]
  rfl

theorem range_digitUnit {d : Nat} (h : d < 10) (first last : Char) :
    range first last (digitUnit d) = true ↔ first.toNat ≤ 48 + d ∧ 48 + d ≤ last.toNat := by
  rw [range, toNat_digitUnit h, Bool.and_eq_true, decide_eq_true_eq, decide_eq_true_eq]

theorem digit_digitUnit {d : Nat} (h : d < 10) : digit (digitUnit d) = true := by
  rw [digit, range_digitUnit h]
  simp only [Char.reduceToNat]
  omega

theorem digitUnit_eq_unit_iff {d : Nat} (h : d < 10) (sign : Char) (hsign : sign.toNat < 65536) :
    digitUnit d = unit sign ↔ 48 + d = sign.toNat := by
  have hunit : (unit sign).toNat = sign.toNat := Nat.mod_eq_of_lt hsign
  rw [← UInt16.toNat_inj, toNat_digitUnit h, hunit]

theorem digit_of_mem_numeral {n : Nat} {c : UInt16} (h : c ∈ numeral n) : digit c = true := by
  obtain ⟨d, hd, rfl⟩ := List.mem_map.mp h
  exact digit_digitUnit (Nat.digits_lt_base (by decide) (List.mem_reverse.mp hd))

theorem length_numeral_le_iff {n k : Nat} : (numeral n).length ≤ k ↔ n < 10 ^ k := by
  rw [numeral, List.length_map, List.length_reverse]
  exact Nat.digits_length_le_iff (by decide) n

theorem digitUnit_toNat_sub {c : UInt16} (h : digit c = true) : digitUnit (c.toNat - 48) = c := by
  simp only [digit, range, Bool.and_eq_true, decide_eq_true_eq, Char.reduceToNat] at h
  rw [← UInt16.toNat_inj, toNat_digitUnit (by omega)]
  omega

theorem toNat_of_digit {c : UInt16} (h : digit c = true) : 48 ≤ c.toNat ∧ c.toNat ≤ 57 := by
  simpa [digit, range] using h

/-- Digits without a leading zero are the numeral of their value. -/
theorem exists_numeral {text : Text} (hne : text ≠ []) (hdigits : ∀ c ∈ text, digit c = true)
    (hhead : text.head? ≠ some (unit '0')) : ∃ n, 0 < n ∧ numeral n = text := by
  have hlt : ∀ d ∈ (text.map fun c => c.toNat - 48).reverse, d < 10 := by
    intro d hd
    obtain ⟨c, hc, rfl⟩ := List.mem_map.mp (List.mem_reverse.mp hd)
    have hdigit := toNat_of_digit (hdigits c hc)
    omega
  have hlast : ∀ h : (text.map fun c => c.toNat - 48).reverse ≠ [],
      (text.map fun c => c.toNat - 48).reverse.getLast h ≠ 0 := by
    obtain ⟨c, rest, rfl⟩ := List.exists_cons_of_ne_nil hne
    intro h hzero
    have hdigit := toNat_of_digit (hdigits c List.mem_cons_self)
    have hc : c.toNat - 48 = 0 := by simpa using hzero
    refine hhead (congrArg some (UInt16.toNat_inj.mp ?_))
    have hunit : (unit '0').toNat = 48 := rfl
    omega
  have hback : ∀ c ∈ text, (digitUnit ∘ fun c : UInt16 => c.toNat - 48) c = id c :=
    fun c hc => digitUnit_toNat_sub (hdigits c hc)
  have hnumeral : numeral (Nat.ofDigits 10 (text.map fun c => c.toNat - 48).reverse) = text := by
    rw [numeral, Nat.digits_ofDigits 10 (by decide) _ hlt hlast, List.reverse_reverse,
      List.map_map, List.map_congr_left hback, List.map_id]
  refine ⟨_, Nat.pos_of_ne_zero fun hzero => hne ?_, hnumeral⟩
  rw [← hnumeral, hzero, numeral, Nat.digits_zero]
  rfl

/-! ## The numerals of the pattern -/

theorem portRegex_digit {text : Text} (h : portRegex.test text = true) :
    ∀ c ∈ text, digit c = true := by
  have hrange (first last : Char) (hfirst : 48 ≤ first.toNat) (hlast : last.toNat ≤ 57) :
      (chars (range first last)).CharsWithin fun c => digit c = true := by
    intro c hc
    simp only [range, Bool.and_eq_true, decide_eq_true_eq] at hc
    simp only [digit, range, Bool.and_eq_true, decide_eq_true_eq, Char.reduceToNat]
    omega
  have hunit (sign : Char) (hsign : digit (unit sign) = true) :
      (char (unit sign)).CharsWithin fun c => digit c = true := by
    intro c hc
    obtain rfl : c = unit sign := by simpa using hc
    exact hsign
  have hdigit : (chars digit).CharsWithin fun c => digit c = true := fun c hc => hc
  have h6 := hunit '6' (by decide)
  have h5 := hunit '5' (by decide)
  have hclasses : portRegex.regex.CharsWithin fun c => digit c = true :=
    ⟨hrange '1' '9' (by decide) (by decide),
      ⟨⟨hrange '1' '5' (by decide) (by decide), trivial⟩,
        ⟨hdigit, hdigit, hdigit, hdigit, trivial⟩, ⟨hdigit, hdigit, hdigit, trivial⟩,
        hdigit, hdigit, trivial⟩,
      ⟨h6, hrange '1' '4' (by decide) (by decide), hdigit, hdigit, hdigit, trivial⟩,
      ⟨h6, h5, hrange '1' '4' (by decide) (by decide), hdigit, hdigit, trivial⟩,
      ⟨h6, h5, h5, hrange '1' '2' (by decide) (by decide), hdigit⟩,
      h6, h5, h5, hunit '3' (by decide), hrange '1' '5' (by decide) (by decide)⟩
  rw [Pattern.test_iff_of_anchored rfl rfl] at h
  exact hclasses.of_mem h

theorem length_of_portRegex {text : Text} (h : portRegex.test text = true) :
    0 < text.length ∧ text.length ≤ 5 := by
  rcases portRegex_iff.mp h with ⟨a, rfl, -⟩ | ⟨hlength, -⟩ | ⟨a, rest, rfl, -, hlength, -⟩ |
    ⟨b, rest, rfl, -, hlength, -⟩ | ⟨c, rest, rfl, -, hlength, -⟩ | ⟨d, e, rfl, -⟩ | ⟨e, rfl, -⟩
  case inr.inl => omega
  all_goals simp only [List.length_cons, List.length_nil]; omega

theorem portRegex_five_iff {a b c d e : UInt16} : portRegex.test [a, b, c, d, e] = true ↔
    (range '1' '5' a = true ∧ digit b = true ∧ digit c = true ∧ digit d = true ∧
      digit e = true) ∨
    (a = unit '6' ∧ range '1' '4' b = true ∧ digit c = true ∧ digit d = true ∧
      digit e = true) ∨
    (a = unit '6' ∧ b = unit '5' ∧ range '1' '4' c = true ∧ digit d = true ∧ digit e = true) ∨
    (a = unit '6' ∧ b = unit '5' ∧ c = unit '5' ∧ range '1' '2' d = true ∧ digit e = true) ∨
    (a = unit '6' ∧ b = unit '5' ∧ c = unit '5' ∧ d = unit '3' ∧ range '1' '5' e = true) := by
  rw [portRegex_iff]
  simp [and_assoc]

theorem numeral_of_five {n : Nat} (hle : 10000 ≤ n) (hlt : n < 100000) :
    numeral n = [digitUnit (n / 10000), digitUnit (n / 1000 % 10), digitUnit (n / 100 % 10),
      digitUnit (n / 10 % 10), digitUnit (n % 10)] := by
  rw [numeral_of_le (by omega), numeral_of_le (by omega), numeral_of_le (by omega),
    numeral_of_le (by omega), numeral_of_lt (by omega) (by omega)]
  simp [Nat.div_div_eq_div_mul]

/-- By the digits of a number of five digits: the first digit on which the number parts from
65535 decides. -/
theorem lackingPort_digits {n a b c d e : Nat}
    (hn : n = 10000 * a + 1000 * b + 100 * c + 10 * d + e)
    (hpos : 1 ≤ a) (hb : b < 10) (hc : c < 10) (hd : d < 10) (he : e < 10) :
    (49 ≤ 48 + a ∧ 48 + a ≤ 53) ∨ (48 + a = 54 ∧ 49 ≤ 48 + b ∧ 48 + b ≤ 52) ∨
      (48 + a = 54 ∧ 48 + b = 53 ∧ 49 ≤ 48 + c ∧ 48 + c ≤ 52) ∨
      (48 + a = 54 ∧ 48 + b = 53 ∧ 48 + c = 53 ∧ 49 ≤ 48 + d ∧ 48 + d ≤ 50) ∨
      (48 + a = 54 ∧ 48 + b = 53 ∧ 48 + c = 53 ∧ 48 + d = 51 ∧ 49 ≤ 48 + e ∧ 48 + e ≤ 53) ↔
      n ≤ 65535 ∧ ¬ LackingPort n := by
  rw [LackingPort]
  rcases Nat.lt_trichotomy a 6 with ha | rfl | ha
  · exact iff_of_true (Or.inl (by omega)) (by omega)
  · rcases Nat.lt_trichotomy b 5 with hb5 | rfl | hb5
    · rcases Nat.eq_zero_or_pos b with rfl | hb0
      · exact iff_of_false (by omega) (by omega)
      · exact iff_of_true (Or.inr (Or.inl (by omega))) (by omega)
    · rcases Nat.lt_trichotomy c 5 with hc5 | rfl | hc5
      · rcases Nat.eq_zero_or_pos c with rfl | hc0
        · exact iff_of_false (by omega) (by omega)
        · exact iff_of_true (Or.inr (Or.inr (Or.inl (by omega)))) (by omega)
      · rcases Nat.lt_trichotomy d 3 with hd3 | rfl | hd3
        · rcases Nat.eq_zero_or_pos d with rfl | hd0
          · exact iff_of_false (by omega) (by omega)
          · exact iff_of_true (Or.inr (Or.inr (Or.inr (Or.inl (by omega))))) (by omega)
        · rcases Nat.eq_zero_or_pos e with rfl | he0
          · exact iff_of_false (by omega) (by omega)
          · omega
        · exact iff_of_false (by omega) (by omega)
      · exact iff_of_false (by omega) (by omega)
    · exact iff_of_false (by omega) (by omega)
  · exact iff_of_false (by omega) (by omega)

/-- The numerals of five digits that the pattern has. -/
theorem portRegex_numeral_five_iff {n : Nat} (hle : 10000 ≤ n) (hlt : n < 100000) :
    portRegex.test (numeral n) = true ↔ n ≤ 65535 ∧ ¬ LackingPort n := by
  rw [numeral_of_five hle hlt, portRegex_five_iff, LackingPort]
  simp only [digit_digitUnit (Nat.mod_lt _ (by decide : 0 < 10)), and_true,
    range_digitUnit (Nat.mod_lt _ (by decide : 0 < 10)),
    range_digitUnit (show n / 10000 < 10 by omega),
    digitUnit_eq_unit_iff (show n / 10000 < 10 by omega) '6' (by decide),
    digitUnit_eq_unit_iff (Nat.mod_lt _ (by decide : 0 < 10)) '5' (by decide),
    digitUnit_eq_unit_iff (Nat.mod_lt _ (by decide : 0 < 10)) '3' (by decide),
    Char.reduceToNat]
  exact lackingPort_digits (by omega) (by omega) (Nat.mod_lt _ (by decide))
    (Nat.mod_lt _ (by decide)) (Nat.mod_lt _ (by decide)) (Nat.mod_lt _ (by decide))

/-- The numerals that the pattern has. -/
theorem portRegex_numeral_iff {n : Nat} (hpos : 0 < n) :
    portRegex.test (numeral n) = true ↔ n ≤ 65535 ∧ ¬ LackingPort n := by
  have hlength (k : Nat) := @length_numeral_le_iff n k
  rcases Nat.lt_or_ge n 10000 with hfour | hfive
  · have hin : n ≤ 65535 ∧ ¬ LackingPort n := by
      rw [LackingPort]
      omega
    refine iff_of_true (portRegex_iff.mpr ?_) hin
    rcases Nat.lt_or_ge n 10 with hone | htwo
    · refine Or.inl ⟨digitUnit n, numeral_of_lt hpos hone, ?_⟩
      rw [range_digitUnit hone]
      simp only [Char.reduceToNat]
      omega
    · have hshort := (hlength 1).not.mpr (by omega)
      have hlong := (hlength 4).mpr hfour
      exact Or.inr (Or.inl ⟨⟨by omega, hlong⟩, fun c => digit_of_mem_numeral⟩)
  · rcases Nat.lt_or_ge n 100000 with hlt | hsix
    · exact portRegex_numeral_five_iff hfive hlt
    · refine iff_of_false (fun h => ?_) (by omega)
      have hfive := (hlength 5).mp (length_of_portRegex h).2
      omega

/-- The texts of the pattern without a leading zero are numerals of ports. -/
theorem numeral_of_portRegex {text : Text} (h : portRegex.test text = true)
    (hhead : text.head? ≠ some (unit '0')) : IsPortNumeral text := by
  have hne : text ≠ [] := List.length_pos_iff.mp (length_of_portRegex h).1
  obtain ⟨n, hpos, rfl⟩ := exists_numeral hne (portRegex_digit h) hhead
  exact ⟨⟨n, hpos, ((portRegex_numeral_iff hpos).mp h).1⟩, rfl⟩

theorem head?_numeral_ne {n : Nat} (hpos : 0 < n) : (numeral n).head? ≠ some (unit '0') := by
  have hdigits : Nat.digits 10 n ≠ [] := Nat.digits_ne_nil_iff_ne_zero.mpr hpos.ne'
  rw [numeral, List.head?_map, List.head?_reverse, List.getLast?_eq_some_getLast hdigits,
    Option.map_some]
  intro hzero
  have hlt : (Nat.digits 10 n).getLast hdigits < 10 :=
    Nat.digits_lt_base (by decide) (List.getLast_mem hdigits)
  have hunit := (digitUnit_eq_unit_iff hlt '0' (by decide)).mp (Option.some_inj.mp hzero)
  simp only [Char.reduceToNat] at hunit
  exact Nat.getLast_digit_ne_zero 10 hpos.ne' (by omega)

theorem numeral_ne_nil {n : Nat} (hpos : 0 < n) : numeral n ≠ [] := by
  intro hnil
  have hlt := (@length_numeral_le_iff n 0).mp (by rw [hnil]; rfl)
  omega

/-! ## Texts that are proposed -/

/-- The rules of a port's field, which proposals leave alone. -/
structure PortRules (s : TextField) : Prop where
  mask : s.mask = some portRegex
  regexp : s.regexp = some portRegex
  prevents : s.prevents = [withoutLeadingZero]

theorem mismatch_portRegex (value : Text) :
    mismatch (some portRegex) value = true ↔ value ≠ [] ∧ portRegex.test value = false := by
  simp [mismatch]

theorem portRules_portField (port : Option Port) : PortRules (portField port) :=
  ⟨rfl, rfl, rfl⟩

section

variable {s : TextField} {value : Text} {values : List Text}

theorem PortRules.setText (h : PortRules s) (value : Text) : PortRules (s.setText value) := by
  unfold TextField.setText
  split
  · exact h
  · split
    · exact h
    · dsimp only
      split
      · exact ⟨h.mask, h.regexp, h.prevents⟩
      · exact ⟨h.mask, h.regexp, h.prevents⟩

/-- A text that the pattern does not have is refused. -/
theorem setText_of_lacking (h : PortRules s) (hvalue : value ≠ [])
    (htest : portRegex.test value = false) : s.setText value = s := by
  unfold TextField.setText
  rw [h.mask, if_pos ((mismatch_portRegex value).mpr ⟨hvalue, htest⟩), ite_self]

/-- A text that the pattern has is taken over without an error, unless it has a leading zero. -/
theorem setText_of_portRegex (h : PortRules s) (hne : s.text ≠ value)
    (htest : portRegex.test value = true) (hzero : withoutLeadingZero value = true) :
    (s.setText value).text = value ∧ (s.setText value).error = false := by
  have hmatch : mismatch (some portRegex) value = false := by simp [mismatch, htest]
  unfold TextField.setText
  simp [h.mask, h.regexp, h.prevents, hne, hmatch, hzero]

/-- The text stays, or is the proposal, which is empty or the numeral of a port. -/
theorem text_setText (h : PortRules s) (value : Text) :
    (s.setText value).text = s.text ∨
      (s.setText value).text = value ∧ (value = [] ∨ IsPortNumeral value) := by
  by_cases hsame : s.text = value
  · left
    unfold TextField.setText
    rw [if_pos hsame]
  · by_cases hnil : value = []
    · have hne : s.text ≠ [] := fun htext => hsame (htext.trans hnil.symm)
      unfold TextField.setText
      simp [h.mask, h.prevents, hne, hnil, mismatch, withoutLeadingZero]
    · cases htest : portRegex.test value with
      | false => exact Or.inl (by rw [setText_of_lacking h hnil htest])
      | true =>
          cases hzero : withoutLeadingZero value with
          | true =>
              refine Or.inr ⟨(setText_of_portRegex h hsame htest hzero).1, Or.inr ?_⟩
              exact numeral_of_portRegex htest (by simpa [withoutLeadingZero] using hzero)
          | false =>
              left
              unfold TextField.setText
              simp [h.mask, h.prevents, hsame, mismatch, htest, hzero]

theorem portRules_propose (h : PortRules s) (values : List Text) :
    PortRules (s.propose values) := by
  induction values generalizing s with
  | nil => exact h
  | cons value values ih => exact ih (h.setText value)

/-- The text is always empty or the numeral of a port. -/
theorem text_propose (h : PortRules s) (htext : s.text = [] ∨ IsPortNumeral s.text)
    (values : List Text) :
    (s.propose values).text = [] ∨ IsPortNumeral (s.propose values).text := by
  induction values generalizing s with
  | nil => exact htext
  | cons value values ih =>
      refine ih (h.setText value) ?_
      rcases text_setText h value with hstays | ⟨htaken, hvalue⟩
      · rwa [hstays]
      · rwa [htaken]

/-- The text is one of the proposals, or the one before them. -/
theorem text_propose_mem (h : PortRules s) (values : List Text) :
    (s.propose values).text = s.text ∨ (s.propose values).text ∈ values := by
  induction values generalizing s with
  | nil => exact Or.inl rfl
  | cons value values ih =>
      rcases ih (h.setText value) with hbefore | hmem
      · rcases text_setText h value with hstays | ⟨htaken, -⟩
        · exact Or.inl (hbefore.trans hstays)
        · exact Or.inr (List.mem_cons.mpr (Or.inl (hbefore.trans htaken)))
      · exact Or.inr (List.mem_cons_of_mem _ hmem)

end

/-- The last prefix is the text itself. -/
theorem prefixes_of_ne_nil {text : Text} (h : text ≠ []) :
    ∃ shorter, prefixes text = shorter ++ [text] ∧ ∀ part ∈ shorter, part ≠ text := by
  obtain ⟨k, hk⟩ := Nat.exists_eq_succ_of_ne_zero (List.length_pos_iff.mpr h).ne'
  refine ⟨(List.range k).map fun i => text.take (i + 1), ?_, ?_⟩
  · rw [prefixes, hk, List.range_succ, List.map_append, List.map_singleton,
      List.take_of_length_le hk.le]
  · intro part hpart
    obtain ⟨i, hi, rfl⟩ := List.mem_map.mp hpart
    have hlt := List.mem_range.mp hi
    intro hwhole
    have hlength := congrArg List.length hwhole
    rw [List.length_take] at hlength
    omega

/-- A port can be typed exactly if the pattern does not lack it. -/
theorem typed_iff (port : Port) :
    (typed port).text = numeral port ∧ (typed port).error = false ↔ ¬ LackingPort port := by
  have hne := numeral_ne_nil port.2.1
  obtain ⟨shorter, hprefixes, hshorter⟩ := prefixes_of_ne_nil hne
  have hrules := portRules_propose (portRules_portField none) shorter
  have hbefore : ((portField none).propose shorter).text ≠ numeral port := by
    rcases text_propose_mem (portRules_portField none) shorter with hempty | hmem
    · rw [hempty]
      exact hne.symm
    · exact hshorter _ hmem
  have htyped : typed port = ((portField none).propose shorter).setText (numeral port) := by
    rw [typed, hprefixes, propose, List.foldl_append]
    rfl
  have hiff := portRegex_numeral_iff port.2.1
  rw [htyped]
  cases htest : portRegex.test (numeral port) with
  | true =>
      have hhead := head?_numeral_ne port.2.1
      refine iff_of_true ?_ (hiff.mp htest).2
      exact setText_of_portRegex hrules hbefore htest (by simpa [withoutLeadingZero] using hhead)
  | false =>
      rw [setText_of_lacking hrules hne htest]
      refine iff_of_false (fun h => hbefore h.1) fun hnot => ?_
      rw [hiff.mpr ⟨port.2.2, hnot⟩] at htest
      cases htest

/-- Whatever is proposed, the text is empty or the numeral of a port; and a port can be typed
exactly if it is not one of those that the pattern lacks. -/
theorem portField_iff (initial : Option Port) (values : List Text) (port : Port) :
    (((portField initial).propose values).text = [] ∨
        IsPortNumeral ((portField initial).propose values).text) ∧
      ((typed port).text = numeral port ∧ (typed port).error = false ↔ ¬ LackingPort port) := by
  refine ⟨text_propose (portRules_portField initial) ?_ values, typed_iff port⟩
  cases initial with
  | none => exact Or.inl rfl
  | some initial => exact Or.inr ⟨initial, rfl⟩

/-- The port 60000 cannot be typed. -/
theorem port_refused :
    ¬ ∀ port : Port, (typed port).text = numeral port ∧ (typed port).error = false := by
  intro hall
  exact (typed_iff ⟨60000, by decide⟩).mp (hall _) (Or.inl (by decide))

end ArtPlatform.Web
