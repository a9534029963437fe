import Mathlib.Data.List.Basic

/-!
# Words of the shell

The characters that mean something to the shell, and what is left of a word when its quotes
are removed.  A word whose value depends on the environment (it is expanded) has none here.

Main results:

- Theorem `literal_of_plainPath`, `operand_of_plainOperand`: a word of plain characters stands
  for itself.
- Theorem `eq_of_length_le`: a word that is not longer than its value has no quotes, and is
  its value.
- Theorem `operand_singleQuoted`: a text in single quotes stands for the text.
-/

namespace ArtPlatform.Shell

/-- A text, in units of 16 bits. -/
abbrev Text := List UInt16

def char (c : Char) : UInt16 :=
  c.toNat.toUInt16

def chars (cs : List Char) : Text :=
  cs.map char

inductive Kind
  | blank | newline | sharp | backslash | quote | doubleQuote | dollar | backquote
  | openParen | closeParen | openBrace | closeBrace
  | ampersand | bar | semicolon | less | greater
  | minus | tilde | pattern | plain
deriving DecidableEq, Repr

def kind (c : UInt16) : Kind :=
  match c.toNat with
  | 9 | 32 => .blank
  | 10 => .newline
  | 34 => .doubleQuote
  | 35 => .sharp
  | 36 => .dollar
  | 38 => .ampersand
  | 39 => .quote
  | 40 => .openParen
  | 41 => .closeParen
  | 42 | 63 | 91 => .pattern
  | 45 => .minus
  | 59 => .semicolon
  | 60 => .less
  | 62 => .greater
  | 92 => .backslash
  | 96 => .backquote
  | 123 => .openBrace
  | 124 => .bar
  | 125 => .closeBrace
  | 126 => .tilde
  | _ => .plain

/-- The only character that ends a single-quoted text. -/
def singleQuote : UInt16 := 39

theorem kind_eq_quote_iff {c : UInt16} : kind c = .quote ↔ c = singleQuote := by
  constructor
  · intro h
    unfold kind at h
    split at h
    case h_8 heq => exact UInt16.toNat_inj.mp heq
    all_goals cases h
  · rintro rfl
    rfl

namespace Kind

def quotes : Kind → Bool
  | .backslash | .quote | .doubleQuote => true
  | _ => false

/-- The kinds that an expansion begins with. -/
def expands : Kind → Bool
  | .dollar | .backquote => true
  | _ => false

def special (k : Kind) : Bool :=
  k.quotes || k.expands

/-- The kinds that an unquoted word goes on with. -/
def inWord : Kind → Bool
  | .sharp | .openBrace | .closeBrace | .minus | .tilde | .pattern | .plain => true
  | _ => false

theorem not_special_of_inWord {k : Kind} (h : k.inWord = true) : k.special = false := by
  cases k <;> first | rfl | cases h

end Kind

def Special (text : Text) : Prop :=
  ∃ c ∈ text, (kind c).special = true

/-- A text that is read as one word without quotes and expansions. -/
structure PlainWord (word : Text) : Prop where
  ne_nil : word ≠ []
  inWord : ∀ c ∈ word, (kind c).inWord = true
  head : ∀ c ∈ word.head?, kind c ≠ .sharp

instance (word : Text) : Decidable (PlainWord word) :=
  decidable_of_iff (word ≠ [] ∧ word.all (fun c => (kind c).inWord) = true ∧
      word.head?.map kind ≠ some .sharp)
    ⟨fun ⟨h, h', h''⟩ => ⟨h, List.all_eq_true.mp h', fun c hc heq => h'' (by rw [hc, ← heq]; rfl)⟩,
      fun h => ⟨h.ne_nil, List.all_eq_true.mpr h.inWord, fun heq => by
        obtain ⟨c, hc, hsharp⟩ := Option.map_eq_some_iff.mp heq
        exact h.head c hc hsharp⟩⟩

/-! ## Quote removal -/

/-- How a character stands in a word: unquoted, in double quotes, or quoted so that it is
nothing but itself. -/
inductive Quoting
  | bare | double | literal
deriving DecidableEq, Repr

/-- The open quotes. -/
inductive Quotes
  | none | single | double
deriving DecidableEq, Repr

/-- What a backslash quotes in double quotes. -/
def Kind.escapable : Kind → Bool
  | .dollar | .backquote | .doubleQuote | .backslash => true
  | _ => false

def pieces : Quotes → Text → List (Quoting × UInt16)
  | _, [] => []
  | .none, c :: cs =>
      match kind c with
      | .quote => pieces .single cs
      | .doubleQuote => pieces .double cs
      | .backslash =>
          match cs with
          | [] => []
          | d :: ds => (.literal, d) :: pieces .none ds
      | _ => (.bare, c) :: pieces .none cs
  | .single, c :: cs =>
      match kind c with
      | .quote => pieces .none cs
      | _ => (.literal, c) :: pieces .single cs
  | .double, c :: cs =>
      match kind c with
      | .doubleQuote => pieces .none cs
      | .backslash =>
          match cs with
          | [] => []
          | d :: ds =>
              if (kind d).escapable then (.literal, d) :: pieces .double ds
              else (.literal, c) :: (.literal, d) :: pieces .double ds
      | _ => (.double, c) :: pieces .double cs

def unquote (word : Text) : Text :=
  (pieces .none word).map Prod.snd

/-- An expansion begins here. -/
def expands (piece : Quoting × UInt16) : Bool :=
  piece.1 ≠ .literal && (kind piece.2).expands

/-- A character of a pattern, which file names are looked up for. -/
def globs (piece : Quoting × UInt16) : Bool :=
  piece.1 = .bare && kind piece.2 = .pattern

/-- The value of a word, if it is the same in every environment. -/
def literal (word : Text) : Option Text :=
  if (pieces .none word).any expands || word.head?.any fun c => kind c = .tilde then none
  else some (unquote word)

/-- The value of a word among the operands of a command, where patterns are expanded too. -/
def operand (word : Text) : Option Text :=
  if (pieces .none word).any globs then none else literal word

/-- A word that stands for itself as the target of a redirection. -/
structure PlainPath (path : Text) : Prop extends PlainWord path where
  tilde : ∀ c ∈ path.head?, kind c ≠ .tilde

/-- A word that stands for itself among the operands. -/
structure PlainOperand (word : Text) : Prop extends PlainPath word where
  pattern : ∀ c ∈ word, kind c ≠ .pattern

/-! ## Values -/

section

variable {word value text : Text} {c : UInt16}

attribute [local simp] pieces in
theorem length_pieces_le (quotes : Quotes) (word : Text) :
    (pieces quotes word).length ≤ word.length := by
  fun_induction pieces quotes word <;> simp <;> omega

theorem length_unquote_le (word : Text) : (unquote word).length ≤ word.length := by
  rw [unquote, List.length_map]
  exact length_pieces_le .none word

theorem expands_eq (c : UInt16) : expands (.bare, c) = (kind c).expands :=
  rfl

theorem pieces_cons (h : (kind c).quotes = false) (cs : Text) :
    pieces .none (c :: cs) = (.bare, c) :: pieces .none cs := by
  rw [pieces.eq_def]
  dsimp only
  split <;> simp_all [Kind.quotes]

theorem length_pieces_cons_le (h : (kind c).quotes = true) (cs : Text) :
    (pieces .none (c :: cs)).length ≤ cs.length := by
  rw [pieces.eq_def]
  dsimp only
  split
  case h_1 => exact length_pieces_le .single cs
  case h_2 => exact length_pieces_le .double cs
  case h_3 =>
    cases cs with
    | nil => exact Nat.le_refl 0
    | cons d ds => exact Nat.succ_le_succ (length_pieces_le .none ds)
  case h_4 hquote hdouble hbackslash =>
    revert h hquote hdouble hbackslash
    cases kind c <;> simp [Kind.quotes]

/-- Only a word without quotes keeps its length. -/
theorem pieces_of_length_le (h : word.length ≤ (pieces .none word).length) :
    pieces .none word = word.map (Quoting.bare, ·) ∧
      ∀ c ∈ word, (kind c).quotes = false := by
  induction word with
  | nil => exact ⟨rfl, fun c hc => absurd hc List.not_mem_nil⟩
  | cons c cs ih =>
      cases hquotes : (kind c).quotes with
      | true =>
          have hle := length_pieces_cons_le hquotes cs
          simp only [List.length_cons] at h
          omega
      | false =>
          rw [pieces_cons hquotes] at h ⊢
          obtain ⟨heq, hnone⟩ := ih (by simpa using h)
          refine ⟨by rw [heq, List.map_cons], fun d hd => ?_⟩
          rcases List.mem_cons.mp hd with rfl | hd
          · exact hquotes
          · exact hnone d hd

theorem literal_eq_some_iff : literal word = some value ↔
    (∀ piece ∈ pieces .none word, expands piece = false) ∧
      (∀ c ∈ word.head?, kind c ≠ .tilde) ∧ unquote word = value := by
  simp only [literal, ite_eq_iff, reduceCtorEq, and_false, false_or, Bool.or_eq_true,
    List.any_eq_true, Option.any_eq_true, Option.some.injEq, not_or, not_exists, not_and,
    Bool.not_eq_true, decide_eq_true_eq, and_assoc, Option.mem_def]

theorem operand_eq_some_iff : operand word = some value ↔
    (∀ piece ∈ pieces .none word, globs piece = false) ∧ literal word = some value := by
  simp only [operand, ite_eq_iff, reduceCtorEq, and_false, false_or, List.any_eq_true, not_exists,
    not_and, Bool.not_eq_true]

theorem length_le_of_literal (h : literal word = some value) : value.length ≤ word.length := by
  rw [← (literal_eq_some_iff.mp h).2.2]
  exact length_unquote_le word

/-- A word that is not longer than its value is its value, without quotes and expansions. -/
theorem eq_of_length_le (h : literal word = some value) (hlength : word.length ≤ value.length) :
    value = word ∧ ¬ Special word ∧ ∀ c ∈ word.head?, kind c ≠ .tilde := by
  obtain ⟨hexpands, htilde, rfl⟩ := literal_eq_some_iff.mp h
  rw [unquote, List.length_map] at hlength
  obtain ⟨hpieces, hquotes⟩ := pieces_of_length_le hlength
  refine ⟨by simp [unquote, hpieces, Function.comp_def], ?_, htilde⟩
  rintro ⟨c, hc, hspecial⟩
  have hexpand := hexpands (.bare, c) (hpieces ▸ List.mem_map_of_mem hc)
  have hquote := hquotes c hc
  rw [expands_eq] at hexpand
  rw [Kind.special, hquote, hexpand] at hspecial
  cases hspecial

theorem no_pattern_of_operand (h : operand word = some value)
    (hlength : word.length ≤ value.length) : ∀ c ∈ word, kind c ≠ .pattern := by
  obtain ⟨hglobs, hliteral⟩ := operand_eq_some_iff.mp h
  obtain ⟨-, -, rfl⟩ := literal_eq_some_iff.mp hliteral
  rw [unquote, List.length_map] at hlength
  obtain ⟨hpieces, -⟩ := pieces_of_length_le hlength
  intro c hc hkind
  have hglob := hglobs (.bare, c) (hpieces ▸ List.mem_map_of_mem hc)
  simp [globs, hkind] at hglob

theorem pieces_of_inWord (h : ∀ c ∈ word, (kind c).inWord = true) :
    pieces .none word = word.map (Quoting.bare, ·) := by
  induction word with
  | nil => rfl
  | cons c cs ih =>
      have hc := Kind.not_special_of_inWord (h c List.mem_cons_self)
      rw [Kind.special, Bool.or_eq_false_iff] at hc
      rw [pieces_cons hc.1, ih fun d hd => h d (List.mem_cons_of_mem _ hd), List.map_cons]

theorem literal_of_plainPath (h : PlainPath word) : literal word = some word := by
  rw [literal_eq_some_iff, unquote, pieces_of_inWord h.inWord]
  refine ⟨fun piece hpiece => ?_, h.tilde, by simp [Function.comp_def]⟩
  obtain ⟨c, hc, rfl⟩ := List.mem_map.mp hpiece
  have hspecial := Kind.not_special_of_inWord (h.inWord c hc)
  rw [Kind.special, Bool.or_eq_false_iff] at hspecial
  rw [expands_eq, hspecial.2]

theorem operand_of_plainOperand (h : PlainOperand word) : operand word = some word := by
  rw [operand_eq_some_iff, pieces_of_inWord h.inWord]
  refine ⟨fun piece hpiece => ?_, literal_of_plainPath h.toPlainPath⟩
  obtain ⟨c, hc, rfl⟩ := List.mem_map.mp hpiece
  simp [globs, h.pattern c hc]

theorem pieces_single (h : singleQuote ∉ text) (rest : Text) :
    pieces .single (text ++ singleQuote :: rest) =
      text.map (Quoting.literal, ·) ++ pieces .none rest := by
  induction text with
  | nil => rfl
  | cons c cs ih =>
      obtain ⟨hc, hcs⟩ := not_or.mp (mt List.mem_cons.mpr h)
      have hkind : kind c ≠ .quote := fun hquote => hc (kind_eq_quote_iff.mp hquote).symm
      rw [List.cons_append, pieces]
      simp only [ih hcs, List.map_cons, List.cons_append]

theorem pieces_singleQuoted (h : singleQuote ∉ text) (rest : Text) :
    pieces .none (singleQuote :: (text ++ singleQuote :: rest)) =
      text.map (Quoting.literal, ·) ++ pieces .none rest := by
  rw [← pieces_single h]
  rfl

theorem operand_singleQuoted (h : singleQuote ∉ text) :
    operand (singleQuote :: (text ++ [singleQuote])) = some text := by
  have hpieces := pieces_singleQuoted h []
  rw [operand_eq_some_iff, literal_eq_some_iff, unquote, hpieces]
  refine ⟨fun piece hpiece => ?_, fun piece hpiece => ?_, by rintro c ⟨⟩; decide, ?_⟩
  · obtain ⟨c, -, rfl⟩ := List.mem_map.mp (by simpa [pieces] using hpiece)
    rfl
  · obtain ⟨c, -, rfl⟩ := List.mem_map.mp (by simpa [pieces] using hpiece)
    rfl
  · simp [pieces, Function.comp_def]

end

end ArtPlatform.Shell
