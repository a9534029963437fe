import ArtPlatform.Shell.Grammar

/-!
# Reading a text

The shell reads a text character by character and delimits its tokens.  Quotes, expansions and
substitutions that are open stand above the word that they are in; a substitution is read like
a text of its own, with its own grammar.

Main results:

- Theorem `plainWord_of_token`: a word without quotes and expansions is plain.
- Theorem `weight_run_reader`: the words of a text, each with one character behind it, are not longer
  than the text.
- Theorem `not_mem_of_singleQuoted`: a text in single quotes that is read as itself has none.
-/

namespace ArtPlatform.Shell

open Transducer

def backslash : UInt16 := 92

def tab : UInt16 := 9

def blank : UInt16 := 32

/-- A here-document that begins behind the line. -/
structure HereDocument where
  delimiter : Text
  strip : Bool
  quoted : Bool
deriving DecidableEq, Repr

def HereDocument.line (h : HereDocument) (line : Text) : Text :=
  if h.strip then line.dropWhile fun c => c = tab else line

inductive Core
  | start
  | operator (o : Operator)
  | redirection (number : Option Text) (o : RedirectionOperator)
  /-- a word, and whether a dollar sign is the last of it -/
  | word (raw : Text) (dollar : Bool)
  | comment
  | here (body line : Text)
deriving DecidableEq, Repr

structure Script where
  core : Core := .start
  pending : List HereDocument := []
  /-- a here-document waits for its delimiter -/
  expecting : Option Bool := none
deriving DecidableEq, Repr

/-- What is open inside a word. -/
inductive Level
  | single
  | double (dollar : Bool)
  | brace (dollar : Bool)
  /-- behind `$(` -/
  | opened
  | arithmetic (depth : Nat) (dollar : Bool)
  | backquote
  | command (script : Script) (grammar : Grammar)
deriving DecidableEq, Repr

structure Reader where
  base : Script := {}
  levels : List Level := []
  /-- behind a backslash that quotes the next character -/
  escaped : Bool := false
deriving DecidableEq, Repr

def Operator.extend : Operator → Kind → Option Operator
  | .amp, .ampersand => some .andIf
  | .pipe, .bar => some .orIf
  | .semi, .semicolon => some .dsemi
  | _, _ => none

def RedirectionOperator.extend : RedirectionOperator → Kind → Option RedirectionOperator
  | .less, .less => some .dless
  | .less, .ampersand => some .lessAnd
  | .less, .greater => some .lessGreat
  | .dless, .minus => some .dlessDash
  | .great, .greater => some .dgreat
  | .great, .ampersand => some .greatAnd
  | .great, .bar => some .clobber
  | _, _ => none

/-- The kinds that end an unquoted word. -/
def Kind.ends : Kind → Bool
  | .blank | .newline | .openParen | .closeParen | .ampersand | .bar | .semicolon | .less
  | .greater => true
  | _ => false

/-- The levels that begin in quotes as well as in a word; `dollar` stands in front. -/
def Kind.opens : Kind → Bool → Option Level
  | .backquote, _ => some .backquote
  | .openBrace, true => some (.brace false)
  | .openParen, true => some .opened
  | _, _ => none

def Kind.opensInWord : Kind → Bool → Option Level
  | .quote, _ => some .single
  | .doubleQuote, _ => some (.double false)
  | k, sigil => k.opens sigil

/-! ## One character -/

namespace Script

def note (s : Script) : Token → Script
  | .redirection _ .dless => { s with expecting := some false }
  | .redirection _ .dlessDash => { s with expecting := some true }
  | .word raw =>
      match s.expecting with
      | some strip =>
          { s with
            expecting := none
            pending := s.pending ++ [⟨unquote raw, strip, raw.any fun c => (kind c).quotes⟩] }
      | none => s
  | _ => s

def wordChar (s : Script) (raw : Text) (dollar : Bool) (c : UInt16) :
    Script × List Token × Option Level :=
  ({ s with core := .word (raw ++ [c]) (kind c = .dollar) }, [], (kind c).opensInWord dollar)

/-- A character between two tokens. -/
def fresh (s : Script) (c : UInt16) : Script × List Token × Option Level :=
  match kind c with
  | .blank => ({ s with core := .start }, [], none)
  | .newline =>
      ({ s with core := if s.pending = [] then .start else .here [] [] },
        [.operator .newline], none)
  | .sharp => ({ s with core := .comment }, [], none)
  | .openParen => ({ s with core := .start }, [.operator .openParen], none)
  | .closeParen => ({ s with core := .start }, [.operator .closeParen], none)
  | .ampersand => ({ s with core := .operator .amp }, [], none)
  | .bar => ({ s with core := .operator .pipe }, [], none)
  | .semicolon => ({ s with core := .operator .semi }, [], none)
  | .less => ({ s with core := .redirection none .less }, [], none)
  | .greater => ({ s with core := .redirection none .great }, [], none)
  | _ => s.wordChar [] false c

/-- A character that ends a token. -/
def delimit (s : Script) (token : Token) (c : UInt16) : Script × List Token × Option Level :=
  let next := (s.note token).fresh c
  (next.1, token :: next.2.1, next.2.2)

def hereChar (s : Script) (body line : Text) (c : UInt16) : Script × List Token :=
  if kind c = .newline then
    match s.pending with
    | [] => ({ s with core := .start }, [])
    | h :: pending =>
        if h.line line = h.delimiter then
          ({ s with core := if pending = [] then .start else .here [] [], pending := pending },
            [.here body])
        else ({ s with core := .here (body ++ h.line line ++ [c]) [] }, [])
  else ({ s with core := .here body (line ++ [c]) }, [])

def read (s : Script) (c : UInt16) : Script × List Token × Option Level :=
  match s.core with
  | .start => s.fresh c
  | .operator o =>
      match o.extend (kind c) with
      | some o => ({ s with core := .operator o }, [], none)
      | none => s.delimit (.operator o) c
  | .redirection number o =>
      match o.extend (kind c) with
      | some o => ({ s with core := .redirection number o }, [], none)
      | none => s.delimit (.redirection number o) c
  | .word raw dollar =>
      if (kind c).ends = false ∨ (dollar = true ∧ kind c = .openParen) then
        s.wordChar raw dollar c
      else if raw.all digit = true ∧ kind c = .less then
        ({ s with core := .redirection (some raw) .less }, [], none)
      else if raw.all digit = true ∧ kind c = .greater then
        ({ s with core := .redirection (some raw) .great }, [], none)
      else s.delimit (.word raw) c
  | .comment => if kind c = .newline then s.fresh c else (s, [], none)
  | .here body line => ((s.hereChar body line c).1, (s.hereChar body line c).2, none)

/-- A character behind a backslash. -/
def readEscaped (s : Script) (c : UInt16) : Script × List Token :=
  match s.core with
  | .start => ({ s with core := .word [backslash, c] false }, [])
  | .operator o =>
      ({ s with core := .word [backslash, c] false }, [.operator o])
  | .redirection number o =>
      ({ s.note (.redirection number o) with core := .word [backslash, c] false },
        [.redirection number o])
  | .word raw _ => ({ s with core := .word (raw ++ [backslash, c]) false }, [])
  | .comment => (s, [])
  | .here body line => ({ s with core := .here body (line ++ [backslash, c]) }, [])

/-- A backslash quotes the next character, except in comments and quoted here-documents. -/
def escapes (s : Script) : Bool :=
  match s.core with
  | .comment => false
  | .here _ _ => !s.pending.head?.any HereDocument.quoted
  | _ => true

/-- What the end of the text makes of the token that is read. -/
def finish (s : Script) : Option (List Token) :=
  match s.core, s.pending with
  | .here body line, [h] => if h.line line = h.delimiter then some [.here body] else none
  | .here _ _, _ => none
  | _, _ :: _ => none
  | core, [] =>
      if s.expecting.isSome then none
      else
        match core with
        | .operator o => some [.operator o]
        | .redirection number o => some [.redirection number o]
        | .word raw _ => some [.word raw]
        | _ => some []

/-- The text in front of a closing parenthesis is a whole program. -/
def closes (s : Script) (g : Grammar) : Bool :=
  match s.core with
  | .comment | .here _ _ => false
  | _ => s.finish.any fun tokens => (run Grammar.step g tokens).any fun last => last.1.accepts

def append (s : Script) (text : Text) : Script :=
  match s.core with
  | .word raw _ => { s with core := .word (raw ++ text) false }
  | _ => s

end Script

namespace Level

def readCommand (s : Script) (g : Grammar) (c : UInt16) : Option (List Level) :=
  if kind c = .closeParen ∧ s.closes g = true then some []
  else
    (run Grammar.step g (s.read c).2.1).map fun last =>
      (s.read c).2.2.toList ++ [.command (s.read c).1 last.1]

def read : Level → UInt16 → Option (List Level)
  | .single, c => some (if kind c = .quote then [] else [.single])
  | .double dollar, c =>
      some (if kind c = .doubleQuote then []
        else ((kind c).opens dollar).toList ++ [.double (kind c = .dollar)])
  | .brace dollar, c =>
      some (if kind c = .closeBrace then []
        else ((kind c).opensInWord dollar).toList ++ [.brace (kind c = .dollar)])
  | .opened, c =>
      if kind c = .openParen then some [.arithmetic 2 false] else readCommand {} {} c
  | .arithmetic depth dollar, c =>
      match kind c, dollar with
      | .openParen, false => some [.arithmetic (depth + 1) false]
      | .closeParen, _ => some (if depth ≤ 1 then [] else [.arithmetic (depth - 1) false])
      | k, _ => some ((k.opens dollar).toList ++ [.arithmetic depth (k = .dollar)])
  | .backquote, c => some (if kind c = .backquote then [] else [.backquote])
  | .command s g, c => readCommand s g c

def readEscaped : Level → UInt16 → Option Level
  | .single, _ => some .single
  | .double _, _ => some (.double false)
  | .brace _, _ => some (.brace false)
  | .opened, c =>
      (run Grammar.step {} (({} : Script).readEscaped c).2).map fun last =>
        .command (({} : Script).readEscaped c).1 last.1
  | .arithmetic depth _, _ => some (.arithmetic depth false)
  | .backquote, _ => some .backquote
  | .command s g, c =>
      (run Grammar.step g (s.readEscaped c).2).map fun last =>
        .command (s.readEscaped c).1 last.1

def escapes : Level → Bool
  | .single => false
  | .command s _ => s.escapes
  | _ => true

end Level

namespace Reader

def escapes (r : Reader) : Bool :=
  match r.levels with
  | [] => r.base.escapes
  | level :: _ => level.escapes

/-- A backslash and a newline are as if they were not there. -/
def step (r : Reader) (c : UInt16) : Option (Reader × List Token) :=
  if r.escaped then
    if kind c = .newline then some ({ r with escaped := false }, [])
    else
      match r.levels with
      | [] => some ({ base := (r.base.readEscaped c).1 }, (r.base.readEscaped c).2)
      | level :: levels =>
          (level.readEscaped c).map fun level =>
            ({ base := r.base.append [backslash, c], levels := level :: levels }, [])
  else if kind c = .backslash ∧ r.escapes = true then some ({ r with escaped := true }, [])
  else
    match r.levels with
    | [] =>
        some ({ base := (r.base.read c).1, levels := (r.base.read c).2.2.toList },
          (r.base.read c).2.1)
    | level :: levels =>
        (level.read c).map fun opened =>
          ({ base := r.base.append [c], levels := opened ++ levels }, [])

def finish (r : Reader) : Option (List Token) :=
  if r.levels = [] ∧ r.escaped = false then r.base.finish else none

end Reader

/-- The tokens of a text that goes on where the reader is. -/
def tokensFrom (r : Reader) (text : Text) : Option (List Token) :=
  (run Reader.step r text).bind fun last => last.1.finish.map (last.2 ++ ·)

def tokens (text : Text) : Option (List Token) :=
  tokensFrom {} text

def readProgram (text : Text) : Option Program :=
  (tokens text).bind parse

/-- The text is read whole, up to the beginning of another token. -/
def ReadsTo (text : Text) (read : List Token) : Prop :=
  run Reader.step {} text = some ({}, read)

/-! ## The length of what is read -/

def Token.weight : Token → Nat
  | .word raw => raw.length + 1
  | _ => 0

def Core.size : Core → Nat
  | .word raw _ => raw.length
  | _ => 0

def Reader.size (r : Reader) : Nat :=
  r.base.core.size + if r.escaped then 1 else 0

section

variable {s : Script} {r r' : Reader} {c : UInt16} {text : Text} {read : List Token}

namespace Script

theorem weight_fresh (s : Script) (c : UInt16) :
    ((s.fresh c).2.1.map Token.weight).sum + (s.fresh c).1.core.size ≤
      if (kind c).ends = true then 0 else 1 := by
  rw [fresh]
  by_cases hpending : s.pending = [] <;> cases kind c <;>
    simp [hpending, Kind.ends, Token.weight, Core.size, wordChar]

theorem weight_delimit (s : Script) (token : Token) (c : UInt16) :
    ((s.delimit token c).2.1.map Token.weight).sum + (s.delimit token c).1.core.size ≤
      token.weight + if (kind c).ends = true then 0 else 1 := by
  have hfresh := weight_fresh (s.note token) c
  have hsum : ((s.delimit token c).2.1.map Token.weight).sum =
      token.weight + (((s.note token).fresh c).2.1.map Token.weight).sum := by
    rw [delimit, List.map_cons, List.sum_cons]
  have hsize : (s.delimit token c).1.core.size = ((s.note token).fresh c).1.core.size := rfl
  omega

theorem weight_delimit_operator (s : Script) {token : Token} (h : token.weight = 0)
    (c : UInt16) :
    ((s.delimit token c).2.1.map Token.weight).sum + (s.delimit token c).1.core.size ≤ 1 := by
  have hdelimit := weight_delimit s token c
  split at hdelimit <;> omega

theorem weight_read (s : Script) (c : UInt16) :
    ((s.read c).2.1.map Token.weight).sum + (s.read c).1.core.size ≤ s.core.size + 1 := by
  have hfresh := weight_fresh s c
  rw [read]
  cases hcore : s.core with
  | start =>
      simp only
      split at hfresh <;> omega
  | operator o =>
      simp only
      split
      · simp [Core.size]
      · exact weight_delimit_operator s rfl c
  | redirection number o =>
      simp only
      split
      · simp [Core.size]
      · exact weight_delimit_operator s rfl c
  | comment =>
      simp only
      split
      · split at hfresh <;> omega
      · simp [hcore, Core.size]
  | here body line =>
      simp only [hereChar]
      split
      · split
        · simp [Core.size]
        · split
          · split <;> simp [Core.size, Token.weight]
          · simp [Core.size]
      · simp [Core.size]
  | word raw dollar =>
      simp only
      split
      · simp [wordChar, Core.size]
      · split
        · simp [Core.size]
        · split
          · simp [Core.size]
          · next hends _ _ =>
              have hdelimit := weight_delimit s (.word raw) c
              rw [not_or, Bool.not_eq_false] at hends
              rw [if_pos hends.1] at hdelimit
              simpa [Token.weight, Core.size] using hdelimit

theorem weight_readEscaped (s : Script) (c : UInt16) :
    ((s.readEscaped c).2.map Token.weight).sum + (s.readEscaped c).1.core.size ≤
      s.core.size + 2 := by
  rw [readEscaped]
  cases hcore : s.core <;> simp [hcore, Core.size, Token.weight]

theorem size_append (s : Script) (text : Text) :
    (s.append text).core.size ≤ s.core.size + text.length := by
  rw [append]
  cases hcore : s.core <;> simp [hcore, Core.size]

end Script

theorem Reader.weight_step {r r' : Reader} {c : UInt16} {read : List Token}
    (h : r.step c = some (r', read)) :
    (read.map Token.weight).sum + r'.size ≤ r.size + 1 := by
  have hread := r.base.weight_read c
  have hescaped := r.base.weight_readEscaped c
  have hone := r.base.size_append [c]
  have htwo := r.base.size_append [backslash, c]
  simp only [List.length_cons, List.length_nil] at hone htwo
  rw [step] at h
  rw [size, size]
  split at h
  next hbackslash =>
    rw [if_pos hbackslash]
    split at h
    · cases h
      simp only [List.map_nil, List.sum_nil, Bool.false_eq_true, if_false]
      omega
    · split at h
      · cases h
        simpa using hescaped
      · obtain ⟨level, -, heq⟩ := Option.map_eq_some_iff.mp h
        cases heq
        simpa using htwo
  next hbackslash =>
    rw [if_neg hbackslash]
    split at h
    · cases h
      simp
    · split at h
      · cases h
        simpa using hread
      · obtain ⟨opened, -, heq⟩ := Option.map_eq_some_iff.mp h
        cases heq
        simpa using hone

/-- The words that are read, each with one more character, are not longer than the text. -/
theorem weight_run_reader (h : run Reader.step r text = some (r', read)) :
    (read.map Token.weight).sum + r'.size ≤ r.size + text.length :=
  weight_run (fun _ _ _ _ hstep => Reader.weight_step hstep) h

/-! ## Plain words -/

theorem Kind.inWord_of_not {k : Kind} (hends : k.ends = false) (hspecial : k.special = false) :
    k.inWord = true := by
  cases k <;> first | rfl | exact absurd hends (by decide) | exact absurd hspecial (by decide)

theorem Kind.opensInWord_of_not {k : Kind} (hspecial : k.special = false) :
    k.opensInWord false = none := by
  cases k <;> first | rfl | exact absurd hspecial (by decide)

theorem not_special_append {left right : Text} (h : ¬ Special (left ++ right)) :
    ¬ Special left ∧ ¬ Special right := by
  constructor
  · rintro ⟨c, hc, hspecial⟩
    exact h ⟨c, List.mem_append_left _ hc, hspecial⟩
  · rintro ⟨c, hc, hspecial⟩
    exact h ⟨c, List.mem_append_right _ hc, hspecial⟩

theorem special_singleton {c : UInt16} (h : ¬ Special [c]) : (kind c).special = false := by
  rw [← Bool.not_eq_true]
  exact fun hspecial => h ⟨c, List.mem_singleton_self c, hspecial⟩

theorem plainWord_append {word : Text} {c : UInt16} (hword : PlainWord word)
    (hc : (kind c).inWord = true) : PlainWord (word ++ [c]) := by
  refine ⟨by simp, fun d hd => ?_, ?_⟩
  · rcases List.mem_append.mp hd with hd | hd
    · exact hword.inWord d hd
    · rw [List.mem_singleton.mp hd]
      exact hc
  · rw [List.head?_append_of_ne_nil _ hword.ne_nil]
    exact hword.head

theorem plainWord_singleton {c : UInt16} (hc : (kind c).inWord = true) (hsharp : kind c ≠ .sharp) :
    PlainWord [c] := by
  refine ⟨by simp, fun d hd => ?_, ?_⟩
  · rw [List.mem_singleton.mp hd]
    exact hc
  · rintro d ⟨⟩
    exact hsharp

/-- A word without quotes and expansions is plain, and nothing is open in it. -/
def Core.Fine (core : Core) (levels : List Level) : Prop :=
  ∀ raw sigil, core = .word raw sigil →
    (¬ Special raw → PlainWord raw ∧ levels = []) ∧ (sigil = true → Special raw)

theorem Core.Fine.of_ne {core : Core} {levels : List Level}
    (h : ∀ raw sigil, core ≠ .word raw sigil) : core.Fine levels :=
  fun raw sigil heq => absurd heq (h raw sigil)

def Token.Fine (token : Token) : Prop :=
  ∀ raw, token = .word raw → ¬ Special raw → PlainWord raw

namespace Script

theorem fine_wordChar (s : Script) {raw : Text} {sigil : Bool}
    (hraw : raw = [] ∧ kind c ≠ .sharp ∨ (¬ Special raw → PlainWord raw))
    (hsigil : sigil = true → Special raw)
    (hends : (kind c).ends = false ∨ sigil = true) :
    (s.wordChar raw sigil c).1.core.Fine (s.wordChar raw sigil c).2.2.toList := by
  intro raw' sigil' hcore
  cases hcore
  constructor
  · intro hnone
    obtain ⟨hleft, hright⟩ := not_special_append hnone
    have hspecial := special_singleton hright
    have hfalse : sigil = false := by
      rw [← Bool.not_eq_true]
      exact fun htrue => hleft (hsigil htrue)
    have hin := Kind.inWord_of_not (hends.resolve_right (by simp [hfalse])) hspecial
    refine ⟨?_, by rw [wordChar, hfalse, Kind.opensInWord_of_not hspecial]; rfl⟩
    rcases hraw with ⟨rfl, hsharp⟩ | hplain
    · exact plainWord_singleton hin hsharp
    · exact plainWord_append (hplain hleft) hin
  · intro hdollar
    rw [decide_eq_true_eq] at hdollar
    exact ⟨c, by simp, by rw [hdollar]; rfl⟩

theorem fine_fresh (s : Script) (c : UInt16) :
    (s.fresh c).1.core.Fine (s.fresh c).2.2.toList ∧ ∀ token ∈ (s.fresh c).2.1, token.Fine := by
  have hword : (kind c).ends = false → kind c ≠ .sharp →
      (s.wordChar [] false c).1.core.Fine (s.wordChar [] false c).2.2.toList := by
    intro hends hsharp
    exact fine_wordChar s (.inl ⟨rfl, hsharp⟩) (fun h => by cases h) (.inl hends)
  by_cases hpending : s.pending = []
  all_goals
    rw [fresh]
    cases hkind : kind c <;> rw [hkind] at hword
    all_goals simp only [hpending, if_true, if_false]
    all_goals first
      | exact ⟨hword rfl (by decide), fun token htoken => absurd htoken List.not_mem_nil⟩
      | exact ⟨.of_ne (by simp), by simp [Token.Fine]⟩

theorem fine_delimit (s : Script) {token : Token} (h : token.Fine) (c : UInt16) :
    (s.delimit token c).1.core.Fine (s.delimit token c).2.2.toList ∧
      ∀ other ∈ (s.delimit token c).2.1, other.Fine := by
  obtain ⟨hcore, hfresh⟩ := fine_fresh (s.note token) c
  refine ⟨hcore, fun other hother => ?_⟩
  rcases List.mem_cons.mp hother with rfl | hother
  · exact h
  · exact hfresh other hother

theorem fine_read {levels : List Level} (h : s.core.Fine levels) (c : UInt16) :
    (s.read c).1.core.Fine (s.read c).2.2.toList ∧ ∀ token ∈ (s.read c).2.1, token.Fine := by
  have hfresh := fine_fresh s c
  have hoperator : ∀ token : Token, (∀ raw, token ≠ .word raw) → token.Fine :=
    fun token hne raw heq => absurd heq (hne raw)
  rw [read]
  cases hcore : s.core with
  | start => exact hfresh
  | operator o =>
      simp only
      split
      · exact ⟨.of_ne (by simp), by simp⟩
      · exact fine_delimit s (hoperator _ fun raw => by simp) c
  | redirection number o =>
      simp only
      split
      · exact ⟨.of_ne (by simp), by simp⟩
      · exact fine_delimit s (hoperator _ fun raw => by simp) c
  | comment =>
      simp only
      split
      · exact hfresh
      · exact ⟨.of_ne (by simp [hcore]), by simp⟩
  | here body line =>
      simp only [hereChar]
      split
      · split
        · exact ⟨.of_ne (by simp), by simp⟩
        · split
          · split <;> exact ⟨.of_ne (by simp), by simp [Token.Fine]⟩
          · exact ⟨.of_ne (by simp), by simp⟩
      · exact ⟨.of_ne (by simp), by simp⟩
  | word raw sigil =>
      obtain ⟨hplain, hsigil⟩ := h raw sigil hcore
      simp only
      split
      next hends =>
        refine ⟨fine_wordChar s (.inr fun hnone => (hplain hnone).1) hsigil ?_, by simp [wordChar]⟩
        exact hends.imp_right And.left
      · split
        · exact ⟨.of_ne (by simp), by simp⟩
        · split
          · exact ⟨.of_ne (by simp), by simp⟩
          · refine fine_delimit s (fun raw' heq hnone => ?_) c
            cases heq
            exact (hplain hnone).1

theorem fine_readEscaped {levels : List Level} (s : Script) (c : UInt16) :
    (s.readEscaped c).1.core.Fine levels ∧ ∀ token ∈ (s.readEscaped c).2, token.Fine := by
  have hspecial : ∀ before : Text, Special (before ++ [backslash, c]) := by
    exact fun before => ⟨backslash, by simp, rfl⟩
  rw [readEscaped]
  cases hcore : s.core <;> refine ⟨fun raw sigil heq => ?_, by simp [Token.Fine]⟩
  case comment => rw [hcore] at heq; cases heq
  case here => cases heq
  all_goals cases heq
  case word => exact ⟨fun hnone => absurd (hspecial _) hnone, fun h => by cases h⟩
  all_goals exact ⟨fun hnone => absurd (hspecial []) hnone, fun h => by cases h⟩

theorem fine_append {level : Level} {levels opened : List Level} {text : Text}
    (h : s.core.Fine (level :: levels)) : (s.append text).core.Fine opened := by
  intro raw sigil heq
  rw [append] at heq
  cases hcore : s.core with
  | word raw' sigil' =>
      rw [hcore] at heq
      cases heq
      have hspecial : Special raw' := by
        by_contra hnone
        cases ((h raw' sigil' hcore).1 hnone).2
      obtain ⟨d, hd, hkind⟩ := hspecial
      exact ⟨fun hnone => absurd ⟨d, List.mem_append_left _ hd, hkind⟩ hnone, fun h => by cases h⟩
  | _ => rw [hcore] at heq; cases hcore.symm.trans heq

end Script

theorem Reader.fine_step {r r' : Reader} {c : UInt16} {read : List Token}
    (hfine : r.base.core.Fine r.levels) (h : r.step c = some (r', read)) :
    r'.base.core.Fine r'.levels ∧ ∀ token ∈ read, token.Fine := by
  rw [step] at h
  split at h
  · split at h
    · cases h
      exact ⟨hfine, by simp⟩
    · split at h
      · cases h
        exact r.base.fine_readEscaped c
      next level levels hlevels =>
        rw [hlevels] at hfine
        obtain ⟨level', -, heq⟩ := Option.map_eq_some_iff.mp h
        cases heq
        exact ⟨Script.fine_append hfine, by simp⟩
  · split at h
    · cases h
      exact ⟨hfine, by simp⟩
    · split at h
      · cases h
        exact Script.fine_read hfine c
      next level levels hlevels =>
        rw [hlevels] at hfine
        obtain ⟨opened, -, heq⟩ := Option.map_eq_some_iff.mp h
        cases heq
        exact ⟨Script.fine_append hfine, by simp⟩

/-- A word that is read without quotes and expansions is plain. -/
theorem plainWord_of_token {w : Text} (hfine : r.base.core.Fine r.levels)
    (h : run Reader.step r text = some (r', read)) (hw : .word w ∈ read) (hnone : ¬ Special w) :
    PlainWord w := by
  have hstep : ∀ r c r' first, Core.Fine r.base.core r.levels →
      Reader.step r c = some (r', first) →
        Core.Fine r'.base.core r'.levels ∧ ∀ token ∈ first, Token.Fine token :=
    fun _ _ _ _ hinv hone => Reader.fine_step hinv hone
  exact (invariant_run hstep hfine h).2 _ hw w rfl hnone

/-! ## Plain words and quoted texts are read as themselves -/

theorem Kind.not_ends_of_inWord {k : Kind} (h : k.inWord = true) :
    k.ends = false ∧ k ≠ .backslash ∧ k ≠ .dollar ∧ k.opensInWord false = none := by
  cases k <;> first | exact ⟨rfl, by decide, by decide, rfl⟩ | exact absurd h (by decide)

theorem Reader.step_base {s : Script} {c : UInt16} (h : kind c ≠ .backslash) :
    Reader.step { base := s } c =
      some ({ base := (s.read c).1, levels := (s.read c).2.2.toList }, (s.read c).2.1) := by
  simp [step, h]

theorem read_of_inWord {raw : Text} {c : UInt16} (hcore : s.core = .word raw false)
    (hc : (kind c).inWord = true) :
    s.read c = ({ s with core := .word (raw ++ [c]) false }, [], none) := by
  obtain ⟨hends, -, hdollar, hopens⟩ := Kind.not_ends_of_inWord hc
  rw [Script.read, hcore]
  simp [Script.wordChar, hends, hdollar, hopens]

theorem run_inWord (s : Script) (raw : Text) {text : Text}
    (h : ∀ c ∈ text, (kind c).inWord = true) :
    run Reader.step { base := { s with core := .word raw false } } text =
      some ({ base := { s with core := .word (raw ++ text) false } }, []) := by
  induction text generalizing raw with
  | nil => simp [run]
  | cons c text ih =>
      have hc := h c List.mem_cons_self
      have hstep : Reader.step { base := { s with core := .word raw false } } c =
          some ({ base := { s with core := .word (raw ++ [c]) false } }, []) := by
        rw [Reader.step_base (Kind.not_ends_of_inWord hc).2.1, read_of_inWord rfl hc]
        rfl
      rw [run_cons hstep, ih (raw ++ [c]) fun d hd => h d (List.mem_cons_of_mem _ hd)]
      simp

theorem fresh_of_plain (s : Script) {c : UInt16} (hc : (kind c).inWord = true)
    (hsharp : kind c ≠ .sharp) :
    s.fresh c = ({ s with core := .word [c] false }, [], none) := by
  rw [Script.fresh]
  cases hkind : kind c <;> rw [hkind] at hc hsharp
  all_goals first
    | exact absurd hc (by decide)
    | exact absurd rfl hsharp
    | simp [Script.wordChar, hkind, Kind.opensInWord, Kind.opens]

/-- A plain word between two tokens. -/
theorem run_plainWord (s : Script) {word : Text} (h : PlainWord word) :
    run Reader.step { base := { s with core := .start } } word =
      some ({ base := { s with core := .word word false } }, []) := by
  obtain ⟨c, rest, rfl⟩ := List.exists_cons_of_ne_nil h.ne_nil
  have hc := h.inWord c List.mem_cons_self
  have hstep : Reader.step { base := { s with core := .start } } c =
      some ({ base := { s with core := .word [c] false } }, []) := by
    rw [Reader.step_base (Kind.not_ends_of_inWord hc).2.1, Script.read,
      fresh_of_plain _ hc (h.head c rfl)]
    rfl
  rw [run_cons hstep, run_inWord s [c] fun d hd => h.inWord d (List.mem_cons_of_mem _ hd)]
  rfl

theorem readsTo_append {left right : Text} {first rest : List Token} (hleft : ReadsTo left first)
    (hright : ReadsTo right rest) : ReadsTo (left ++ right) (first ++ rest) :=
  run_append_some hleft hright

theorem step_blank_word (word : Text) (sigil : Bool) :
    Reader.step { base := { core := .word word sigil } } blank = some ({}, [.word word]) := by
  rw [Reader.step_base (by decide)]
  have hread : Script.read { core := .word word sigil } blank =
      Script.delimit { core := .word word sigil } (.word word) blank := by
    rw [Script.read]
    simp [show kind blank = .blank from rfl, Kind.ends]
  rw [hread]
  rfl

theorem readsTo_word {word : Text} (h : PlainWord word) :
    ReadsTo (word ++ [blank]) [.word word] := by
  have hword := run_plainWord {} h
  rw [ReadsTo, run_append_of hword, run_singleton, step_blank_word]
  rfl

/-- Words with blanks between them. -/
theorem readsTo_words {words : List Text} (h : ∀ word ∈ words, PlainWord word) :
    ReadsTo (List.intercalate [blank] words ++ [blank]) (words.map .word) := by
  induction words with
  | nil => rfl
  | cons word words ih =>
      have hword := readsTo_word (h word List.mem_cons_self)
      cases words with
      | nil => simpa [List.intercalate] using hword
      | cons other words =>
          have hrest := ih fun w hw => h w (List.mem_cons_of_mem _ hw)
          simpa [List.intercalate] using readsTo_append hword hrest

/-- The target of a redirection. -/
theorem run_target (number : Option Text) {word : Text} (h : PlainWord word) :
    run Reader.step { base := { core := .redirection number .great } } (word ++ [blank]) =
      some ({}, [.redirection number .great, .word word]) := by
  obtain ⟨c, rest, rfl⟩ := List.exists_cons_of_ne_nil h.ne_nil
  have hc := h.inWord c List.mem_cons_self
  have hextend : RedirectionOperator.extend .great (kind c) = none := by
    cases hkind : kind c <;> first | rfl | (rw [hkind] at hc; exact absurd hc (by decide))
  have hstep : Reader.step { base := { core := .redirection number .great } } c =
      some ({ base := { core := .word [c] false } }, [.redirection number .great]) := by
    rw [Reader.step_base (Kind.not_ends_of_inWord hc).2.1, Script.read]
    simp only [hextend]
    rw [Script.delimit, fresh_of_plain _ hc (h.head c rfl)]
    rfl
  have hrest := run_inWord {} [c] fun d hd => h.inWord d (List.mem_cons_of_mem _ hd)
  rw [List.cons_append, run_cons hstep, run_append_of hrest, run_singleton, List.singleton_append,
    step_blank_word]
  rfl

/-! ## Quoted texts -/

theorem run_single (s : Script) (raw : Text) (h : singleQuote ∉ text) :
    run Reader.step { base := { s with core := .word raw false }, levels := [.single] } text =
      some ({ base := { s with core := .word (raw ++ text) false }, levels := [.single] }, []) := by
  induction text generalizing raw with
  | nil => simp [run]
  | cons c text ih =>
      obtain ⟨hc, htext⟩ := not_or.mp (mt List.mem_cons.mpr h)
      have hquote : kind c ≠ .quote := fun hkind => hc (kind_eq_quote_iff.mp hkind).symm
      have hstep : Reader.step
          { base := { s with core := .word raw false }, levels := [.single] } c =
          some ({ base := { s with core := .word (raw ++ [c]) false }, levels := [.single] },
            []) := by
        simp [Reader.step, Reader.escapes, Level.escapes, Level.read, hquote, Script.append]
      rw [run_cons hstep, ih (raw ++ [c]) htext]
      simp

/-- A text in single quotes, behind a blank. -/
theorem run_singleQuoted (h : singleQuote ∉ text) :
    run Reader.step {} (singleQuote :: (text ++ [singleQuote])) =
      some ({ base := { core := .word (singleQuote :: (text ++ [singleQuote])) false } }, []) := by
  have hopen : Reader.step {} singleQuote =
      some ({ base := { core := .word [singleQuote] false }, levels := [.single] }, []) := rfl
  have hclose : Reader.step
      { base := { core := .word ([singleQuote] ++ text) false }, levels := [.single] } singleQuote =
      some ({ base := { core := .word (([singleQuote] ++ text) ++ [singleQuote]) false } }, []) :=
    rfl
  rw [run_cons hopen, run_append_of (run_single {} [singleQuote] h), run_singleton, hclose]
  simp

theorem Script.append_word {raw : Text} {sigil : Bool} (h : s.core = .word raw sigil)
    (more : Text) : (s.append more).core = .word (raw ++ more) false := by
  rw [append, h]

theorem not_digits_of_special {raw : Text} (h : Special raw) : raw.all digit = false := by
  obtain ⟨c, hc, hspecial⟩ := h
  rw [List.all_eq_false]
  refine ⟨c, hc, fun hdigit => ?_⟩
  have hrange : 48 ≤ c.toNat ∧ c.toNat ≤ 57 := by
    simpa [digit, UInt16.le_iff_toNat_le] using hdigit
  unfold kind at hspecial
  split at hspecial
  all_goals first
    | omega
    | exact absurd hspecial (by decide)

/-- A word with quotes goes on, or is delimited. -/
theorem Reader.step_special {raw : Text} {sigil : Bool} (hcore : r.base.core = .word raw sigil)
    (hspecial : Special raw) (h : r.step c = some (r', read)) :
    (read = [] ∧ ∃ more sigil', r'.base.core = .word (raw ++ more) sigil' ∧
        (c = singleQuote → c ∈ more)) ∨
      ∃ rest, read = .word raw :: rest := by
  have hdigits := not_digits_of_special hspecial
  rw [step] at h
  split at h
  · split at h
    next hnewline =>
      cases h
      refine .inl ⟨rfl, [], sigil, by simpa using hcore, fun hquote => ?_⟩
      rw [hquote] at hnewline
      cases hnewline
    next =>
      split at h
      · cases h
        refine .inl ⟨?_, [backslash, c], false, ?_, fun _ => by simp⟩
        · rw [Script.readEscaped, hcore]
        · rw [Script.readEscaped, hcore]
      · obtain ⟨level, -, heq⟩ := Option.map_eq_some_iff.mp h
        cases heq
        exact .inl ⟨rfl, [backslash, c], false, Script.append_word hcore _, fun _ => by simp⟩
  · split at h
    next hbackslash =>
      cases h
      refine .inl ⟨rfl, [], sigil, by simpa using hcore, fun hquote => ?_⟩
      rw [hquote] at hbackslash
      cases hbackslash.1
    next =>
      split at h
      · cases h
        rw [Script.read, hcore]
        simp only [hdigits, Bool.false_eq_true, false_and, if_false]
        split
        · exact .inl ⟨rfl, [c], _, rfl, fun _ => by simp⟩
        · exact .inr ⟨_, rfl⟩
      · obtain ⟨opened, -, heq⟩ := Option.map_eq_some_iff.mp h
        cases heq
        exact .inl ⟨rfl, [c], false, Script.append_word hcore _, fun _ => by simp⟩

theorem run_special {raw : Text} {sigil : Bool} (hcore : r.base.core = .word raw sigil)
    (hspecial : Special raw) (h : run Reader.step r text = some (r', read)) :
    (read = [] ∧ ∃ more sigil', r'.base.core = .word (raw ++ more) sigil') ∨
      ∃ more rest, read = .word (raw ++ more) :: rest := by
  induction text generalizing r raw sigil read with
  | nil =>
      cases h
      exact .inl ⟨rfl, [], sigil, by simpa using hcore⟩
  | cons c text ih =>
      obtain ⟨mid, first, last, hstep, hrest, rfl⟩ := run_cons_inv h
      rcases Reader.step_special hcore hspecial hstep with
        ⟨rfl, more, sigil', hmid, -⟩ | ⟨rest, rfl⟩
      · have hmore : Special (raw ++ more) := by
          obtain ⟨d, hd, hkind⟩ := hspecial
          exact ⟨d, List.mem_append_left _ hd, hkind⟩
        rcases ih hmid hmore hrest with ⟨rfl, others, sigil'', hlast⟩ | ⟨others, rest, rfl⟩
        · exact .inl ⟨rfl, more ++ others, sigil'', by rw [hlast, List.append_assoc]⟩
        · exact .inr ⟨more ++ others, rest, by simp⟩
      · exact .inr ⟨[], rest ++ last, by simp⟩

theorem tokensFrom_append {left right : Text} (h : run Reader.step r left = some (r', read)) :
    tokensFrom r (left ++ right) = (tokensFrom r' right).map (read ++ ·) := by
  rw [tokensFrom, tokensFrom, run_append_of h]
  cases run Reader.step r' right with
  | none => rfl
  | some last => cases hfinish : last.1.finish <;> simp [hfinish]

theorem finish_word {raw : Text} {sigil : Bool} {fin : List Token}
    (hcore : r.base.core = .word raw sigil) (h : r.finish = some fin) : fin = [.word raw] := by
  rw [Reader.finish] at h
  split at h
  · rw [Script.finish, hcore] at h
    split at h
    · cases ‹Core.word raw sigil = _›
    · cases ‹Core.word raw sigil = _›
    · cases h
    · split at h
      · cases h
      · simpa using h.symm
  · cases h

/-- A text that is read as one word, whose value is the text inside the quotes, has no single
quotes. -/
theorem not_mem_of_singleQuoted {w : Text}
    (h : tokensFrom {} (singleQuote :: (text ++ [singleQuote])) = some [.word w])
    (hvalue : operand w = some text) : singleQuote ∉ text := by
  intro hmem
  obtain ⟨before, behind, rfl, hbefore⟩ := List.eq_append_cons_of_mem hmem
  have hopen := run_singleQuoted hbefore
  generalize hraw : singleQuote :: (before ++ [singleQuote]) = raw at hopen
  have hspecial : Special raw := ⟨singleQuote, by simp [← hraw], rfl⟩
  have htext : singleQuote :: ((before ++ singleQuote :: behind) ++ [singleQuote]) =
      raw ++ (behind ++ [singleQuote]) := by simp [← hraw]
  -- the word begins with the quoted text, and no character of the rest may be lost
  have hlength : ∀ more, w = raw ++ more →
      behind.length + 1 ≤ (pieces .none more).length := by
    rintro more rfl
    obtain ⟨-, -, hunquote⟩ := literal_eq_some_iff.mp (operand_eq_some_iff.mp hvalue).2
    have hpieces := pieces_singleQuoted hbefore more
    have heq := congrArg List.length hunquote
    rw [unquote, ← hraw] at heq
    simp only [List.cons_append, List.append_assoc, List.nil_append, hpieces, List.length_map,
      List.length_append, List.length_cons] at heq
    omega
  rw [htext, tokensFrom_append hopen] at h
  obtain ⟨read, hread, heq⟩ := Option.map_eq_some_iff.mp h
  rw [List.nil_append] at heq
  subst heq
  rw [tokensFrom, Option.bind_eq_some_iff] at hread
  obtain ⟨⟨last, all⟩, hrun, hfinish⟩ := hread
  obtain ⟨fin, hfin, heq⟩ := Option.map_eq_some_iff.mp hfinish
  obtain ⟨mid, first, rest, hfirst, hlast, rfl⟩ := run_append_inv hrun
  rw [run_singleton] at hlast
  have hfirstWeight := weight_run_reader hfirst
  have hweight := weight_run_reader hrun
  have hsize : ({ base := { core := .word raw false } } : Reader).size = raw.length := rfl
  rw [hsize] at hfirstWeight hweight
  rcases run_special rfl hspecial hfirst with ⟨rfl, more, sigil, hmid⟩ | ⟨more, tail, rfl⟩
  · have hmore : Special (raw ++ more) := by
      obtain ⟨d, hd, hkind⟩ := hspecial
      exact ⟨d, List.mem_append_left _ hd, hkind⟩
    rcases Reader.step_special hmid hmore hlast with
      ⟨rfl, others, sigil', hend, hquote⟩ | ⟨tail, rfl⟩
    · -- the last quote is a part of the word
      rw [finish_word hend hfin] at heq
      cases heq
      have hle := hlength (more ++ others) (by simp)
      rw [Reader.size, hend, Core.size] at hweight
      simp only [List.length_append, List.length_singleton] at hweight
      have hall : (more ++ others).length ≤ (pieces .none (more ++ others)).length := by
        simp only [List.length_append] at hle ⊢
        omega
      have hnone := (pieces_of_length_le hall).2 singleQuote
        (List.mem_append_right _ (hquote rfl))
      cases hnone
    · simp only [List.nil_append, List.cons_append, List.cons.injEq, Token.word.injEq] at heq
      obtain ⟨rfl, -⟩ := heq
      have hle := hlength more rfl
      have hpieces := length_pieces_le .none more
      rw [Reader.size, hmid, Core.size] at hfirstWeight
      simp only [List.length_append] at hfirstWeight
      omega
  · simp only [List.cons_append, List.cons.injEq, Token.word.injEq] at heq
    obtain ⟨rfl, -⟩ := heq
    have hle := hlength more rfl
    have hpieces := length_pieces_le .none more
    simp only [List.map_cons, List.sum_cons, Token.weight, List.length_append] at hfirstWeight
    omega

/-! ## Redirections -/

theorem Reader.step_redirection {number : Option Text} {o : RedirectionOperator}
    (hcore : r.base.core = .redirection number o) (hlevels : r.levels = [])
    (h : r.step c = some (r', read)) :
    (read = [] ∧ r'.levels = [] ∧ ∃ o', r'.base.core = .redirection number o') ∨
      ∃ rest, read = .redirection number o :: rest := by
  rw [step, hlevels] at h
  simp only at h
  split at h
  · split at h
    · cases h
      exact .inl ⟨rfl, rfl, o, hcore⟩
    · cases h
      rw [Script.readEscaped, hcore]
      exact .inr ⟨[], rfl⟩
  · split at h
    · cases h
      exact .inl ⟨rfl, rfl, o, hcore⟩
    · cases h
      rw [Script.read, hcore]
      simp only
      split
      · exact .inl ⟨rfl, rfl, _, rfl⟩
      · exact .inr ⟨_, rfl⟩

/-- Where a redirection has begun it is the first token. -/
theorem run_redirection {number : Option Text} {o : RedirectionOperator}
    (hcore : r.base.core = .redirection number o) (hlevels : r.levels = [])
    (h : run Reader.step r text = some ({}, read)) :
    ∃ o' rest, read = .redirection number o' :: rest := by
  induction text generalizing r o read with
  | nil =>
      cases h
      cases hcore
  | cons c text ih =>
      obtain ⟨mid, first, last, hstep, hrest, rfl⟩ := run_cons_inv h
      rcases Reader.step_redirection hcore hlevels hstep with
        ⟨rfl, hmid, o', hredirection⟩ | ⟨rest, rfl⟩
      · exact ih hredirection hmid hrest
      · exact ⟨o, rest ++ last, rfl⟩

/-! ## The end of a text -/

/-- What is behind a blank goes on with the last command. -/
def EndsOpen (text : Text) : Prop :=
  ∃ read g events, tokens text = some read ∧ ReadsTo (text ++ [blank]) read ∧
    run Grammar.step {} read = some (g, events) ∧ g.complete = true

theorem finish_inv {fin : List Token} (h : r.finish = some fin) :
    r = { base := r.base } ∧ r.base.finish = some fin := by
  rw [Reader.finish] at h
  split at h
  next hclosed =>
    obtain ⟨base, levels, escaped⟩ := r
    obtain ⟨rfl, rfl⟩ := hclosed
    exact ⟨rfl, h⟩
  next => cases h

/-- A blank has the effect of the end of the text, unless it is in a comment or in a
here-document, or in front of the target of a redirection. -/
theorem step_blank {fin : List Token} (h : r.finish = some fin) :
    Reader.step r blank = some ({}, fin) ∨ r.base.core = .comment ∨
      (∃ body line, r.base.core = .here body line) ∨
        ∃ number o, r.base.core = .redirection number o := by
  obtain ⟨hr, hbase⟩ := finish_inv h
  obtain ⟨⟨core, pending, expecting⟩, levels, escaped⟩ := r
  cases hr
  cases core with
  | comment => exact .inr (.inl rfl)
  | here body line => exact .inr (.inr (.inl ⟨body, line, rfl⟩))
  | redirection number o => exact .inr (.inr (.inr ⟨number, o, rfl⟩))
  | start =>
      cases pending <;> cases expecting <;> cases hbase
      exact .inl rfl
  | operator o =>
      cases pending <;> cases expecting <;> cases hbase
      refine .inl ?_
      cases o <;> rfl
  | word raw sigil =>
      cases pending <;> cases expecting <;> cases hbase
      exact .inl (step_blank_word raw sigil)

/-- A comment goes on to the end of the line. -/
theorem tokensFrom_comment {fin : List Token} (hcore : r.base.core = .comment)
    (h : r.finish = some fin) (htext : ∀ c ∈ text, kind c ≠ .newline) :
    tokensFrom r text = some fin := by
  have hrun : run Reader.step r text = some (r, []) := by
    obtain ⟨hr, -⟩ := finish_inv h
    induction text with
    | nil => rfl
    | cons c text ih =>
        have hstep : Reader.step r c = some (r, []) := by
          rw [hr]
          simp [Reader.step, Reader.escapes, Script.escapes, Script.read, hcore,
            htext c List.mem_cons_self]
        rw [run_cons hstep, ih fun d hd => htext d (List.mem_cons_of_mem _ hd)]
        rfl
  rw [tokensFrom, hrun, Option.bind_some, h]
  rfl

theorem run_here {body line : Text} (hr : r = { base := r.base })
    (hcore : r.base.core = .here body line)
    (htext : ∀ c ∈ text, kind c ≠ .newline ∧ kind c ≠ .backslash) :
    run Reader.step r text =
      some ({ base := { r.base with core := .here body (line ++ text) } }, []) := by
  induction text generalizing r line with
  | nil =>
      rw [hr, List.append_nil, ← hcore]
      rfl
  | cons c text ih =>
      obtain ⟨hnewline, hbackslash⟩ := htext c List.mem_cons_self
      have hstep : Reader.step r c =
          some ({ base := { r.base with core := .here body (line ++ [c]) } }, []) := by
        rw [hr, Reader.step_base hbackslash, Script.read]
        simp [hcore, Script.hereChar, hnewline]
      rw [run_cons hstep, ih rfl rfl fun d hd => htext d (List.mem_cons_of_mem _ hd)]
      simp

theorem line_append {h : HereDocument} (htab : c ≠ tab) (line text : Text) :
    h.line (line ++ c :: text) = h.line line ++ c :: text := by
  rw [HereDocument.line, HereDocument.line]
  split
  · rw [List.dropWhile_append, List.dropWhile_cons_of_neg (by simpa using htab)]
    split
    next hempty => rw [List.isEmpty_iff.mp hempty, List.nil_append]
    next => rfl
  · rfl

/-- A line that ends a here-document does not, with more behind it. -/
theorem tokensFrom_here {fin : List Token} {body line : Text} {c : UInt16}
    (hcore : r.base.core = .here body line) (h : r.finish = some fin) (htab : c ≠ tab)
    (htext : ∀ d ∈ c :: text, kind d ≠ .newline ∧ kind d ≠ .backslash) :
    tokensFrom r (c :: text) = none := by
  obtain ⟨hr, hbase⟩ := finish_inv h
  rw [tokensFrom, run_here hr hcore htext, Option.bind_some, Option.map_eq_none_iff,
    Reader.finish, if_pos ⟨rfl, rfl⟩]
  rw [Script.finish, hcore] at hbase
  rw [Script.finish]
  cases hpending : r.base.pending with
  | nil => rfl
  | cons first rest =>
      cases rest with
      | cons => rfl
      | nil =>
          simp only [hpending] at hbase ⊢
          split at hbase
          next hline =>
            rw [if_neg]
            rw [line_append htab, hline]
            simp
          next => cases hbase

end

end ArtPlatform.Shell
