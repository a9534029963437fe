import ArtPlatform.Foundation.Transducer
import ArtPlatform.Shell.Words
import Mathlib.Data.List.Induction

/-!
# The grammar of the shell

The grammar reads tokens one after the other; what is open is a stack.  A program is a list of
and-or lists, of which each is one job, in the foreground or in the background.

Main results:

- Theorem `run_behind`: a simple command is read in the same way behind another word.
- Theorem `jobs_of_complete`: what is behind the end of a command is another job.
-/

namespace ArtPlatform.Shell

open Transducer

inductive Operator
  | amp | andIf | pipe | orIf | semi | dsemi | openParen | closeParen | newline
deriving DecidableEq, Repr

inductive RedirectionOperator
  | less | dless | dlessDash | lessAnd | lessGreat | great | dgreat | greatAnd | clobber
deriving DecidableEq, Repr

/-- A word keeps its quotes; a redirection has the digits in front of it; the text of a
here-document is a token of its own. -/
inductive Token
  | word (raw : Text)
  | operator (o : Operator)
  | redirection (number : Option Text) (o : RedirectionOperator)
  | here (body : Text)
deriving DecidableEq, Repr

inductive Reserved
  | bang | openBrace | closeBrace | ifWord | thenWord | elifWord | elseWord | fiWord
  | whileWord | untilWord | forWord | inWord | doWord | doneWord | caseWord | esacWord
deriving DecidableEq, Repr

def reservedWords : List (Text × Reserved) :=
  [(chars ['!'], .bang), (chars ['{'], .openBrace), (chars ['}'], .closeBrace),
    (chars ['i', 'f'], .ifWord), (chars ['t', 'h', 'e', 'n'], .thenWord),
    (chars ['e', 'l', 'i', 'f'], .elifWord), (chars ['e', 'l', 's', 'e'], .elseWord),
    (chars ['f', 'i'], .fiWord), (chars ['w', 'h', 'i', 'l', 'e'], .whileWord),
    (chars ['u', 'n', 't', 'i', 'l'], .untilWord), (chars ['f', 'o', 'r'], .forWord),
    (chars ['i', 'n'], .inWord), (chars ['d', 'o'], .doWord),
    (chars ['d', 'o', 'n', 'e'], .doneWord), (chars ['c', 'a', 's', 'e'], .caseWord),
    (chars ['e', 's', 'a', 'c'], .esacWord)]

def reserved (word : Text) : Option Reserved :=
  (reservedWords.find? fun entry => entry.1 = word).map Prod.snd

def letter (c : UInt16) : Bool :=
  (97 ≤ c && c ≤ 122) || (65 ≤ c && c ≤ 90) || c = 95

def digit (c : UInt16) : Bool :=
  48 ≤ c && c ≤ 57

/-- A name and an equals sign. -/
def isAssignment (word : Text) : Bool :=
  let name := word.takeWhile fun c => letter c || digit c
  name.head?.any letter && (word.drop name.length).head?.any fun c => c = 61

/-! ## Positions -/

inductive Frame
  | subshell | group | condition | branch | elseBranch | loopCondition | loopBody | caseItem
deriving DecidableEq, Repr

inductive Position
  /-- a list begins -/
  | start
  /-- behind a terminator -/
  | next
  /-- behind `&&` and `||` -/
  | andOr
  | piped
  | negated
  /-- in a simple command that has no word yet -/
  | unnamed
  /-- behind its first word -/
  | named
  | arguments
  | redirection (behind : Position)
  /-- behind a compound command -/
  | compound
  | functionClose | functionBody
  | forName | forIn | forWords | forDo
  | caseWord | caseIn | casePattern | caseAlternative | caseBar
deriving DecidableEq, Repr

structure Grammar where
  position : Position := .start
  frames : List Frame := []
deriving DecidableEq, Repr

namespace Grammar

/-- The reserved words that a command begins with. -/
def opens (frames : List Frame) : Reserved → Option Grammar
  | .openBrace => some ⟨.start, .group :: frames⟩
  | .ifWord => some ⟨.start, .condition :: frames⟩
  | .whileWord | .untilWord => some ⟨.start, .loopCondition :: frames⟩
  | .forWord => some ⟨.forName, frames⟩
  | .caseWord => some ⟨.caseWord, frames⟩
  | _ => none

/-- The reserved words that end a list. -/
def closes : List Frame → Reserved → Option Grammar
  | .group :: frames, .closeBrace => some ⟨.compound, frames⟩
  | .condition :: frames, .thenWord => some ⟨.start, .branch :: frames⟩
  | .branch :: frames, .elifWord => some ⟨.start, .condition :: frames⟩
  | .branch :: frames, .elseWord => some ⟨.start, .elseBranch :: frames⟩
  | .branch :: frames, .fiWord => some ⟨.compound, frames⟩
  | .elseBranch :: frames, .fiWord => some ⟨.compound, frames⟩
  | .loopCondition :: frames, .doWord => some ⟨.start, .loopBody :: frames⟩
  | .loopBody :: frames, .doneWord => some ⟨.compound, frames⟩
  | .caseItem :: frames, .esacWord => some ⟨.compound, frames⟩
  | _, _ => none

/-- A word where a command can begin. -/
def begin (frames : List Frame) (word : Text) : Option Grammar :=
  match reserved word with
  | some .inWord | none =>
      some ⟨if isAssignment word then .unnamed else .named, frames⟩
  | some r => opens frames r

def word (g : Grammar) (raw : Text) : Option Grammar :=
  match g.position with
  | .start =>
      match reserved raw with
      | some .bang => some ⟨.negated, g.frames⟩
      | some .esacWord => closes g.frames .esacWord
      | _ => begin g.frames raw
  | .next =>
      match reserved raw with
      | some .bang => some ⟨.negated, g.frames⟩
      | some r => (closes g.frames r).or (begin g.frames raw)
      | none => begin g.frames raw
  | .andOr =>
      match reserved raw with
      | some .bang => some ⟨.negated, g.frames⟩
      | _ => begin g.frames raw
  | .piped | .negated => begin g.frames raw
  | .unnamed => some ⟨if isAssignment raw then .unnamed else .arguments, g.frames⟩
  | .named | .arguments => some ⟨.arguments, g.frames⟩
  | .redirection behind => some ⟨behind, g.frames⟩
  | .compound => (reserved raw).bind (closes g.frames)
  | .functionClose => none
  | .functionBody => (reserved raw).bind (opens g.frames)
  | .forName => some ⟨.forIn, g.frames⟩
  | .forIn =>
      match reserved raw with
      | some .inWord => some ⟨.forWords, g.frames⟩
      | some .doWord => some ⟨.start, .loopBody :: g.frames⟩
      | _ => none
  | .forWords => some g
  | .forDo =>
      match reserved raw with
      | some .doWord => some ⟨.start, .loopBody :: g.frames⟩
      | _ => none
  | .caseWord => some ⟨.caseIn, g.frames⟩
  | .caseIn =>
      match reserved raw with
      | some .inWord => some ⟨.casePattern, .caseItem :: g.frames⟩
      | _ => none
  | .casePattern =>
      match reserved raw with
      | some .esacWord => closes g.frames .esacWord
      | _ => some ⟨.caseBar, g.frames⟩
  | .caseAlternative => some ⟨.caseBar, g.frames⟩
  | .caseBar => none

/-- An operator behind a complete command. -/
def separate (frames : List Frame) : Operator → Option Grammar
  | .semi | .amp | .newline => some ⟨.next, frames⟩
  | .andIf | .orIf => some ⟨.andOr, frames⟩
  | .pipe => some ⟨.piped, frames⟩
  | .closeParen =>
      match frames with
      | .subshell :: frames => some ⟨.compound, frames⟩
      | _ => none
  | .dsemi =>
      match frames with
      | .caseItem :: _ => some ⟨.casePattern, frames⟩
      | _ => none
  | _ => none

def operator (g : Grammar) (o : Operator) : Option Grammar :=
  match g.position, o with
  | .unnamed, _ | .arguments, _ | .compound, _ => separate g.frames o
  | .named, .openParen => some ⟨.functionClose, g.frames⟩
  | .named, _ => separate g.frames o
  | .start, .newline | .next, .newline | .andOr, .newline | .piped, .newline
  | .functionBody, .newline | .forIn, .newline | .forDo, .newline | .caseIn, .newline
  | .casePattern, .newline => some g
  | .start, .openParen | .next, .openParen | .andOr, .openParen | .piped, .openParen
  | .negated, .openParen | .functionBody, .openParen => some ⟨.start, .subshell :: g.frames⟩
  | .start, .dsemi | .next, .dsemi => separate g.frames .dsemi
  | .next, .closeParen => separate g.frames .closeParen
  | .functionClose, .closeParen => some ⟨.functionBody, g.frames⟩
  | .forIn, .semi | .forWords, .semi | .forWords, .newline => some ⟨.forDo, g.frames⟩
  | .casePattern, .openParen | .caseBar, .pipe => some ⟨.caseAlternative, g.frames⟩
  | .caseBar, .closeParen => some ⟨.start, g.frames⟩
  | _, _ => none

def redirection (g : Grammar) : Option Grammar :=
  match g.position with
  | .start | .next | .andOr | .piped | .negated | .unnamed =>
      some ⟨.redirection .unnamed, g.frames⟩
  | .named | .arguments => some ⟨.redirection .arguments, g.frames⟩
  | .compound => some ⟨.redirection .compound, g.frames⟩
  | _ => none

/-- A here-document belongs to a redirection in front of it. -/
def advance (g : Grammar) : Token → Option Grammar
  | .word raw => g.word raw
  | .operator o => g.operator o
  | .redirection _ _ => g.redirection
  | .here _ => if g = {} then none else some g

/-- A command can end here. -/
def complete (g : Grammar) : Bool :=
  match g.position with
  | .unnamed | .named | .arguments | .compound => g.frames.isEmpty
  | _ => false

def accepts (g : Grammar) : Bool :=
  g.complete || (g.frames.isEmpty && (g.position = .start || g.position = .next))

end Grammar

/-! ## Programs -/

/-- What a token is to the and-or list that is being read. -/
inductive Event
  | part (token : Token)
  | stop (background : Bool)
  | here (body : Text)
deriving DecidableEq, Repr

structure Job where
  tokens : List Token
  background : Bool
deriving DecidableEq, Repr

structure Program where
  jobs : List Job
  heres : List Text := []
deriving DecidableEq, Repr

namespace Grammar

def event (g : Grammar) : Token → List Event
  | .here body => [.here body]
  | .operator .newline =>
      if g.complete then [.stop false]
      else if g.accepts then [] else [.part (.operator .newline)]
  | .operator .semi => [if g.complete then .stop false else .part (.operator .semi)]
  | .operator .amp => [if g.complete then .stop true else .part (.operator .amp)]
  | token => [.part token]

def step (g : Grammar) (token : Token) : Option (Grammar × List Event) :=
  (g.advance token).map fun next => (next, g.event token)

end Grammar

/-- The jobs that have ended, and the tokens of the one that is read. -/
def collect : List Job × List Token → Event → List Job × List Token
  | (ended, current), .part token => (ended, current ++ [token])
  | (ended, current), .stop background => (ended ++ [⟨current, background⟩], [])
  | read, .here _ => read

def lastJob (read : List Job × List Token) : List Job :=
  if read.2 = [] then read.1 else read.1 ++ [⟨read.2, false⟩]

def jobs (events : List Event) : List Job :=
  lastJob (events.foldl collect ([], []))

def heres (events : List Event) : List Text :=
  events.filterMap fun
    | .here body => some body
    | _ => none

def parse (tokens : List Token) : Option Program :=
  (run Grammar.step {} tokens).bind fun last =>
    if last.1.accepts then some { jobs := jobs last.2, heres := heres last.2 } else none

/-! ## Simple commands -/

structure Redirection where
  /-- the digits in front of the operator -/
  number : Option Text := none
  operator : RedirectionOperator
  target : Text
deriving DecidableEq, Repr

structure SimpleCommand where
  assignments : List Text := []
  words : List Text := []
  redirections : List Redirection := []
deriving DecidableEq, Repr

/-- The words and redirections of a command, behind its first word if `named`. -/
def simpleFrom : Bool → List Token → Option SimpleCommand
  | _, [] => some {}
  | named, .word w :: rest =>
      if !named && isAssignment w then
        (simpleFrom false rest).map fun c => { c with assignments := w :: c.assignments }
      else (simpleFrom true rest).map fun c => { c with words := w :: c.words }
  | named, .redirection number o :: .word w :: rest =>
      (simpleFrom named rest).map fun c =>
        { c with redirections := ⟨number, o, w⟩ :: c.redirections }
  | _, _ => none

/-- A command that does not begin with a reserved word. -/
def simple (tokens : List Token) : Option SimpleCommand :=
  match tokens with
  | .word w :: _ =>
      match reserved w with
      | some .inWord | none => simpleFrom false tokens
      | some _ => none
  | _ => simpleFrom false tokens

/-- The values of the words of a command that has nothing but words. -/
def invocation (tokens : List Token) : Option (List Text) :=
  (simple tokens).bind fun c =>
    if c.assignments = [] ∧ c.redirections = [] then c.words.mapM operand else none

/-! ## Jobs -/

section

variable {tokens rest : List Token} {events : List Event} {g h : Grammar} {c : SimpleCommand}

theorem foldl_collect_parts (tokens : List Token) (read : List Job × List Token) :
    (tokens.map Event.part).foldl collect read = (read.1, read.2 ++ tokens) := by
  induction tokens generalizing read with
  | nil => simp
  | cons token tokens ih =>
      rw [List.map_cons, List.foldl_cons, ih]
      simp [collect]

theorem jobs_parts (h : tokens ≠ []) : jobs (tokens.map Event.part) = [⟨tokens, false⟩] := by
  rw [jobs, foldl_collect_parts]
  simp [lastJob, h]

/-- What is read with other tokens in front of it. -/
def prepend (before : List Token) : List Job × List Token → List Job × List Token
  | ([], current) => ([], before ++ current)
  | (job :: ended, current) => (⟨before ++ job.tokens, job.background⟩ :: ended, current)

theorem collect_prepend (before : List Token) (read : List Job × List Token) (event : Event) :
    collect (prepend before read) event = prepend before (collect read event) := by
  obtain ⟨ended, current⟩ := read
  cases ended <;> cases event <;> simp [prepend, collect]

theorem foldl_collect_prepend (before : List Token) (read : List Job × List Token)
    (events : List Event) :
    events.foldl collect (prepend before read) = prepend before (events.foldl collect read) := by
  induction events generalizing read with
  | nil => rfl
  | cons event events ih => rw [List.foldl_cons, List.foldl_cons, collect_prepend, ih]

theorem lastJob_prepend {before : List Token} {read : List Job × List Token} {job : Job}
    {more : List Job} (h : lastJob read = job :: more) :
    lastJob (prepend before read) = ⟨before ++ job.tokens, job.background⟩ :: more := by
  obtain ⟨ended, current⟩ := read
  cases ended <;> cases current <;> cases h <;> simp [prepend, lastJob]

/-- What is behind other tokens goes on with their job. -/
theorem jobs_parts_append {before : List Token} {job : Job} {more : List Job}
    (h : jobs events = job :: more) :
    jobs (before.map Event.part ++ events) =
      ⟨before ++ job.tokens, job.background⟩ :: more := by
  have hprepend := foldl_collect_prepend before ([], []) events
  rw [prepend, List.append_nil] at hprepend
  rw [jobs, List.foldl_append, foldl_collect_parts, List.nil_append, hprepend]
  exact lastJob_prepend h

/-- The tokens of the first job. -/
def leading : List Event → List Token
  | [] => []
  | .part token :: events => token :: leading events
  | .stop _ :: _ => []
  | .here _ :: events => leading events

theorem foldl_collect_ended (ended : List Job) (current : List Token) (events : List Event) :
    ∃ more last, events.foldl collect (ended, current) = (ended ++ more, last) := by
  induction events generalizing ended current with
  | nil => exact ⟨[], current, by simp⟩
  | cons event events ih =>
      cases event with
      | part token => exact ih ended (current ++ [token])
      | stop background =>
          obtain ⟨more, last, heq⟩ := ih (ended ++ [⟨current, background⟩]) []
          exact ⟨⟨current, background⟩ :: more, last, by simpa [collect] using heq⟩
      | here body => exact ih ended current

theorem tokens_of_jobs {current : List Token} {job : Job} {more : List Job}
    (h : lastJob (events.foldl collect ([], current)) = job :: more) :
    job.tokens = current ++ leading events := by
  induction events generalizing current with
  | nil =>
      rw [leading, List.append_nil]
      cases current <;> cases h
      rfl
  | cons event events ih =>
      cases event with
      | part token => simpa [leading] using ih h
      | stop background =>
          obtain ⟨others, last, heq⟩ := foldl_collect_ended [⟨current, background⟩] [] events
          rw [List.foldl_cons, collect, List.nil_append, heq] at h
          cases last <;> cases h <;> simp [leading]
      | here body => exact ih h

namespace Grammar

/-- The operators that end a job. -/
def ends : Operator → Bool
  | .newline | .semi | .amp => true
  | _ => false

theorem frames_of_complete (h : g.complete = true) : g.frames = [] := by
  obtain ⟨position, frames⟩ := g
  cases position <;> first | cases h | exact List.isEmpty_iff.mp h

theorem operator_of_complete {o : Operator} (h : g.complete = true) (ho : ends o = true) :
    g.operator o = some ⟨.next, []⟩ ∧ g.event (.operator o) = [.stop (o = .amp)] := by
  have hframes := frames_of_complete h
  obtain ⟨position, frames⟩ := g
  cases hframes
  cases position <;> first | exact absurd h Bool.false_ne_true | skip
  all_goals cases o <;> first | exact ⟨rfl, rfl⟩ | exact absurd ho Bool.false_ne_true

/-- Between two jobs. -/
theorem eq_of_accepts (h : g.accepts = true) (hcomplete : g.complete = false) :
    g = ⟨.start, []⟩ ∨ g = ⟨.next, []⟩ := by
  rw [accepts, hcomplete, Bool.false_or, Bool.and_eq_true, List.isEmpty_iff, Bool.or_eq_true,
    decide_eq_true_eq, decide_eq_true_eq] at h
  obtain ⟨position, frames⟩ := g
  obtain ⟨rfl, rfl | rfl⟩ := h
  · exact .inl rfl
  · exact .inr rfl

/-- A token is a part of the job, unless it is between two jobs. -/
theorem event_eq (g : Grammar) (token : Token) : g.event token = [.part token] ∨
    (∃ body, token = .here body) ∨
    (∃ o, token = .operator o ∧ ends o = true ∧ g.complete = true) ∨
    (token = .operator .newline ∧ g.complete = false ∧ g.accepts = true ∧
      g.event token = []) := by
  cases token with
  | word raw => exact .inl rfl
  | redirection number o => exact .inl rfl
  | here body => exact .inr (.inl ⟨body, rfl⟩)
  | operator o =>
      cases hcomplete : g.complete with
      | true =>
          cases hends : ends o with
          | true => exact .inr (.inr (.inl ⟨o, rfl, hends, rfl⟩))
          | false => cases o <;> first | exact .inl rfl | cases hends
      | false =>
          cases haccepts : g.accepts with
          | true =>
              cases o <;> simp [event, hcomplete, haccepts]
          | false => cases o <;> simp [event, hcomplete, haccepts]

end Grammar

/-- A command that can end is one that has begun. -/
theorem current_of_complete (hrun : run Grammar.step {} tokens = some (g, events))
    (hcomplete : g.complete = true) : (events.foldl collect ([], [])).2 ≠ [] := by
  induction tokens using List.reverseRecOn generalizing g events with
  | nil =>
      cases hrun
      cases hcomplete
  | append_singleton tokens token ih =>
      obtain ⟨mid, first, rest, hfirst, hlast, rfl⟩ := run_append_inv hrun
      rw [run_singleton, Grammar.step, Option.map_eq_some_iff] at hlast
      obtain ⟨next, hadvance, heq⟩ := hlast
      cases heq
      rw [List.foldl_append]
      rcases mid.event_eq token with hpart | ⟨body, rfl⟩ | ⟨o, rfl, hends, hmid⟩ |
        ⟨rfl, hmid, haccepts, -⟩
      · rw [hpart]
        simp [collect]
      · rw [Grammar.advance] at hadvance
        split at hadvance
        · cases hadvance
        · cases hadvance
          exact ih hfirst hcomplete
      · rw [Grammar.advance, (Grammar.operator_of_complete hmid hends).1] at hadvance
        cases hadvance
        cases hcomplete
      · rcases Grammar.eq_of_accepts haccepts hmid with rfl | rfl
        · cases hadvance
          cases hcomplete
        · cases hadvance
          cases hcomplete

/-- The end of a command is the end of a job with all that has been read. -/
theorem jobs_of_complete {job : Job} (hrun : run Grammar.step {} tokens = some (g, events))
    (hcomplete : g.complete = true) (hjobs : jobs events = [job]) (background : Bool)
    (hrest : rest ≠ []) :
    job.background = false ∧ jobs (events ++ .stop background :: rest.map Event.part) =
      [⟨job.tokens, background⟩, ⟨rest, false⟩] := by
  have hcurrent := current_of_complete hrun hcomplete
  rw [jobs] at hjobs
  rw [jobs, List.foldl_append]
  generalize events.foldl collect ([], []) = read at hjobs hcurrent ⊢
  obtain ⟨ended, current⟩ := read
  have hlast : lastJob (ended, current) = ended ++ [⟨current, false⟩] := if_neg hcurrent
  rw [hlast] at hjobs
  obtain ⟨rfl, rfl⟩ : ended = [] ∧ job = ⟨current, false⟩ := by
    cases ended with
    | nil => exact ⟨rfl, by simpa using hjobs.symm⟩
    | cons first ended => simp at hjobs
  refine ⟨rfl, ?_⟩
  rw [List.foldl_cons, foldl_collect_parts]
  simp [collect, lastJob, hrest]

theorem leading_parts (tokens : List Token) (events : List Event) :
    leading (tokens.map Event.part ++ events) = tokens ++ leading events := by
  induction tokens with
  | nil => rfl
  | cons token tokens ih => rw [List.map_cons, List.cons_append, leading, ih, List.cons_append]

theorem parse_inv {p : Program} (h : parse tokens = some p) :
    ∃ g events, run Grammar.step {} tokens = some (g, events) ∧ g.accepts = true ∧
      p = { jobs := jobs events, heres := heres events } := by
  rw [parse, Option.bind_eq_some_iff] at h
  obtain ⟨⟨g, events⟩, hrun, h⟩ := h
  split at h
  next haccepts =>
    cases h
    exact ⟨g, events, hrun, haccepts, rfl⟩
  next => cases h

/-- A newline ends the command in front of it. -/
theorem tokens_of_newline {job : Job} {more : List Job} {texts : List Text}
    (hrun : run Grammar.step {} tokens = some (g, tokens.map Event.part))
    (hcomplete : g.complete = true)
    (h : parse (tokens ++ .operator .newline :: rest) =
      some { jobs := job :: more, heres := texts }) : job.tokens = tokens := by
  obtain ⟨last, events, hevents, -, hp⟩ := parse_inv h
  obtain ⟨mid, first, behind, hfirst, hbehind, rfl⟩ := run_append_inv hevents
  cases hrun.symm.trans hfirst
  obtain ⟨next, ended, others, hstep, -, rfl⟩ := run_cons_inv hbehind
  rw [Grammar.step, Option.map_eq_some_iff] at hstep
  obtain ⟨next', -, heq⟩ := hstep
  have hevent := (Grammar.operator_of_complete (o := .newline) hcomplete rfl).2
  rw [← (Prod.mk.inj heq).2, hevent] at hp
  have htokens := tokens_of_jobs (Program.mk.inj hp).1.symm
  rw [htokens, List.nil_append, leading_parts, List.singleton_append, leading, List.append_nil]

/-- A redirection has a target. -/
theorem parse_redirection (tokens : List Token) (number : Option Text) (o : RedirectionOperator) :
    parse (tokens ++ [.redirection number o]) = none := by
  rw [Option.eq_none_iff_forall_ne_some]
  intro p h
  obtain ⟨last, events, hevents, haccepts, -⟩ := parse_inv h
  obtain ⟨mid, first, behind, -, hbehind, -⟩ := run_append_inv hevents
  rw [run_singleton, Grammar.step, Option.map_eq_some_iff] at hbehind
  obtain ⟨next, hadvance, heq⟩ := hbehind
  cases heq
  obtain ⟨position, frames⟩ := mid
  cases position <;> cases hadvance <;> simp [Grammar.accepts, Grammar.complete] at haccepts

/-! ## Behind another word -/

attribute [local simp] simpleFrom in
theorem simpleFrom_operator (named : Bool) (o : Operator) :
    simpleFrom named (.operator o :: rest) = none := by
  simp

theorem simpleFrom_word {named : Bool} {w : Text} (h : (!named && isAssignment w) = false) :
    simpleFrom named (.word w :: rest) =
      (simpleFrom true rest).map fun c => { c with words := w :: c.words } := by
  rw [simpleFrom, h]
  rfl

theorem isAssignment_of_simpleFrom {w : Text} (h : simpleFrom false (.word w :: rest) = some c)
    (hassignments : c.assignments = []) : isAssignment w = false := by
  rw [simpleFrom] at h
  cases hassignment : isAssignment w with
  | false => rfl
  | true =>
      rw [hassignment, if_pos (by rfl), Option.map_eq_some_iff] at h
      obtain ⟨d, -, rfl⟩ := h
      cases hassignments

theorem word_of_redirection {named : Bool} {number : Option Text} {o : RedirectionOperator}
    (h : simpleFrom named (.redirection number o :: rest) = some c) :
    ∃ w tail d, rest = .word w :: tail ∧ simpleFrom named tail = some d ∧
      c = { d with redirections := ⟨number, o, w⟩ :: d.redirections } := by
  match rest, h with
  | .word w :: tail, h =>
      rw [simpleFrom, Option.map_eq_some_iff] at h
      obtain ⟨d, hd, rfl⟩ := h
      exact ⟨w, tail, d, rfl, hd, rfl⟩

theorem simpleFrom_here (named : Bool) (body : Text) :
    simpleFrom named (.here body :: rest) = none := by
  rw [simpleFrom]
  all_goals simp

/-- Behind its first word a command has no assignments. -/
theorem assignments_of_named : ∀ {tokens : List Token} {c : SimpleCommand},
    simpleFrom true tokens = some c → c.assignments = []
  | [], _, h => by
      cases h
      rfl
  | .word w :: rest, _, h => by
      rw [simpleFrom_word rfl, Option.map_eq_some_iff] at h
      obtain ⟨d, hd, rfl⟩ := h
      have hrest := assignments_of_named hd
      exact hrest
  | .redirection number o :: rest, _, h => by
      obtain ⟨w, tail, d, rfl, hd, rfl⟩ := word_of_redirection h
      have htail := assignments_of_named hd
      exact htail
  | .operator o :: rest, _, h => by
      rw [simpleFrom_operator] at h
      cases h
  | .here body :: rest, _, h => by
      rw [simpleFrom_here] at h
      cases h

/-- A command without assignments is the same behind a word. -/
theorem simpleFrom_true : ∀ {tokens : List Token} {c : SimpleCommand},
    simpleFrom false tokens = some c → c.assignments = [] → simpleFrom true tokens = some c
  | [], _, h, _ => h
  | .word w :: rest, _, h, hassignments => by
      have hword := isAssignment_of_simpleFrom h hassignments
      rw [simpleFrom_word (by simp [hword])] at h
      rwa [simpleFrom_word rfl]
  | .redirection number o :: rest, _, h, hassignments => by
      obtain ⟨w, tail, d, rfl, hd, rfl⟩ := word_of_redirection h
      rw [simpleFrom, simpleFrom_true hd hassignments]
      rfl
  | .operator o :: rest, _, h, _ => by
      rw [simpleFrom_operator] at h
      cases h
  | .here body :: rest, _, h, _ => by
      rw [simpleFrom_here] at h
      cases h

theorem reserved_of_simple {w : Text} (h : simple (.word w :: rest) = some c) :
    (reserved w = none ∨ reserved w = some .inWord) ∧
      simpleFrom false (.word w :: rest) = some c := by
  rw [simple] at h
  split at h
  next heq => exact ⟨.inr heq, h⟩
  next heq => exact ⟨.inl heq, h⟩
  next => cases h

theorem Grammar.word_of_not_reserved {w : Text}
    (h : reserved w = none ∨ reserved w = some .inWord) (hword : isAssignment w = false) :
    Grammar.word {} w = some ⟨.named, []⟩ := by
  rcases h with h | h <;> simp [Grammar.word, Grammar.begin, h, hword]

/-- The positions in a command and in the same one as the operands of another; `lead` is what
the command goes on with. -/
inductive Behind : Grammar → Grammar → List Token → Prop
  | same (g : Grammar) (lead : List Token) : Behind g g lead
  | named {lead : List Token} (h : lead.head? ≠ some (.operator .openParen)) :
      Behind ⟨.named, []⟩ ⟨.arguments, []⟩ lead
  | unnamed {lead : List Token} {c : SimpleCommand} (h : simpleFrom false lead = some c)
      (hassignments : c.assignments = []) : Behind ⟨.unnamed, []⟩ ⟨.arguments, []⟩ lead
  | redirection {w : Text} {lead : List Token} {c : SimpleCommand}
      (h : simpleFrom false lead = some c) (hassignments : c.assignments = []) :
      Behind ⟨.redirection .unnamed, []⟩ ⟨.redirection .arguments, []⟩ (.word w :: lead)

theorem behind_step {g' next : Grammar} {token : Token} {lead : List Token}
    (h : Behind g g' lead) (hlead : leading (g.event token ++ events) = lead)
    (hstep : g.advance token = some next) :
    ∃ next', g'.step token = some (next', g.event token) ∧
      Behind next next' (leading events) := by
  cases h with
  | same => exact ⟨next, by rw [Grammar.step, hstep, Option.map_some], .same _ _⟩
  | named hhead =>
      cases token with
      | word raw =>
          cases hstep
          exact ⟨_, rfl, .same _ _⟩
      | redirection number o =>
          cases hstep
          exact ⟨_, rfl, .same _ _⟩
      | here body =>
          cases hstep
          exact ⟨_, rfl, hlead ▸ .named hhead⟩
      | operator o =>
          cases o
          case openParen => exact absurd (congrArg List.head? hlead).symm hhead
          all_goals cases hstep <;> exact ⟨_, rfl, .same _ _⟩
  | unnamed hsimple hassignments =>
      cases token with
      | word raw =>
          rw [← hlead] at hsimple
          have hword := isAssignment_of_simpleFrom hsimple hassignments
          rw [Grammar.advance, Grammar.word] at hstep
          simp only [hword, Bool.false_eq_true, if_false, Option.some.injEq] at hstep
          cases hstep
          exact ⟨_, rfl, .same _ _⟩
      | redirection number o =>
          cases hstep
          rw [← hlead] at hsimple
          obtain ⟨w, tail, d, htail, hd, rfl⟩ := word_of_redirection hsimple
          exact ⟨_, rfl, htail ▸ .redirection hd hassignments⟩
      | here body =>
          cases hstep
          exact ⟨_, rfl, hlead ▸ .unnamed hsimple hassignments⟩
      | operator o =>
          cases o <;> cases hstep <;> exact ⟨_, rfl, .same _ _⟩
  | redirection hsimple hassignments =>
      cases token with
      | word raw =>
          cases hstep
          cases hlead
          exact ⟨_, rfl, .unnamed hsimple hassignments⟩
      | redirection number o => cases hstep
      | here body =>
          cases hstep
          exact ⟨_, rfl, hlead ▸ .redirection hsimple hassignments⟩
      | operator o => cases o <;> cases hstep

theorem accepts_of_behind {g' : Grammar} {lead : List Token} (h : Behind g g' lead)
    (haccepts : g.accepts = true) : g'.accepts = true ∧ g'.complete = g.complete := by
  cases h with
  | same => exact ⟨haccepts, rfl⟩
  | named | unnamed => exact ⟨rfl, rfl⟩
  | redirection => cases haccepts

theorem run_of_behind {g' : Grammar} (hbehind : Behind g g' (leading events))
    (hrun : run Grammar.step g tokens = some (h, events)) :
    ∃ h', run Grammar.step g' tokens = some (h', events) ∧
      (h.accepts = true → h'.accepts = true ∧ h'.complete = h.complete) := by
  induction tokens generalizing g g' events with
  | nil =>
      cases hrun
      exact ⟨g', rfl, accepts_of_behind hbehind⟩
  | cons token tokens ih =>
      obtain ⟨mid, first, more, hstep, hmore, rfl⟩ := run_cons_inv hrun
      rw [Grammar.step, Option.map_eq_some_iff] at hstep
      obtain ⟨next, hadvance, heq⟩ := hstep
      cases heq
      obtain ⟨next', hstep', hnext⟩ := behind_step hbehind rfl hadvance
      obtain ⟨h', hrun', hkeeps⟩ := ih hnext hmore
      exact ⟨h', by rw [run_cons hstep', hrun', Option.map_some], hkeeps⟩

/-- A simple command without assignments is read in the same way as the operands of another. -/
theorem run_behind (hrun : run Grammar.step {} tokens = some (h, events))
    (hsimple : simple (leading events) = some c) (hwords : c.words ≠ [])
    (hassignments : c.assignments = []) (hhead : tokens.head? ≠ some (.operator .newline)) :
    ∃ h', run Grammar.step ⟨.arguments, []⟩ tokens = some (h', events) ∧
      (h.accepts = true → h'.accepts = true ∧ h'.complete = h.complete) := by
  cases tokens with
  | nil =>
      cases hrun
      cases hsimple
      exact absurd rfl hwords
  | cons token tokens =>
      obtain ⟨mid, first, more, hstep, hmore, rfl⟩ := run_cons_inv hrun
      rw [Grammar.step, Option.map_eq_some_iff] at hstep
      obtain ⟨next, hadvance, heq⟩ := hstep
      cases heq
      suffices hfirst : ∃ next', Grammar.step ⟨.arguments, []⟩ token =
          some (next', Grammar.event {} token) ∧ Behind mid next' (leading more) by
        obtain ⟨next', hstep', hnext⟩ := hfirst
        obtain ⟨h', hrun', hkeeps⟩ := run_of_behind hnext hmore
        exact ⟨h', by rw [run_cons hstep', hrun', Option.map_some], hkeeps⟩
      cases token with
      | word raw =>
          obtain ⟨hreserved, hfrom⟩ := reserved_of_simple hsimple
          have hword := isAssignment_of_simpleFrom hfrom hassignments
          rw [Grammar.advance, Grammar.word_of_not_reserved hreserved hword] at hadvance
          cases hadvance
          refine ⟨_, rfl, .named fun hhead => ?_⟩
          rw [simpleFrom_word (by simp [hword]), Option.map_eq_some_iff] at hfrom
          obtain ⟨d, hd, -⟩ := hfrom
          obtain ⟨tail, htail⟩ := List.head?_eq_some_iff.mp hhead
          change simpleFrom true (leading more) = some d at hd
          rw [htail, simpleFrom_operator] at hd
          cases hd
      | redirection number o =>
          cases hadvance
          obtain ⟨w, tail, d, htail, hd, rfl⟩ := word_of_redirection hsimple
          exact ⟨_, rfl, htail ▸ .redirection hd hassignments⟩
      | here body => cases hadvance
      | operator o =>
          cases o
          case newline => exact absurd rfl hhead
          case openParen => cases hsimple
          all_goals cases hadvance

/-! ## Words -/

theorem run_words (frames : List Frame) (words : List Text) :
    run Grammar.step ⟨.arguments, frames⟩ (words.map .word) =
      some (⟨.arguments, frames⟩, (words.map .word).map Event.part) := by
  induction words with
  | nil => rfl
  | cons w words ih =>
      have hstep : Grammar.step ⟨.arguments, frames⟩ (.word w) =
          some (⟨.arguments, frames⟩, [.part (.word w)]) := rfl
      rw [List.map_cons, run_cons hstep, ih]
      rfl

theorem simpleFrom_words (words : List Text) :
    simpleFrom true (words.map .word) = some { words := words } := by
  induction words with
  | nil => rfl
  | cons w words ih =>
      rw [List.map_cons, simpleFrom_word rfl, ih]
      rfl

theorem tokens_of_simpleFrom : ∀ {named : Bool} {tokens : List Token} {c : SimpleCommand},
    simpleFrom named tokens = some c → c.assignments = [] → c.redirections = [] →
      tokens = c.words.map .word
  | _, [], _, h, _, _ => by
      cases h
      rfl
  | named, .word w :: rest, _, h, hassignments, hredirections => by
      rw [simpleFrom] at h
      split at h
      · obtain ⟨d, -, rfl⟩ := Option.map_eq_some_iff.mp h
        cases hassignments
      · obtain ⟨d, hd, rfl⟩ := Option.map_eq_some_iff.mp h
        have hrest := tokens_of_simpleFrom hd hassignments hredirections
        rw [hrest, List.map_cons]
  | _, .redirection number o :: rest, _, h, _, hredirections => by
      obtain ⟨w, tail, d, rfl, -, rfl⟩ := word_of_redirection h
      cases hredirections
  | named, .operator o :: rest, _, h, _, _ => by
      rw [simpleFrom_operator] at h
      cases h
  | named, .here body :: rest, _, h, _, _ => by
      rw [simpleFrom_here] at h
      cases h

/-- A command that has nothing but redirections. -/
theorem tokens_of_redirections : ∀ {named : Bool} {tokens : List Token} {c : SimpleCommand},
    simpleFrom named tokens = some c → c.assignments = [] → c.words = [] →
      tokens = c.redirections.flatMap fun r => [.redirection r.number r.operator, .word r.target]
  | _, [], _, h, _, _ => by
      cases h
      rfl
  | named, .word w :: rest, _, h, hassignments, hwords => by
      rw [simpleFrom] at h
      split at h
      · obtain ⟨d, -, rfl⟩ := Option.map_eq_some_iff.mp h
        cases hassignments
      · obtain ⟨d, -, rfl⟩ := Option.map_eq_some_iff.mp h
        cases hwords
  | _, .redirection number o :: rest, _, h, hassignments, hwords => by
      obtain ⟨w, tail, d, rfl, hd, rfl⟩ := word_of_redirection h
      have htail := tokens_of_redirections hd hassignments hwords
      rw [List.flatMap_cons, ← htail]
      rfl
  | named, .operator o :: rest, _, h, _, _ => by
      rw [simpleFrom_operator] at h
      cases h
  | named, .here body :: rest, _, h, _, _ => by
      rw [simpleFrom_here] at h
      cases h

theorem simpleFrom_of_simple (h : simple tokens = some c) : simpleFrom false tokens = some c := by
  match tokens, h with
  | [], h => exact h
  | .word w :: rest, h => exact (reserved_of_simple h).2
  | .redirection number o :: rest, h => exact h
  | .operator o :: rest, h => exact h
  | .here body :: rest, h => exact h

/-- A command that has nothing but words is its words, and each has a value. -/
theorem words_of_invocation {values : List Text} (h : invocation tokens = some values) :
    ∃ words : List Text, tokens = words.map .word ∧ words.mapM operand = some values := by
  rw [invocation, Option.bind_eq_some_iff] at h
  obtain ⟨c, hsimple, hvalues⟩ := h
  split at hvalues
  next hnone =>
    exact ⟨c.words, tokens_of_simpleFrom (simpleFrom_of_simple hsimple) hnone.1 hnone.2, hvalues⟩
  next => cases hvalues

theorem invocation_of_words {w : Text} (words : List Text) (hreserved : reserved w = none)
    (hword : isAssignment w = false) :
    invocation ((w :: words).map .word) = (w :: words).mapM operand := by
  have hsimple : simple ((w :: words).map .word) = some { words := w :: words } := by
    rw [List.map_cons, simple, hreserved, simpleFrom_word (by simp [hword]), simpleFrom_words]
    rfl
  rw [invocation, hsimple]
  rfl

theorem heres_parts (tokens : List Token) (events : List Event) :
    heres (tokens.map Event.part ++ events) = heres events := by
  induction tokens with
  | nil => rfl
  | cons token tokens ih => exact ih

/-- Where all tokens are parts of a command there is one job. -/
theorem parse_of_parts (hrun : run Grammar.step {} tokens = some (g, tokens.map Event.part))
    (hcomplete : g.complete = true) (hne : tokens ≠ []) :
    parse tokens = some { jobs := [⟨tokens, false⟩] } := by
  have haccepts : g.accepts = true := by rw [Grammar.accepts, hcomplete, Bool.true_or]
  have hheres := heres_parts tokens []
  rw [List.append_nil] at hheres
  rw [parse, hrun, Option.bind_some, if_pos haccepts, jobs_parts hne, hheres]
  rfl

end

end ArtPlatform.Shell
