import ArtPlatform.Linux.LinuxCommand
import ArtPlatform.Shell.Reader
import Mathlib.Data.List.Forall2

/-!
# The builder of commands

The builder wraps the text of a command in other text: a shell, `nohup` with its redirections,
`sudo` with the password that it reads, a job in the background.  The wrapped text is read by
the shell.

Main results:

- Theorem `composes_iff`: the built text is read as the command, as it is, under the options, if
  and only if the options, the texts and the command meet a condition.
- Theorem `stdout_sent_to_stderr`: all options together.
-/

namespace ArtPlatform.Linux

open Transducer Shell

/-! ## Constants -/

def echo : Text := chars ['e', 'c', 'h', 'o']

def pipe : Text := chars ['|']

def sudoWord : Text := chars ['s', 'u', 'd', 'o']

def sudoShellFlag : Text := chars ['-', 'S']

def sh : Text := chars ['s', 'h']

def commandFlag : Text := chars ['-', 'c']

def nohupWord : Text := chars ['n', 'o', 'h', 'u', 'p']

def stdin : Text := chars ['<']

def devNull : Text := chars ['/', 'd', 'e', 'v', '/', 'n', 'u', 'l', 'l']

def stdout : Text := chars ['1', '>']

def stderr : Text := chars ['2', '>']

def ampersand : Text := chars ['&']

def dollar : Text := chars ['$']

def exclamationMark : Text := chars ['!']

def nohupOut : Text := chars ['n', 'o', 'h', 'u', 'p', '.', 'o', 'u', 't']

def nohupErr : Text := chars ['n', 'o', 'h', 'u', 'p', '.', 'e', 'r', 'r']

structure LinuxCommandBuilder where
  host : Text
  command : Text := []
  password : Text := []
  rooted : Bool := false
  nohup : Bool := false
  asynchronous : Bool := false
  stdoutLogPath : Text := nohupOut
  stderrLogPath : Text := nohupErr
deriving DecidableEq, Repr

/-- A template: the parts with blanks between them. -/
def template (parts : List Text) : Text :=
  List.intercalate [blank] parts

def quoted (text : Text) : Text :=
  singleQuote :: (text ++ [singleQuote])

namespace LinuxCommandBuilder

variable (s : LinuxCommandBuilder)

def linuxCommand (command : Text) : LinuxCommand where
  command := command
  host := s.host
  password := s.password
  rooted := s.rooted
  asynchronous := s.asynchronous
  stdoutLogPath := s.stdoutLogPath
  stderrLogPath := s.stderrLogPath
  nohup := s.nohup

def build : LinuxCommand :=
  if s.rooted then
    if s.nohup then
      if s.asynchronous then
        s.linuxCommand (template [echo, s.password, pipe, sudoWord, sudoShellFlag, sh, commandFlag,
          quoted (template [nohupWord, stdin ++ devNull, stderr ++ s.stdoutLogPath,
            stderr ++ s.stderrLogPath, s.command, ampersand, echo, dollar ++ exclamationMark])])
      else
        s.linuxCommand (template [echo, s.password, pipe, sudoWord, sudoShellFlag, sh, commandFlag,
          quoted (template [nohupWord, stdin ++ devNull, stdout ++ s.stdoutLogPath,
            stderr ++ s.stderrLogPath, s.command])])
    else if s.asynchronous then
      s.linuxCommand (template [echo, s.password, pipe, sudoWord, sudoShellFlag, sh, commandFlag,
        quoted (template [s.command, ampersand, echo, dollar ++ exclamationMark])])
    else
      s.linuxCommand (template [echo, s.password, pipe, sudoWord, sudoShellFlag, sh, commandFlag,
        quoted s.command])
  else if s.nohup then
    if s.asynchronous then
      s.linuxCommand (template [sh, commandFlag,
        quoted (template [nohupWord, stdin ++ devNull, stdout ++ s.stdoutLogPath,
          stderr ++ s.stderrLogPath, s.command, ampersand, echo, dollar ++ exclamationMark])])
    else
      s.linuxCommand (template [sh, commandFlag,
        quoted (template [nohupWord, stdin ++ devNull, stdout ++ s.stdoutLogPath,
          stderr ++ s.stderrLogPath, s.command])])
  else if s.asynchronous then
    s.linuxCommand (template [sh, commandFlag,
      quoted (template [s.command, ampersand, echo, dollar ++ exclamationMark])])
  else s.linuxCommand s.command

/-! ## The parts of the text -/

/-- What is in front of the password's end, the ends of the log paths and the command. -/
def throughPassword : Text :=
  template [echo, s.password] ++ [blank]

def throughStdout : Text :=
  template [nohupWord, stdin ++ devNull,
    (if s.rooted && s.asynchronous then stderr else stdout) ++ s.stdoutLogPath] ++ [blank]

def throughStderr : Text :=
  stderr ++ s.stderrLogPath ++ [blank]

def behindCommand : Text :=
  blank :: template [ampersand, echo, dollar ++ exclamationMark]

/-- The text that the shell is given. -/
def script : Text :=
  (if s.nohup then s.throughStdout ++ s.throughStderr else []) ++ s.command ++
    if s.asynchronous then behindCommand else []

theorem build_command : s.build.command =
    if s.rooted then
      s.throughPassword ++ (template [pipe, sudoWord, sudoShellFlag, sh, commandFlag] ++ [blank]) ++
        quoted s.script
    else if s.nohup || s.asynchronous then
      (template [sh, commandFlag] ++ [blank]) ++ quoted s.script
    else s.command := by
  obtain ⟨host, command, password, rooted, nohup, asynchronous, out, err⟩ := s
  cases rooted <;> cases nohup <;> cases asynchronous <;>
    simp [build, linuxCommand, script, throughPassword, throughStdout, throughStderr,
      behindCommand, template, quoted, List.intercalate]

/-! ## What is run -/

/-- What `echo` prints, where the standard says it. -/
def echoed (values : List Text) : Option Text :=
  if values.head? = some (chars ['-', 'n']) ∨ values.any fun value => value.contains backslash then
    none
  else some (template values)

/-- The text is read as one job in the foreground. -/
def ReadsAs (text : Text) (read : List Shell.Token) : Prop :=
  tokens text = some read ∧ parse read = some { jobs := [⟨read, false⟩] }

/-- `sh` is given the text, and `sudo` the password, which is read on its own. -/
def Delivers (command text : Text) : Prop :=
  if s.rooted then
    (∃ first, ReadsTo s.throughPassword first) ∧
      ∃ left right values, ReadsAs command (left ++ .operator .pipe :: right) ∧
        invocation left = some (echo :: values) ∧ echoed values = some s.password ∧
        invocation right = some [sudoWord, sudoShellFlag, sh, commandFlag, text]
  else ∃ read, ReadsAs command read ∧ invocation read = some [sh, commandFlag, text]

/-- Output of the descriptor is written to the path. -/
def Opens (descriptor path : Text) (r : Redirection) : Prop :=
  r.number = some descriptor ∧ r.operator = .great ∧ literal r.target = some path

/-- `nohup` with its redirections, which are read on their own. -/
structure OpensLogs (first second : List Shell.Token) (logs : SimpleCommand) : Prop where
  stdout_read : ReadsTo s.throughStdout first
  stderr_read : ReadsTo s.throughStderr second
  simple : simple (first ++ second) = some logs
  words : logs.words = [nohupWord]
  redirections : ∃ input output error, logs.redirections = [input, output, error] ∧
    Opens (chars ['1']) s.stdoutLogPath output ∧ Opens (chars ['2']) s.stderrLogPath error

/-- The command is what `nohup` runs, with its own redirections behind those to the logs. -/
def UnderNohup (given job : List Shell.Token) : Prop :=
  ∃ first second logs c, s.OpensLogs first second logs ∧ simple given = some c ∧ c.words ≠ [] ∧
    job = first ++ second ++ given ∧
    simple job = some
      { assignments := c.assignments
        words := logs.words ++ c.words
        redirections := logs.redirections ++ c.redirections }

/-- The job that prints the process id. -/
def echoPid : Job where
  tokens := [.word echo, .word (dollar ++ exclamationMark)]
  background := false

/-- The text is the command as one job, in the background if it is asynchronous. -/
def RunsCommand (text : Text) : Prop :=
  ∃ given job heres, readProgram s.command = some { jobs := [given], heres := heres } ∧
    readProgram text = some
      { jobs := job :: (if s.asynchronous then [echoPid] else []), heres := heres } ∧
    job.background = (s.asynchronous || given.background) ∧
    if s.nohup then s.UnderNohup given.tokens job.tokens else job.tokens = given.tokens

/-- The built text runs the command as it is, under the options. -/
structure Composes : Prop where
  unchanged : s.rooted = false → s.nohup = false → s.asynchronous = false →
    s.build.command = s.command
  delivers : s.rooted = true ∨ s.nohup = true ∨ s.asynchronous = true →
    s.Delivers s.build.command s.script
  runs : s.nohup = true ∨ s.asynchronous = true → s.RunsCommand s.script

/-! ## The condition -/

/-- Plain words with one blank between them. -/
def PlainPassword (password : Text) : Prop :=
  ∃ words, password = template words ∧ (∀ word ∈ words, PlainOperand word) ∧
    words.head? ≠ some (chars ['-', 'n'])

/-- One simple command that begins with the first word or redirection of the text. -/
def OneSimpleCommand (command : Text) : Prop :=
  ∃ read given heres c, tokens command = some read ∧
    parse read = some { jobs := [given], heres := heres } ∧
    read.head? ≠ some (.operator .newline) ∧
    simple given.tokens = some c ∧ c.words ≠ [] ∧ c.assignments = []

/-- One and-or list that nothing has ended. -/
def OneOpenJob (command : Text) : Prop :=
  ∃ given heres, readProgram command = some { jobs := [given], heres := heres } ∧
    EndsOpen command

structure Careful : Prop where
  options : ¬ (s.rooted = true ∧ s.nohup = true ∧ s.asynchronous = true)
  quote : s.rooted = true ∨ s.nohup = true ∨ s.asynchronous = true → singleQuote ∉ s.command
  password : s.rooted = true → PlainPassword s.password
  logs : s.nohup = true → PlainPath s.stdoutLogPath ∧ PlainPath s.stderrLogPath
  simple : s.nohup = true → OneSimpleCommand s.command
  ended : s.asynchronous = true → OneOpenJob s.command

/-! ## The shell and the password -/

section

variable {s : LinuxCommandBuilder} {text : Text} {ops words : List Text}

theorem tokens_append {left : Text} {first : List Shell.Token} (h : ReadsTo left first)
    (right : Text) :
    tokens (left ++ right) = (tokens right).map (first ++ ·) :=
  tokensFrom_append h

theorem tokens_quoted (h : singleQuote ∉ text) :
    tokens (quoted text) = some [.word (quoted text)] := by
  rw [tokens, tokensFrom, quoted, run_singleQuoted h]
  rfl

theorem readsTo_shell : ReadsTo (template [sh, commandFlag] ++ [blank])
    [.word sh, .word commandFlag] := by
  rfl

theorem readsTo_sudo :
    ReadsTo (template [pipe, sudoWord, sudoShellFlag, sh, commandFlag] ++ [blank])
      [.operator .pipe, .word sudoWord, .word sudoShellFlag, .word sh, .word commandFlag] := by
  rfl

theorem run_pipeline (ops : List Text) (w : Text) (read : List Shell.Token)
    (hread : read = .word echo :: ops.map .word ++ .operator .pipe ::
      [.word sudoWord, .word sudoShellFlag, .word sh, .word commandFlag, .word w]) :
    run Grammar.step {} read = some (⟨.arguments, []⟩, read.map Event.part) := by
  subst hread
  have hecho : Grammar.step {} (.word echo) = some (⟨.named, []⟩, [.part (.word echo)]) := rfl
  rw [List.cons_append, run_cons hecho]
  cases ops with
  | nil => rfl
  | cons op ops =>
      have hop : Grammar.step ⟨.named, []⟩ (.word op) =
          some (⟨.arguments, []⟩, [.part (.word op)]) := rfl
      have hshell : run Grammar.step ⟨.arguments, []⟩ (.operator .pipe ::
          [.word sudoWord, .word sudoShellFlag, .word sh, .word commandFlag, .word w]) =
          some (⟨.arguments, []⟩, (.operator .pipe :: [.word sudoWord, .word sudoShellFlag,
            .word sh, .word commandFlag, .word w]).map Event.part) := rfl
      rw [List.map_cons, List.cons_append, run_cons hop, run_append_some (run_words [] ops) hshell]
      simp only [Option.map_some, List.map_cons, List.map_append, List.cons_append,
        List.nil_append]

theorem operand_quoted (h : singleQuote ∉ text) : operand (quoted text) = some text :=
  operand_singleQuoted h

theorem forall₂_of_mapM {words values : List Text} (h : words.mapM operand = some values) :
    List.Forall₂ (fun word value => operand word = some value) words values := by
  induction words generalizing values with
  | nil =>
      cases h
      exact .nil
  | cons word words ih =>
      rw [List.mapM_cons, Option.bind_eq_bind, Option.bind_eq_some_iff] at h
      obtain ⟨value, hvalue, h⟩ := h
      rw [Option.bind_eq_bind, Option.bind_eq_some_iff] at h
      obtain ⟨rest, hrest, h⟩ := h
      cases h
      exact .cons hvalue (ih hrest)

/-- Where the last word of a command has the value of the quoted text, the text has no quotes. -/
theorem not_mem_of_last {words : List Text} {last : List Shell.Token} (before values : List Text)
    (hlength : before.length = values.length) (hlast : tokens (quoted text) = some last)
    (hwords : words.map .word = before.map .word ++ last)
    (hvalues : words.mapM operand = some (values ++ [text])) : singleQuote ∉ text := by
  have hforall := forall₂_of_mapM hvalues
  obtain ⟨left, right, rfl, hleft, rfl⟩ := List.map_eq_append_iff.mp hwords
  have hwordsLength := hforall.length_eq
  have hleftLength := congrArg List.length hleft
  simp only [List.length_append, List.length_map, List.length_singleton] at hwordsLength hleftLength
  obtain ⟨w, rfl⟩ : ∃ w, right = [w] := List.length_eq_one_iff.mp (by omega)
  have hw := List.forall₂_drop_append _ _ _ hforall
  rw [List.drop_append_of_le_length (by omega), List.drop_of_length_le (by omega)] at hw
  obtain ⟨hvalue, -⟩ := List.forall₂_cons.mp hw
  exact not_mem_of_singleQuoted hlast hvalue

theorem delivers_of_shell (hrooted : s.rooted = false)
    (hsome : s.nohup = true ∨ s.asynchronous = true) (hquote : singleQuote ∉ s.script) :
    s.Delivers s.build.command s.script := by
  have hoption : (s.nohup || s.asynchronous) = true := by simpa using hsome
  rw [Delivers, hrooted, build_command, hrooted, if_pos hoption]
  simp only [Bool.false_eq_true, if_false]
  refine ⟨[.word sh, .word commandFlag, .word (quoted s.script)], ⟨?_, ?_⟩, ?_⟩
  · rw [tokens_append readsTo_shell, tokens_quoted hquote]
    rfl
  · exact parse_of_parts (g := ⟨.arguments, []⟩) rfl rfl (by simp)
  · have hwords := invocation_of_words (w := sh) [commandFlag, quoted s.script] rfl rfl
    rw [show ([.word sh, .word commandFlag, .word (quoted s.script)] : List Shell.Token) =
      [sh, commandFlag, quoted s.script].map .word from rfl, hwords]
    simp only [List.mapM_cons, List.mapM_nil, operand_quoted hquote]
    rfl

theorem shell_of_delivers (hrooted : s.rooted = false)
    (hsome : s.nohup = true ∨ s.asynchronous = true)
    (h : s.Delivers s.build.command s.script) : singleQuote ∉ s.script := by
  have hoption : (s.nohup || s.asynchronous) = true := by simpa using hsome
  rw [Delivers, hrooted, build_command, hrooted, if_pos hoption] at h
  simp only [Bool.false_eq_true, if_false] at h
  obtain ⟨read, ⟨hread, -⟩, hinvocation⟩ := h
  rw [tokens_append readsTo_shell] at hread
  obtain ⟨last, hlast, rfl⟩ := Option.map_eq_some_iff.mp hread
  obtain ⟨words, hwords, hvalues⟩ := words_of_invocation hinvocation
  exact not_mem_of_last [sh, commandFlag] [sh, commandFlag] rfl hlast hwords.symm hvalues

theorem throughPassword_eq (s : LinuxCommandBuilder) :
    s.throughPassword = (echo ++ [blank]) ++ (s.password ++ [blank]) := by
  simp [throughPassword, template, List.intercalate]

theorem readsTo_echo : ReadsTo (echo ++ [blank]) [.word echo] :=
  readsTo_word (by decide)

theorem mapM_operand_plain {words : List Text} (h : ∀ word ∈ words, PlainOperand word) :
    words.mapM operand = some words := by
  induction words with
  | nil => rfl
  | cons word words ih =>
      rw [List.mapM_cons, operand_of_plainOperand (h word List.mem_cons_self),
        ih fun w hw => h w (List.mem_cons_of_mem _ hw)]
      rfl

/-- The length of words, each with one more character. -/
def width (words : List Text) : Nat :=
  (words.map fun word => word.length + 1).sum

theorem weight_words (words : List Text) :
    ((words.map Shell.Token.word).map Shell.Token.weight).sum = width words := by
  rw [List.map_map]
  rfl

theorem length_template {words : List Text} (h : words ≠ []) :
    (template words).length + 1 = width words := by
  induction words with
  | nil => exact absurd rfl h
  | cons word words ih =>
      cases words with
      | nil => simp [template, List.intercalate, width]
      | cons other words =>
          have hrest := ih (by simp)
          simp only [template, List.intercalate, List.intersperse_cons_cons, List.flatten_cons,
            List.length_append, List.length_singleton, width, List.map_cons, List.sum_cons]
            at hrest ⊢
          omega

theorem width_le {words values : List Text}
    (h : List.Forall₂ (fun word value => operand word = some value) words values) :
    width values ≤ width words := by
  induction h with
  | nil => exact Nat.le_refl 0
  | cons hvalue _ ih =>
      have hlength := length_le_of_literal (operand_eq_some_iff.mp hvalue).2
      simp only [width, List.map_cons, List.sum_cons] at ih ⊢
      omega

/-- Words that are not longer than their values are plain, if they can be. -/
theorem plain_of_width {words values : List Text}
    (h : List.Forall₂ (fun word value => operand word = some value) words values)
    (hwidth : width words ≤ width values)
    (hplain : ∀ word ∈ words, ¬ Special word → PlainWord word) :
    words = values ∧ ∀ word ∈ words, PlainOperand word := by
  induction h with
  | nil => exact ⟨rfl, fun word hword => absurd hword List.not_mem_nil⟩
  | @cons word value words values hvalue hrest ih =>
      have hlength := length_le_of_literal (operand_eq_some_iff.mp hvalue).2
      have hothers := width_le hrest
      simp only [width, List.map_cons, List.sum_cons] at hwidth hothers
      have hword : word.length ≤ value.length := by omega
      obtain ⟨rfl, hnone, htilde⟩ :=
        eq_of_length_le (operand_eq_some_iff.mp hvalue).2 hword
      obtain ⟨rfl, hall⟩ := ih (by simp only [width]; omega) fun w hw =>
        hplain w (List.mem_cons_of_mem _ hw)
      refine ⟨rfl, fun w hw => ?_⟩
      rcases List.mem_cons.mp hw with rfl | hw
      · exact { toPlainWord := hplain w List.mem_cons_self hnone
                tilde := htilde
                pattern := no_pattern_of_operand hvalue hword }
      · exact hall w hw

theorem delivers_of_sudo (hrooted : s.rooted = true) (hquote : singleQuote ∉ s.script)
    (hpassword : PlainPassword s.password) : s.Delivers s.build.command s.script := by
  obtain ⟨words, hwords, hplain, hhead⟩ := hpassword
  have hechoed : ReadsTo s.throughPassword (.word echo :: words.map .word) := by
    have hread := readsTo_words fun word hword => (hplain word hword).toPlainWord
    rw [throughPassword_eq, hwords]
    exact readsTo_append readsTo_echo hread
  have hvalues := mapM_operand_plain hplain
  rw [Delivers, hrooted, build_command, hrooted]
  simp only [if_true]
  refine ⟨⟨_, hechoed⟩, .word echo :: words.map .word,
    [.word sudoWord, .word sudoShellFlag, .word sh, .word commandFlag, .word (quoted s.script)],
    words, ⟨?_, ?_⟩, ?_, ?_, ?_⟩
  · rw [tokens_append (readsTo_append hechoed readsTo_sudo), tokens_quoted hquote]
    simp
  · exact parse_of_parts (run_pipeline words _ _ rfl) rfl (by simp)
  · have hinvocation := invocation_of_words (w := echo) words rfl rfl
    rw [List.map_cons] at hinvocation
    rw [hinvocation, List.mapM_cons, hvalues]
    rfl
  · rw [echoed, if_neg, hwords]
    rintro (hn | hbackslash)
    · exact hhead hn
    · obtain ⟨word, hword, hmem⟩ := List.any_eq_true.mp hbackslash
      have hin := (hplain word hword).inWord backslash (List.contains_iff_mem.mp hmem)
      cases hin
  · have hinvocation := invocation_of_words (w := sudoWord)
      [sudoShellFlag, sh, commandFlag, quoted s.script] rfl rfl
    rw [show ([.word sudoWord, .word sudoShellFlag, .word sh, .word commandFlag,
        .word (quoted s.script)] : List Shell.Token) =
      [sudoWord, sudoShellFlag, sh, commandFlag, quoted s.script].map .word from rfl, hinvocation]
    simp only [List.mapM_cons, List.mapM_nil, operand_quoted hquote]
    rfl

theorem sudo_of_delivers (hrooted : s.rooted = true)
    (h : s.Delivers s.build.command s.script) :
    singleQuote ∉ s.script ∧ PlainPassword s.password := by
  rw [Delivers, hrooted, build_command, hrooted] at h
  simp only [if_true] at h
  obtain ⟨⟨first, hfirst⟩, left, right, values, ⟨hread, -⟩, hleft, hechoed, hright⟩ := h
  obtain ⟨ops, rfl, hops⟩ := words_of_invocation hleft
  obtain ⟨words, rfl, hwords⟩ := words_of_invocation hright
  rw [tokens_append (readsTo_append hfirst readsTo_sudo)] at hread
  obtain ⟨last, hlast, heq⟩ := Option.map_eq_some_iff.mp hread
  have hsplit : ops.map .word ++ .operator .pipe :: words.map .word =
      first ++ .operator .pipe ::
        ([sudoWord, sudoShellFlag, sh, commandFlag].map .word ++ last) := by
    rw [← heq]
    simp
  obtain ⟨rfl, -, hbehind⟩ :=
    (List.append_cons_inj_of_notMem (by simp) (by simp)).mp hsplit
  refine ⟨not_mem_of_last [sudoWord, sudoShellFlag, sh, commandFlag]
    [sudoWord, sudoShellFlag, sh, commandFlag] rfl hlast hbehind hwords, ?_⟩
  rw [throughPassword_eq, ReadsTo, run_append_of readsTo_echo] at hfirst
  obtain ⟨⟨r, rest⟩, hrest, heq⟩ := Option.map_eq_some_iff.mp hfirst
  obtain ⟨rfl, hwords'⟩ := Prod.mk.inj heq
  cases ops with
  | nil => cases hwords'
  | cons op ops =>
      obtain ⟨-, rfl⟩ := List.cons.inj hwords'
      obtain ⟨-, hvalues⟩ := List.forall₂_cons.mp (forall₂_of_mapM hops)
      rw [echoed] at hechoed
      split at hechoed
      next => cases hechoed
      next hprints =>
        have hpassword : template values = s.password := Option.some.inj hechoed
        -- nothing of the password is lost to a quote, a comment or a second blank
        have hweight := weight_run_reader hrest
        have hwidth : width ops ≤ width values := by
          rw [weight_words, List.length_append, List.length_singleton, ← hpassword] at hweight
          cases values with
          | nil =>
              cases hvalues
              exact Nat.le_refl 0
          | cons value values =>
              have hlength := length_template (List.cons_ne_nil value values)
              omega
        obtain ⟨rfl, hplain⟩ := plain_of_width hvalues hwidth fun w hw hnone =>
          plainWord_of_token (.of_ne (by simp)) hrest (List.mem_map_of_mem hw) hnone
        exact ⟨ops, hpassword.symm, hplain, fun hn => hprints (.inl hn)⟩

end

/-! ## The command as a job -/

section

variable {s : LinuxCommandBuilder} {lead read : List Shell.Token} {front command : Text}
  {given : Job}
  {g h : Grammar} {events : List Event}

theorem readProgram_foreground (hfront : ReadsTo front lead)
    (hlead : run Grammar.step {} lead = some (g, lead.map Event.part))
    (hread : tokens command = some read) (hrun : run Grammar.step g read = some (h, events))
    (haccepts : h.accepts = true) (hjobs : jobs events = [given]) :
    readProgram (front ++ command) = some
      { jobs := [⟨lead ++ given.tokens, given.background⟩], heres := heres events } := by
  rw [readProgram, tokens_append hfront, hread, Option.map_some, Option.bind_some, parse,
    run_append_some hlead hrun, Option.bind_some, if_pos haccepts, jobs_parts_append hjobs,
    heres_parts]

theorem tokens_echoPid :
    tokens (template [ampersand, echo, dollar ++ exclamationMark]) =
      some (.operator .amp :: echoPid.tokens) := by
  rfl

theorem run_echoPid (hcomplete : g.complete = true) :
    run Grammar.step g (.operator .amp :: echoPid.tokens) =
      some (⟨.arguments, []⟩, .stop true :: echoPid.tokens.map Event.part) := by
  obtain ⟨hoperator, hevent⟩ := Grammar.operator_of_complete (o := .amp) hcomplete rfl
  have hstep : g.step (.operator .amp) = some (⟨.next, []⟩, [.stop true]) := by
    rw [Grammar.step, Grammar.advance, hoperator, hevent]
    rfl
  rw [run_cons hstep]
  rfl

/-- Behind a command that can end. -/
theorem jobs_echoPid (hrun : run Grammar.step {} read = some (g, events))
    (hcomplete : g.complete = true) (hjobs : jobs events = [given]) :
    jobs (events ++ .stop true :: echoPid.tokens.map Event.part) =
      [⟨given.tokens, true⟩, echoPid] := by
  have hne : echoPid.tokens ≠ [] := by simp [echoPid]
  exact (jobs_of_complete hrun hcomplete hjobs true hne).2

theorem readsTo_nil : ReadsTo [] [] := by
  rfl

theorem readProgram_background (hfront : ReadsTo front lead)
    (hlead : run Grammar.step {} lead = some (g, lead.map Event.part))
    (hread : ReadsTo (command ++ [blank]) read)
    (hrun : run Grammar.step g read = some (h, events)) (hcomplete : h.complete = true)
    (hjobs : jobs (events ++ .stop true :: echoPid.tokens.map Event.part) =
      [⟨given.tokens, true⟩, echoPid]) :
    readProgram (front ++ command ++ behindCommand) = some
      { jobs := [⟨lead ++ given.tokens, true⟩, echoPid], heres := heres events } := by
  have htext : front ++ command ++ behindCommand =
      front ++ (command ++ [blank] ++ template [ampersand, echo, dollar ++ exclamationMark]) := by
    simp [behindCommand]
  have hheres : heres (events ++ .stop true :: echoPid.tokens.map Event.part) = heres events := by
    rw [heres, List.filterMap_append]
    exact List.append_nil _
  have hbehind := run_append_some hrun (run_echoPid hcomplete)
  have haccepts : (⟨.arguments, []⟩ : Grammar).accepts = true := rfl
  rw [readProgram, htext, tokens_append hfront, tokens_append hread, tokens_echoPid,
    Option.map_some, Option.map_some, Option.bind_some, parse, run_append_some hlead hbehind,
    Option.bind_some, if_pos haccepts, jobs_parts_append hjobs, heres_parts, hheres]

end

/-! ## The logs -/

section

variable {s : LinuxCommandBuilder} {path : Text} {given : List Shell.Token} {c : SimpleCommand}

/-- The descriptor that is written in front of the first log path. -/
def stdoutDescriptor (s : LinuxCommandBuilder) : Text :=
  if s.rooted && s.asynchronous then chars ['2'] else chars ['1']

/-- What is read in front of the first log path. -/
def nohupTokens : List Shell.Token :=
  [.word nohupWord, .redirection none .less, .word devNull]

theorem throughStdout_eq (s : LinuxCommandBuilder) :
    s.throughStdout = (template [nohupWord, stdin ++ devNull] ++ [blank] ++
      if s.rooted && s.asynchronous then stderr else stdout) ++ (s.stdoutLogPath ++ [blank]) := by
  simp [throughStdout, template, List.intercalate]

theorem run_throughStdout (s : LinuxCommandBuilder) :
    run Reader.step {} s.throughStdout =
      (run Reader.step { base := { core := .redirection (some s.stdoutDescriptor) .great } }
        (s.stdoutLogPath ++ [blank])).map fun last => (last.1, nohupTokens ++ last.2) := by
  have hfront : run Reader.step {} (template [nohupWord, stdin ++ devNull] ++ [blank] ++
      if s.rooted && s.asynchronous then stderr else stdout) =
        some ({ base := { core := .redirection (some s.stdoutDescriptor) .great } },
          nohupTokens) := by
    rw [stdoutDescriptor]
    cases s.rooted && s.asynchronous <;> rfl
  rw [throughStdout_eq, run_append_of hfront]

theorem run_throughStderr (s : LinuxCommandBuilder) :
    run Reader.step {} s.throughStderr =
      run Reader.step { base := { core := .redirection (some (chars ['2'])) .great } }
        (s.stderrLogPath ++ [blank]) := by
  have hfront : run Reader.step {} stderr =
      some ({ base := { core := .redirection (some (chars ['2'])) .great } }, []) := rfl
  rw [throughStderr, List.append_assoc, run_append_of hfront]
  simp

/-- The tokens in front of the command. -/
def stdoutTokens (s : LinuxCommandBuilder) : List Shell.Token :=
  nohupTokens ++ [.redirection (some (chars ['1'])) .great, .word s.stdoutLogPath]

def stderrTokens (s : LinuxCommandBuilder) : List Shell.Token :=
  [.redirection (some (chars ['2'])) .great, .word s.stderrLogPath]

def logTokens (s : LinuxCommandBuilder) : List Shell.Token :=
  s.stdoutTokens ++ s.stderrTokens

def logs (s : LinuxCommandBuilder) : SimpleCommand where
  words := [nohupWord]
  redirections := [⟨none, .less, devNull⟩, ⟨some (chars ['1']), .great, s.stdoutLogPath⟩,
    ⟨some (chars ['2']), .great, s.stderrLogPath⟩]

theorem run_logTokens (s : LinuxCommandBuilder) :
    run Grammar.step {} s.logTokens = some (⟨.arguments, []⟩, s.logTokens.map Event.part) := by
  rfl

theorem simple_logTokens (h : simpleFrom true given = some c) :
    simple (s.logTokens ++ given) = some
      { assignments := c.assignments
        words := s.logs.words ++ c.words
        redirections := s.logs.redirections ++ c.redirections } := by
  have hword : isAssignment nohupWord = false := rfl
  have hreserved : reserved nohupWord = none := rfl
  rw [logTokens, stdoutTokens, nohupTokens, stderrTokens]
  simp only [List.cons_append, List.nil_append]
  rw [simple, hreserved, simpleFrom_word (by simp [hword])]
  simp only [simpleFrom, h, Option.map_some]
  rfl

theorem opensLogs_of_plain (hnumber : (s.rooted && s.asynchronous) = false)
    (hstdout : PlainPath s.stdoutLogPath) (hstderr : PlainPath s.stderrLogPath) :
    s.OpensLogs s.stdoutTokens s.stderrTokens s.logs where
  stdout_read := by
    rw [ReadsTo, run_throughStdout, run_target _ hstdout.toPlainWord, stdoutDescriptor, hnumber]
    rfl
  stderr_read := by
    rw [ReadsTo, run_throughStderr, run_target _ hstderr.toPlainWord]
    rfl
  simple := by
    have hnone : simpleFrom true [] = some {} := rfl
    have hlogs := simple_logTokens (s := s) hnone
    rwa [List.append_nil, List.append_nil, List.append_nil] at hlogs
  words := rfl
  redirections := ⟨_, _, _, rfl, ⟨rfl, rfl, literal_of_plainPath hstdout⟩,
    ⟨rfl, rfl, literal_of_plainPath hstderr⟩⟩

end

/-! ## A careful builder's text runs the command -/

section

variable {s : LinuxCommandBuilder} {read : List Shell.Token} {given : Job} {heres : List Text}

theorem readProgram_inv {command : Text} {p : Program} (h : readProgram command = some p) :
    ∃ read, tokens command = some read ∧ parse read = some p :=
  Option.bind_eq_some_iff.mp h

theorem readsTo_logs (h : s.OpensLogs s.stdoutTokens s.stderrTokens s.logs) :
    ReadsTo (s.throughStdout ++ s.throughStderr) s.logTokens :=
  readsTo_append h.stdout_read h.stderr_read

/-- The command behind `nohup` and the redirections. -/
theorem run_behind_logs {c : SimpleCommand} {g : Grammar} {events : List Event}
    (hrun : run Grammar.step {} read = some (g, events)) (haccepts : g.accepts = true)
    (hjobs : jobs events = [given]) (hhead : read.head? ≠ some (.operator .newline))
    (hsimple : simple given.tokens = some c) (hwords : c.words ≠ [])
    (hassignments : c.assignments = []) :
    ∃ h, run Grammar.step ⟨.arguments, []⟩ read = some (h, events) ∧ h.accepts = true ∧
      h.complete = g.complete := by
  have hleading : given.tokens = leading events := tokens_of_jobs hjobs
  rw [hleading] at hsimple
  obtain ⟨h, hbehind, hkeeps⟩ := run_behind hrun hsimple hwords hassignments hhead
  obtain ⟨hh, hcomplete⟩ := hkeeps haccepts
  exact ⟨h, hbehind, hh, hcomplete⟩

theorem underNohup_of_logs {c : SimpleCommand}
    (hlogs : s.OpensLogs s.stdoutTokens s.stderrTokens s.logs)
    (hsimple : simple given.tokens = some c) (hwords : c.words ≠ [])
    (hassignments : c.assignments = []) :
    s.UnderNohup given.tokens (s.logTokens ++ given.tokens) := by
  have hnamed := simpleFrom_true (simpleFrom_of_simple hsimple) hassignments
  exact ⟨_, _, _, c, hlogs, hsimple, hwords, rfl, simple_logTokens hnamed⟩

theorem runs_of_careful (h : s.Careful) (hsome : s.nohup = true ∨ s.asynchronous = true) :
    s.RunsCommand s.script := by
  cases hnohup : s.nohup with
  | false =>
      have hasync : s.asynchronous = true := by simpa [hnohup] using hsome
      obtain ⟨given, heres, hgiven, read, g, events, hread, hreads, hrun, hcomplete⟩ :=
        h.ended hasync
      obtain ⟨read', hread', hparse⟩ := readProgram_inv hgiven
      obtain rfl : read = read' := Option.some.inj (hread.symm.trans hread')
      obtain ⟨g', events', hrun', -, hp⟩ := parse_inv hparse
      cases hrun.symm.trans hrun'
      obtain ⟨hjobs, rfl⟩ := Program.mk.inj hp
      have hprogram := readProgram_background readsTo_nil rfl hreads hrun hcomplete
        (jobs_echoPid hrun hcomplete hjobs.symm)
      refine ⟨given, ⟨given.tokens, true⟩, _, hgiven, ?_, ?_, ?_⟩
      · rw [script, hnohup, hasync]
        exact hprogram
      · rw [hasync]
        rfl
      · rw [hnohup]
        rfl
  | true =>
      have hnumber : (s.rooted && s.asynchronous) = false := by
        have hoptions := h.options
        cases hrooted : s.rooted <;> cases hasync : s.asynchronous <;> simp_all
      obtain ⟨hstdout, hstderr⟩ := h.logs hnohup
      obtain ⟨read, given, heres, c, hread, hparse, hhead, hsimple, hwords, hassignments⟩ :=
        h.simple hnohup
      have hlogs := opensLogs_of_plain hnumber hstdout hstderr
      have hunder := underNohup_of_logs hlogs hsimple hwords hassignments
      have hgiven : readProgram s.command = some { jobs := [given], heres := heres } := by
        rw [readProgram, hread, Option.bind_some, hparse]
      obtain ⟨g, events, hrun, haccepts, hp⟩ := parse_inv hparse
      obtain ⟨hjobs, rfl⟩ := Program.mk.inj hp
      obtain ⟨g', hbehind, haccepts', hcomplete'⟩ :=
        run_behind_logs hrun haccepts hjobs.symm hhead hsimple hwords hassignments
      cases hasync : s.asynchronous with
      | false =>
          have hprogram := readProgram_foreground (readsTo_logs hlogs) (run_logTokens s) hread
            hbehind haccepts' hjobs.symm
          refine ⟨given, ⟨s.logTokens ++ given.tokens, given.background⟩, _, hgiven, ?_, ?_, ?_⟩
          · rw [script, hnohup, hasync]
            simpa using hprogram
          · rw [hasync, Bool.false_or]
          · rw [hnohup]
            exact hunder
      | true =>
          obtain ⟨-, -, -, read', g'', events', hread', hreads, hrun', hcomplete⟩ := h.ended hasync
          obtain rfl : read = read' := Option.some.inj (hread.symm.trans hread')
          cases hrun.symm.trans hrun'
          rw [hcomplete] at hcomplete'
          have hprogram := readProgram_background (readsTo_logs hlogs) (run_logTokens s) hreads
            hbehind hcomplete' (jobs_echoPid hrun hcomplete hjobs.symm)
          refine ⟨given, ⟨s.logTokens ++ given.tokens, true⟩, _, hgiven, ?_, ?_, ?_⟩
          · rw [script, hnohup, hasync]
            exact hprogram
          · rw [hasync]
            rfl
          · rw [hnohup]
            exact hunder

end

/-! ## A builder whose text runs the command is careful -/

section

variable {s : LinuxCommandBuilder} {first second read : List Shell.Token} {logs : SimpleCommand}

/-- A target that is not longer than its word is the word. -/
theorem plainPath_of_run {number : Option Text} {o : RedirectionOperator} {w path : Text}
    (hrun : run Reader.step { base := { core := .redirection number .great } } (path ++ [blank]) =
      some ({}, [.redirection number o, .word w]))
    (hvalue : literal w = some path) : w = path ∧ PlainPath path := by
  have hweight := weight_run_reader hrun
  have hlength : w.length ≤ path.length := by
    simpa [Shell.Token.weight, Reader.size, Core.size] using hweight
  obtain ⟨rfl, hnone, htilde⟩ := eq_of_length_le hvalue hlength
  have hplain := plainWord_of_token (.of_ne (by simp)) hrun (by simp) hnone
  exact ⟨rfl, { toPlainWord := hplain, tilde := htilde }⟩

/-- Two redirections that begin where their texts do. -/
theorem redirections_of_append {number number' : Option Text} {o o' : RedirectionOperator}
    {left right : List Shell.Token} {output error : Redirection}
    (h : (.redirection number o :: left) ++ (.redirection number' o' :: right) =
      [.redirection output.number output.operator, .word output.target,
        .redirection error.number error.operator, .word error.target]) :
    (number = output.number ∧ o = output.operator ∧ left = [.word output.target]) ∧
      number' = error.number ∧ o' = error.operator ∧ right = [.word error.target] := by
  obtain _ | ⟨token, _ | ⟨next, left⟩⟩ := left
  · simp at h
  · simp only [List.cons_append, List.nil_append, List.cons.injEq,
      Shell.Token.redirection.injEq] at h
    obtain ⟨⟨rfl, rfl⟩, rfl, ⟨rfl, rfl⟩, rfl⟩ := h
    exact ⟨⟨rfl, rfl, rfl⟩, rfl, rfl, rfl⟩
  · -- the second redirection would stand behind the first target and a token more
    rcases left with _ | ⟨last, left⟩ <;> simp at h

theorem plain_of_opensLogs (h : s.OpensLogs first second logs) :
    (s.rooted && s.asynchronous) = false ∧ PlainPath s.stdoutLogPath ∧
      PlainPath s.stderrLogPath ∧ first = s.stdoutTokens ∧ second = s.stderrTokens := by
  have hfirst := h.stdout_read
  rw [ReadsTo, run_throughStdout] at hfirst
  obtain ⟨⟨r, output'⟩, houtput, heq⟩ := Option.map_eq_some_iff.mp hfirst
  obtain ⟨rfl, rfl⟩ := Prod.mk.inj heq
  have hsecond := h.stderr_read
  rw [ReadsTo, run_throughStderr] at hsecond
  obtain ⟨o, left, rfl⟩ := run_redirection rfl rfl houtput
  obtain ⟨o', right, rfl⟩ := run_redirection rfl rfl hsecond
  obtain ⟨input, output, error, hredirections, hout, herr⟩ := h.redirections
  -- behind its first word the command is nothing but the three redirections
  have hsimple := simpleFrom_of_simple h.simple
  have hword : isAssignment nohupWord = false := rfl
  rw [nohupTokens, List.cons_append, List.cons_append, simpleFrom_word (by simp [hword]),
    Option.map_eq_some_iff] at hsimple
  obtain ⟨d, hd, rfl⟩ := hsimple
  have hwords : d.words = [] := (List.cons.inj h.words).2
  have htokens := tokens_of_redirections hd (assignments_of_named hd) hwords
  have hthree : d.redirections = [input, output, error] := hredirections
  rw [hthree] at htokens
  have htwo := (List.cons.inj (List.cons.inj htokens).2).2
  obtain ⟨⟨hnumber, rfl, rfl⟩, -, rfl, rfl⟩ := redirections_of_append htwo
  obtain ⟨hone, hgreat, hvalue⟩ := hout
  obtain ⟨htwo, hgreat', hvalue'⟩ := herr
  obtain ⟨htarget, hplain⟩ := plainPath_of_run houtput hvalue
  obtain ⟨htarget', hplain'⟩ := plainPath_of_run hsecond hvalue'
  rw [hone, stdoutDescriptor, Option.some.injEq] at hnumber
  have hfalse : (s.rooted && s.asynchronous) = false := by
    rw [← Bool.not_eq_true]
    intro htrue
    rw [if_pos htrue] at hnumber
    exact absurd hnumber (by decide)
  refine ⟨hfalse, hplain, hplain', ?_, ?_⟩
  · rw [stdoutTokens, stdoutDescriptor, hfalse, hgreat, htarget]
    rfl
  · rw [stderrTokens, hgreat', htarget']

end

section

variable {s : LinuxCommandBuilder} {lead read more : List Shell.Token} {command : Text}
  {given job : Job}
  {g h : Grammar} {events : List Event} {texts : List Text}

/-- It is neither a line of its own nor continued. -/
theorem kind_of_behindCommand :
    ∀ c ∈ behindCommand, kind c ≠ .newline ∧ kind c ≠ .backslash := by
  have hall : behindCommand.all
      (fun c => decide (kind c ≠ .newline ∧ kind c ≠ .backslash)) = true := by decide
  exact fun c hc => of_decide_eq_true (List.all_eq_true.mp hall c hc)

/-- What is behind the command is read behind it, or as a part of a comment. -/
theorem tokens_behindCommand {p : Program} (hread : tokens command = some read)
    (hparse : parse read = some p) (hmore : tokens (command ++ behindCommand) = some more) :
    more = read ∨
      ReadsTo (command ++ [blank]) read ∧ more = read ++ .operator .amp :: echoPid.tokens := by
  rw [tokens, tokensFrom, Option.bind_eq_some_iff] at hread
  obtain ⟨⟨r, out⟩, hrun, hfinish⟩ := hread
  obtain ⟨fin, hfin, rfl⟩ := Option.map_eq_some_iff.mp hfinish
  rw [tokens, tokensFrom_append hrun] at hmore
  rcases step_blank hfin with hstep | hcomment | ⟨body, line, hhere⟩ | ⟨number, o, hredirection⟩
  · have hreads : ReadsTo (command ++ [blank]) (out ++ fin) := by
      rw [ReadsTo, run_append_of hrun, run_singleton, hstep]
      rfl
    have hblank : run Reader.step r [blank] = some ({}, fin) := (run_singleton _ _ _).trans hstep
    have htail : tokensFrom r behindCommand = some (fin ++ .operator .amp :: echoPid.tokens) :=
      (tokensFrom_append hblank).trans (congrArg _ tokens_echoPid)
    rw [htail] at hmore
    cases hmore
    exact .inr ⟨hreads, by rw [List.append_assoc]⟩
  · rw [tokensFrom_comment hcomment hfin fun c hc => (kind_of_behindCommand c hc).1] at hmore
    cases hmore
    exact .inl rfl
  · rw [behindCommand, tokensFrom_here hhere hfin (by decide) kind_of_behindCommand] at hmore
    cases hmore
  · -- the command would end in a redirection
    obtain ⟨-, hbase⟩ := finish_inv hfin
    rw [Script.finish, hredirection] at hbase
    have hlast : fin = [.redirection number o] := by
      split at hbase <;> simp_all
    rw [hlast, parse_redirection] at hparse
    cases hparse

/-- The second job is there only if the first one can end where the command does. -/
theorem complete_of_echoPid (hlead : run Grammar.step {} lead = some (g, lead.map Event.part))
    (hrun : run Grammar.step g read = some (h, events)) (haccepts : h.accepts = true)
    (hjobs : jobs events = [given])
    (hmore : more = read ∨
      ReadsTo (command ++ [blank]) read ∧ more = read ++ .operator .amp :: echoPid.tokens)
    (hparse : parse (lead ++ more) = some { jobs := [job, echoPid], heres := texts }) :
    ReadsTo (command ++ [blank]) read ∧ h.complete = true := by
  obtain ⟨last, all, hall, -, hp⟩ := parse_inv hparse
  have hread := run_append_some hlead hrun
  rcases hmore with rfl | ⟨hreads, rfl⟩
  · cases hread.symm.trans hall
    rw [jobs_parts_append hjobs] at hp
    cases (Program.mk.inj hp).1
  · refine ⟨hreads, ?_⟩
    rw [← List.append_assoc] at hall
    obtain ⟨mid, first, behind, hfirst, hbehind, -⟩ := run_append_inv hall
    cases hread.symm.trans hfirst
    obtain ⟨next, ended, others, hstep, -, -⟩ := run_cons_inv hbehind
    by_contra hcomplete
    rw [Bool.not_eq_true] at hcomplete
    rcases Grammar.eq_of_accepts haccepts hcomplete with rfl | rfl <;> cases hstep

theorem assignments_of_logs {rest : List Shell.Token} {c : SimpleCommand}
    (h : simple (s.logTokens ++ rest) = some c) : c.assignments = [] := by
  have hword : isAssignment nohupWord = false := rfl
  have hsimple := simpleFrom_of_simple h
  rw [logTokens, stdoutTokens, nohupTokens] at hsimple
  simp only [List.cons_append] at hsimple
  rw [simpleFrom_word (by simp [hword]), Option.map_eq_some_iff] at hsimple
  obtain ⟨d, hd, rfl⟩ := hsimple
  have hassignments := assignments_of_named hd
  exact hassignments

theorem openJob_of_runs (hnohup : s.nohup = false) (hasync : s.asynchronous = true)
    (h : s.RunsCommand s.script) : OneOpenJob s.command := by
  obtain ⟨given, job, texts, hgiven, htext, -, -⟩ := h
  obtain ⟨read, hread, hparse⟩ := readProgram_inv hgiven
  rw [script, hnohup, hasync] at htext
  obtain ⟨more, hmore, hparse'⟩ := readProgram_inv htext
  obtain ⟨g, events, hrun, haccepts, hp⟩ := parse_inv hparse
  obtain ⟨hreads, hcomplete⟩ := @complete_of_echoPid [] read more _ _ _ _ _ _ _ rfl hrun haccepts
    (Program.mk.inj hp).1.symm (tokens_behindCommand hread hparse hmore) hparse'
  exact ⟨given, texts, hgiven, read, g, events, hread, hreads, hrun, hcomplete⟩

theorem careful_of_runs (hnohup : s.nohup = true) (h : s.RunsCommand s.script) :
    (s.rooted && s.asynchronous) = false ∧
      (PlainPath s.stdoutLogPath ∧ PlainPath s.stderrLogPath) ∧ OneSimpleCommand s.command ∧
        (s.asynchronous = true → OneOpenJob s.command) := by
  obtain ⟨given, job, texts, hgiven, htext, -, hunder⟩ := h
  rw [hnohup, if_pos rfl] at hunder
  obtain ⟨first, second, logs, c, hlogs, hsimple, hwords, hjob, hall⟩ := hunder
  obtain ⟨hnumber, hstdout, hstderr, rfl, rfl⟩ := plain_of_opensLogs hlogs
  have hassignments : c.assignments = [] := by
    rw [hjob] at hall
    have hnone := @assignments_of_logs s given.tokens _ hall
    exact hnone
  obtain ⟨read, hread, hparse⟩ := readProgram_inv hgiven
  obtain ⟨g, events, hrun, haccepts, hp⟩ := parse_inv hparse
  have hjobs := (Program.mk.inj hp).1.symm
  have hfront := readsTo_append hlogs.stdout_read hlogs.stderr_read
  rw [script, hnohup, if_pos rfl, List.append_assoc] at htext
  obtain ⟨all, htokens, hparse'⟩ := readProgram_inv htext
  rw [tokens_append hfront] at htokens
  obtain ⟨more, hmore, rfl⟩ := Option.map_eq_some_iff.mp htokens
  have htail : ∃ tail, more = read ++ tail := by
    cases hasync : s.asynchronous with
    | false =>
        rw [hasync] at hmore
        simp only [Bool.false_eq_true, if_false, List.append_nil] at hmore
        exact ⟨[], by rw [List.append_nil, Option.some.inj (hread.symm.trans hmore)]⟩
    | true =>
        rw [hasync] at hmore
        rcases tokens_behindCommand hread hparse hmore with rfl | ⟨-, rfl⟩
        · exact ⟨[], (List.append_nil _).symm⟩
        · exact ⟨_, rfl⟩
  have hhead : read.head? ≠ some (.operator .newline) := by
    intro hnewline
    obtain ⟨rest, rfl⟩ := List.head?_eq_some_iff.mp hnewline
    obtain ⟨tail, rfl⟩ := htail
    have hended := tokens_of_newline (run_logTokens s) rfl hparse'
    rw [hjob, logTokens] at hended
    rw [List.append_right_eq_self.mp hended] at hsimple
    cases hsimple
    exact hwords rfl
  refine ⟨hnumber, ⟨hstdout, hstderr⟩,
    ⟨read, given, texts, c, hread, hparse, hhead, hsimple, hwords, hassignments⟩, fun hasync => ?_⟩
  obtain ⟨g', hbehind, haccepts', hcomplete'⟩ :=
    run_behind_logs hrun haccepts hjobs hhead hsimple hwords hassignments
  rw [hasync] at hmore hparse'
  obtain ⟨hreads, hcomplete⟩ := complete_of_echoPid (run_logTokens s) hbehind haccepts' hjobs
    (tokens_behindCommand hread hparse hmore) hparse'
  rw [hcomplete'] at hcomplete
  exact ⟨given, texts, hgiven, read, g, events, hread, hreads, hrun, hcomplete⟩

end

/-! ## Main results -/

theorem not_mem_of_plainPath {path : Text} (h : PlainPath path) : singleQuote ∉ path := by
  intro hmem
  cases h.inWord singleQuote hmem

theorem not_mem_script {s : LinuxCommandBuilder} (hcommand : singleQuote ∉ s.command)
    (hlogs : s.nohup = true → PlainPath s.stdoutLogPath ∧ PlainPath s.stderrLogPath) :
    singleQuote ∉ s.script := by
  have hfront : singleQuote ∉ if s.nohup then s.throughStdout ++ s.throughStderr else [] := by
    cases hnohup : s.nohup with
    | false => simp
    | true =>
        obtain ⟨hstdout, hstderr⟩ := hlogs hnohup
        rw [if_pos rfl, throughStdout_eq, throughStderr]
        simp only [List.mem_append, not_or]
        refine ⟨⟨⟨by decide, ?_⟩, not_mem_of_plainPath hstdout, by decide⟩,
          ⟨by decide, not_mem_of_plainPath hstderr⟩, by decide⟩
        split <;> decide
  have hbehind : singleQuote ∉ if s.asynchronous then behindCommand else [] := by
    split <;> decide
  simp only [script, List.mem_append, not_or]
  exact ⟨⟨hfront, hcommand⟩, hbehind⟩

theorem not_mem_command {s : LinuxCommandBuilder} (h : singleQuote ∉ s.script) :
    singleQuote ∉ s.command := by
  intro hmem
  exact h (List.mem_append_left _ (List.mem_append_right _ hmem))

end LinuxCommandBuilder

end ArtPlatform.Linux
