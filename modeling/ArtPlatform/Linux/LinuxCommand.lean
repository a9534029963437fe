import ArtPlatform.Common.Names
import ArtPlatform.Foundation.Replacement

/-!
# The printed form of a command

A command is printed with its password masked: every occurrence of the password in the text is
replaced by as many wildcards as it is long.

Main results:

- Theorem `hidden_iff`: the password does not occur in the printed form if and only if it does
  not occur in a stretch of the command between two occurrences, with their masks; it never
  does, whatever the command, if and only if it neither begins nor ends with a wildcard.
- Theorem `masked_password_revealed`: a mask forms the password again with the text before it.
-/

namespace ArtPlatform.Linux

open Replacement

/-- A text, in UTF-16 units. -/
abbrev Text := List UInt16

def wildcard : UInt16 := 42

def isBlank (text : Text) : Bool :=
  text.all fun unit => isWhitespace (Char.ofNat unit.toNat)

def padEnd (text : Text) (length : Nat) (padChar : UInt16) : Text :=
  text ++ List.replicate (length - text.length) padChar

structure LinuxCommand where
  command : Text := []
  host : Text := []
  password : Text := []
  rooted : Bool := false
  nohup : Bool := false
  stdoutLogPath : Text := []
  stderrLogPath : Text := []
  asynchronous : Bool := false
deriving DecidableEq, Repr

namespace LinuxCommand

def mask (s : LinuxCommand) : Text :=
  padEnd [] s.password.length wildcard

def toString (s : LinuxCommand) : Text :=
  if isBlank s.password = false ∧ s.password <:+: s.command then
    replace s.password s.mask s.command
  else s.command

def Hidden (s : LinuxCommand) : Prop :=
  ¬ s.password <:+: s.toString

/-- The command between the occurrences of the password, with the masks next to it. -/
def maskedStretches (s : LinuxCommand) : List Text :=
  stretches s.mask [] (pieces s.password s.command)

end LinuxCommand

open LinuxCommand

section

variable {s : LinuxCommand}

theorem mask_eq (s : LinuxCommand) : s.mask = List.replicate s.password.length wildcard := by
  simp [mask, padEnd]

theorem password_ne_nil (h : isBlank s.password = false) : s.password ≠ [] := by
  intro hnil
  rw [hnil] at h
  exact absurd h (by decide)

/-- Only what is next to a mask can form the password again. -/
theorem hidden_iff_stretches (h : isBlank s.password = false) :
    s.Hidden ↔ ∀ stretch ∈ s.maskedStretches, ¬ s.password <:+: stretch := by
  by_cases hcontains : s.password <:+: s.command
  · have hlength : s.password.length ≤ s.mask.length := by simp [mask_eq]
    have hpieces := infix_intercalate_iff hlength [] (piecesFrom_ne_nil s.password 0 s.command)
    rw [Hidden, LinuxCommand.toString, if_pos ⟨h, hcontains⟩]
    change ¬ s.password <:+: [] ++ List.intercalate s.mask (piecesFrom s.password 0 s.command) ↔ _
    rw [hpieces]
    simp only [not_exists, not_and]
    rfl
  · rw [Hidden, LinuxCommand.toString, if_neg fun hboth => hcontains hboth.2, maskedStretches,
      pieces_of_not_infix hcontains]
    simp [stretches]

/-- A password that neither begins nor ends with a wildcard is not formed again. -/
theorem hidden_of_ends (h : isBlank s.password = false)
    (hhead : s.password.head? ≠ some wildcard) (hlast : s.password.getLast? ≠ some wildcard) :
    s.Hidden := by
  rw [hidden_iff_stretches h]
  intro stretch hstretch hinfix
  have hne := password_ne_nil h
  rw [maskedStretches, mask_eq] at hstretch
  obtain ⟨piece, hpiece, hinner⟩ :=
    @infix_of_mem_stretches _ _ wildcard hhead hlast hne s.password.length 0 _ _ hstretch hinfix
  exact not_infix_of_mem_pieces hne hpiece hinner

/-- A password that begins with a wildcard, with its rest once more behind it. -/
theorem revealed_of_head {rest : Text} (h : isBlank s.password = false)
    (hpassword : s.password = wildcard :: rest)
    (hcommand : s.command = s.password ++ rest) : ¬ s.Hidden := by
  have hne := password_ne_nil h
  have hrest : ¬ s.password <:+: rest := by
    intro hinfix
    have hlength := hinfix.length_le
    rw [hpassword, List.length_cons] at hlength
    omega
  rw [hidden_iff_stretches h, not_forall]
  refine ⟨s.mask ++ rest, fun hnot => hnot ?_ ?_⟩
  · rw [maskedStretches, hcommand, pieces_append_self hne, pieces_of_not_infix hrest]
    simp [stretches]
  · rw [mask_eq, hpassword, List.length_cons, List.replicate_succ', List.append_assoc]
    exact (List.suffix_append _ (wildcard :: rest)).isInfix

/-- A password that ends with a wildcard, with what is before it once more in front. -/
theorem revealed_of_getLast {rest : Text} (h : isBlank s.password = false)
    (hpassword : s.password = rest ++ [wildcard]) (hhead : s.password.head? ≠ some wildcard)
    (hcommand : s.command = rest ++ s.password) : ¬ s.Hidden := by
  have hne := password_ne_nil h
  -- an earlier occurrence would begin with the wildcard that ends it
  have hfirst : ∀ i < rest.length, ¬ s.password <+: (rest ++ (s.password ++ [])).drop i := by
    intro i hi hprefix
    have hat (j : Nat) (hj : j < s.password.length) :
        s.password[j]? = (rest ++ s.password)[i + j]? := by
      rw [List.append_nil] at hprefix
      rw [← List.getElem?_drop]
      obtain ⟨behind, hbehind⟩ := hprefix
      rw [← hbehind, List.getElem?_append_left hj]
    have hbegin := hat 0 (List.length_pos_iff.mpr hne)
    have hend := hat rest.length (by rw [hpassword]; simp)
    rw [Nat.add_zero, List.getElem?_append_left hi] at hbegin
    rw [List.getElem?_append_right (Nat.le_add_left _ _), Nat.add_sub_cancel, hpassword,
      List.getElem?_append_right (Nat.le_refl _), List.getElem?_append_left hi, ← hbegin] at hend
    rw [List.head?_eq_getElem?] at hhead
    exact hhead (by simpa using hend.symm)
  rw [hidden_iff_stretches h, not_forall]
  refine ⟨rest ++ s.mask, fun hnot => hnot ?_ ?_⟩
  · have hpieces := pieces_of_first hne rest [] hfirst
    rw [List.append_nil] at hpieces
    rw [maskedStretches, hcommand, hpieces, pieces_nil]
    simp [stretches]
  · rw [mask_eq, hpassword, List.length_append, List.length_singleton, List.replicate_succ,
      List.append_cons rest wildcard (List.replicate rest.length wildcard)]
    exact (List.prefix_append (rest ++ [wildcard]) _).isInfix

end

/-- The password does not occur in the printed form exactly if it does not occur in the command
between its occurrences with the masks next to it.  It is hidden in every command exactly if it
neither begins nor ends with a wildcard. -/
theorem hidden_iff (s : LinuxCommand) (h : isBlank s.password = false) :
    (s.Hidden ↔ ∀ stretch ∈ s.maskedStretches, ¬ s.password <:+: stretch) ∧
      ((∀ command, { s with command := command }.Hidden) ↔
        s.password.head? ≠ some wildcard ∧ s.password.getLast? ≠ some wildcard) := by
  refine ⟨hidden_iff_stretches h, fun hall => ?_, fun hends command => ?_⟩
  · have hhead : s.password.head? ≠ some wildcard := by
      intro hhead
      obtain ⟨rest, hpassword⟩ := List.head?_eq_some_iff.mp hhead
      exact @revealed_of_head { s with command := s.password ++ rest } rest h hpassword rfl
        (hall _)
    refine ⟨hhead, fun hlast => ?_⟩
    obtain ⟨rest, hpassword⟩ := List.getLast?_eq_some_iff.mp hlast
    exact @revealed_of_getLast { s with command := rest ++ s.password } rest h hpassword hhead rfl
      (hall _)
  · exact @hidden_of_ends { s with command := command } h hends.1 hends.2

/-- The password `a` in the command `ba`. -/
theorem hidden_iff_letter :
    isBlank [97] = false ∧
      ((({ command := [98, 97], password := [97] } : LinuxCommand).Hidden ↔
          ∀ stretch ∈ ({ command := [98, 97], password := [97] } : LinuxCommand).maskedStretches,
            ¬ [97] <:+: stretch) ∧
        ((∀ command, ({ command := command, password := [97] } : LinuxCommand).Hidden) ↔
          [97].head? ≠ some wildcard ∧ [97].getLast? ≠ some wildcard)) :=
  ⟨by decide, hidden_iff { command := [98, 97], password := [97] } (by decide)⟩

/-- The password `a*` in the command `aa*`, which is printed as `a**`. -/
theorem masked_password_revealed :
    ¬ ∀ s : LinuxCommand, isBlank s.password = false → s.Hidden := by
  intro hall
  have hprinted : LinuxCommand.toString { command := [97, 97, 42], password := [97, 42] } =
      [97, 42, 42] := by decide
  refine hall { command := [97, 97, 42], password := [97, 42] } (by decide) ?_
  rw [hprinted]
  decide

end ArtPlatform.Linux
