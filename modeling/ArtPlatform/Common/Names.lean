import Mathlib.Data.List.Basic

/-!
# Names and identifiers

`normalizeNameToId` turns the name of a project or a module into the identifier
that names its namespace or deployment: lower case, trimmed, and with a dash for
every space, slash and dot.

Strings are rewritten character by character.  Lower-casing is the JDK's and
depends on its locale, so it is a parameter.
-/

namespace ArtPlatform

/-- The characters that the Kotlin library trims. -/
def isWhitespace (c : Char) : Bool :=
  let n := c.toNat
  (9 ≤ n && n ≤ 13) || (28 ≤ n && n ≤ 32) || n = 0xA0 || n = 0x1680 ||
    (0x2000 ≤ n && n ≤ 0x200A) || n = 0x2028 || n = 0x2029 || n = 0x202F ||
    n = 0x205F || n = 0x3000

/-- Drop the whitespace at both ends. -/
def trim (s : String) : String :=
  String.ofList (s.toList.dropWhile isWhitespace |>.reverse.dropWhile isWhitespace |>.reverse)

/-- Replace every occurrence of a character. -/
def replaceChar (s : String) (old new : Char) : String :=
  String.ofList (s.toList.map fun c => if c = old then new else c)

def normalizeNameToId (toLowerCase : String → String) (name : String) : String :=
  replaceChar (replaceChar (replaceChar (trim (toLowerCase name)) ' ' '-') '/' '-') '.' '-'

/-- Lower-casing of a text of ASCII characters, the same in every locale that does
not special-case them. -/
def asciiLowerCase (s : String) : String :=
  String.ofList (s.toList.map Char.toLower)

/-- Different numbers have different decimals. -/
theorem toString_nat_inj {m n : Nat} : toString m = toString n ↔ m = n := by
  constructor
  · intro h
    have hdigits : Nat.toDigits 10 m = Nat.toDigits 10 n := by
      simpa using congrArg String.toList h
    rw [← @Nat.ofDigitChars_ten_toDigits m, hdigits, Nat.ofDigitChars_ten_toDigits]
  · rintro rfl
    rfl

end ArtPlatform
