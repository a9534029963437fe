import ArtPlatform.Foundation.Regex

/-!
# The patterns of the web client

The patterns with which fields and validators check texts, and what a text is that matches.

Main results:

- Theorem `entityNameRegex_iff`, `configFileNameRegex_iff`: names are made of their characters.
- Theorem `urlRegex_iff`: the address begins anywhere in the text, with its scheme, and goes on
  to the end without whitespace.
- Theorem `portRegex_iff`: the alternatives of the port pattern, as lists of characters.
-/

namespace ArtPlatform.Web

open Regex

/-- A text, in UTF-16 units. -/
abbrev Text := List UInt16

def unit (c : Char) : UInt16 :=
  c.toNat.toUInt16

def units (chars : List Char) : Text :=
  chars.map unit

/-- A range in a character class. -/
def range (first last : Char) (c : UInt16) : Bool :=
  first.toNat ≤ c.toNat && c.toNat ≤ last.toNat

def digit : UInt16 → Bool :=
  range '0' '9'

/-- `\w` -/
def wordChar (c : UInt16) : Bool :=
  range 'a' 'z' c || range 'A' 'Z' c || digit c || c = unit '_'

/-- `\s` -/
def whitespace (c : UInt16) : Bool :=
  let n := c.toNat
  (9 ≤ n && n ≤ 13) || n = 0x20 || n = 0xA0 || n = 0x1680 || (0x2000 ≤ n && n ≤ 0x200A) ||
    n = 0x2028 || n = 0x2029 || n = 0x202F || n = 0x205F || n = 0x3000 || n = 0xFEFF

/-- `^[0-9a-z-.]{3,}$` -/
def entityNameChar (c : UInt16) : Bool :=
  digit c || range 'a' 'z' c || c = unit '-' || c = unit '.'

def entityNameRegex : Pattern UInt16 where
  regex := atLeast (chars entityNameChar) 3

def urlSchemes : List Text :=
  [units ['f', 't', 'p'], units ['h', 't', 't', 'p'], units ['h', 't', 't', 'p', 's']]

/-- `[\w#!:.?+=&%@\-\/]` -/
def urlPathChar (c : UInt16) : Bool :=
  wordChar c || c ∈ units ['#', '!', ':', '.', '?', '+', '=', '&', '%', '@', '-', '/']

/-- `\w+:?\w*@` -/
def urlUser : Regex UInt16 :=
  seq (plus (chars wordChar)) (seq (opt (char (unit ':')))
    (seq (star (chars wordChar)) (char (unit '@'))))

/-- `(\w+:?\w*@)?(\S+)(:[0-9]+)?(\/|\/([\w#!:.?+=&%@\-\/]))?` -/
def urlAddress : Regex UInt16 :=
  seq (opt urlUser) (seq (plus (chars fun c => !whitespace c))
    (seq (opt (seq (char (unit ':')) (plus (chars digit))))
      (opt (alt (char (unit '/')) (seq (char (unit '/')) (chars urlPathChar))))))

/-- `(ftp|http|https):\/\/` and the address, up to the end. -/
def urlRegex : Pattern UInt16 where
  fromStart := false
  regex := seq (oneOf (urlSchemes.map word)) (seq (word (units [':', '/', '/'])) urlAddress)

/-- `^[\w-]+\.(...)$` with the formats between bars. -/
def configFileNameRegex (formats : List Text) : Pattern UInt16 where
  regex := seq (plus (chars fun c => wordChar c || c = unit '-'))
    (seq (char (unit '.')) (oneOf (formats.map word)))

/-- `^([1-9]|[1-5]?[0-9]{2,4}|6[1-4][0-9]{3}|65[1-4][0-9]{2}|655[1-2][0-9]|6553[1-5])$` -/
def portRegex : Pattern UInt16 where
  regex := oneOf [
    chars (range '1' '9'),
    seq (opt (chars (range '1' '5'))) (timesTo (chars digit) 2 2),
    seq (char (unit '6')) (seq (chars (range '1' '4')) (times (chars digit) 3)),
    seq (char (unit '6')) (seq (char (unit '5'))
      (seq (chars (range '1' '4')) (times (chars digit) 2))),
    seq (char (unit '6')) (seq (char (unit '5')) (seq (char (unit '5'))
      (seq (chars (range '1' '2')) (chars digit)))),
    seq (char (unit '6')) (seq (char (unit '5')) (seq (char (unit '5'))
      (seq (char (unit '3')) (chars (range '1' '5')))))]

/-! ## Users -/

/-- `^[0-9a-zA-Z-._@]{3,}$` -/
def userNameRegex : Pattern UInt16 where
  regex := atLeast (chars fun c => digit c || range 'a' 'z' c || range 'A' 'Z' c ||
    c ∈ units ['-', '.', '_', '@']) 3

/-- `^[^ ]{3,}$` -/
def passwordRegex : Pattern UInt16 where
  regex := atLeast (chars fun c => c ≠ unit ' ') 3

/-- `.`, which is no end of a line. -/
def anyChar (c : UInt16) : Bool :=
  c ∉ ([0x000A, 0x000D, 0x2028, 0x2029] : List UInt16)

/-- `^.{3,}$` -/
def fullNameRegex : Pattern UInt16 where
  regex := atLeast (chars anyChar) 3

def letter (c : UInt16) : Bool :=
  range 'a' 'z' c || range 'A' 'Z' c

/-- `[^<>()\[\]\\.,;:\s@"]` -/
def mailboxChar (c : UInt16) : Bool :=
  c ∉ 0x22 :: 0x5C :: units ['<', '>', '(', ')', '[', ']', '.', ',', ';', ':', '@'] &&
    !whitespace c

/-- `([^<>()\[\]\\.,;:\s@"]+(\.[^<>()\[\]\\.,;:\s@"]+)*)|(".+")` -/
def mailbox : Regex UInt16 :=
  alt
    (seq (plus (chars mailboxChar)) (star (seq (char (unit '.')) (plus (chars mailboxChar)))))
    (seq (char 0x22) (seq (plus (chars anyChar)) (char 0x22)))

/-- `[0-9]{1,3}` -/
def octet : Regex UInt16 :=
  timesTo (chars digit) 1 2

/-- `(\[[0-9]{1,3}\.[0-9]{1,3}\.[0-9]{1,3}\.[0-9]{1,3}])|(([a-zA-Z\-0-9]+\.)+[a-zA-Z]{2,})` -/
def mailHost : Regex UInt16 :=
  let dot := char (unit '.')
  alt
    (seq (char (unit '[')) (seq octet (seq dot (seq octet (seq dot (seq octet (seq dot
      (seq octet (char (unit ']'))))))))))
    (seq (plus (seq (plus (chars fun c => letter c || c = unit '-' || digit c)) dot))
      (atLeast (chars letter) 2))

/-- The mailbox, `@` and the host. -/
def emailRegex : Pattern UInt16 where
  regex := seq mailbox (seq (char (unit '@')) mailHost)

/-! ## Hosts and repositories -/

def letterOrDigit (c : UInt16) : Bool :=
  letter c || digit c

/-- `[a-zA-Z0-9]|[a-zA-Z0-9][a-zA-Z0-9\-]*[a-zA-Z0-9]`, with other first characters. -/
def hostLabel (first : UInt16 → Bool) : Regex UInt16 :=
  alt (chars first) (seq (chars first)
    (seq (star (chars fun c => letterOrDigit c || c = unit '-')) (chars letterOrDigit)))

/-- `^(label\.)*(label)$` -/
def hostNameRegex : Pattern UInt16 where
  regex := seq (star (seq (hostLabel letterOrDigit) (char (unit '.')))) (hostLabel letterOrDigit)

/-- `25[0-5]|2[0-4][0-9]|[01]?[0-9][0-9]?` -/
def addressByte : Regex UInt16 :=
  oneOf [
    seq (char (unit '2')) (seq (char (unit '5')) (chars (range '0' '5'))),
    seq (char (unit '2')) (seq (chars (range '0' '4')) (chars digit)),
    seq (opt (chars (range '0' '1'))) (seq (chars digit) (opt (chars digit)))]

/-- `^(?:(?:byte)\.){3}(?:byte)$|^((label)\.)+(label)$`, the last label without a digit
first. -/
def hostNameAndIpRegex : Pattern UInt16 where
  regex := alt
    (seq (times (seq addressByte (char (unit '.'))) 3) addressByte)
    (seq (plus (seq (hostLabel letterOrDigit) (char (unit '.')))) (hostLabel letter))

def webSchemes : List Text :=
  [units ['h', 't', 't', 'p', ':', '/', '/', 'w', 'w', 'w', '.'],
    units ['h', 't', 't', 'p', 's', ':', '/', '/', 'w', 'w', 'w', '.'],
    units ['h', 't', 't', 'p', ':', '/', '/'],
    units ['h', 't', 't', 'p', 's', ':', '/', '/']]

/-- `[a-z0-9]+([\-.][a-z0-9]+)*\.[a-z]{2,5}(:[0-9]{1,5})?(\/.*)?` behind one of the schemes, or
behind none. -/
def urlWithoutSchemeRegex : Pattern UInt16 where
  regex :=
    let name := plus (chars fun c => range 'a' 'z' c || digit c)
    seq (opt (oneOf (webSchemes.map word)))
      (seq name (seq (star (seq (chars fun c => c = unit '-' || c = unit '.') name))
        (seq (char (unit '.')) (seq (timesTo (chars (range 'a' 'z')) 2 3)
          (seq (opt (seq (char (unit ':')) (timesTo (chars digit) 1 4)))
            (opt (seq (char (unit '/')) (star (chars anyChar)))))))))

/-- `(git|ssh|http(s)?)|(git@[\w.]+)` -/
def gitScheme : Regex UInt16 :=
  alt
    (oneOf [word (units ['g', 'i', 't']), word (units ['s', 's', 'h']),
      seq (word (units ['h', 't', 't', 'p'])) (opt (char (unit 's')))])
    (seq (word (units ['g', 'i', 't', '@'])) (plus (chars fun c => wordChar c || c = unit '.')))

/-- The scheme and `(:(\/\/)?)([\w.@:/\-~]+)(\.git)(\/)?`, anywhere in the text. -/
def gitUrlRegex : Pattern UInt16 where
  fromStart := false
  toEnd := false
  regex := seq gitScheme (seq (char (unit ':')) (seq (opt (word (units ['/', '/'])))
    (seq (plus (chars fun c => wordChar c || c ∈ units ['.', '@', ':', '/', '-', '~']))
      (seq (word (units ['.', 'g', 'i', 't'])) (opt (char (unit '/')))))))

variable {text : Text}

theorem entityNameRegex_iff : entityNameRegex.test text = true ↔
    3 ≤ text.length ∧ ∀ c ∈ text, entityNameChar c = true := by
  rw [Pattern.test_iff_of_anchored rfl rfl]
  exact mem_atLeast_chars

theorem mem_words {words : List Text} :
    text ∈ (oneOf (words.map word)).language ↔ text ∈ words := by
  rw [mem_oneOf]
  simp [mem_word]

theorem configFileNameRegex_iff {formats : List Text} :
    (configFileNameRegex formats).test text = true ↔
      ∃ name format, text = name ++ unit '.' :: format ∧ name ≠ [] ∧
        (∀ c ∈ name, (wordChar c || c = unit '-') = true) ∧ format ∈ formats := by
  rw [Pattern.test_iff_of_anchored rfl rfl, configFileNameRegex, mem_seq]
  constructor
  · rintro ⟨name, hname, rest, hrest, rfl⟩
    rw [mem_plus_chars] at hname
    obtain ⟨format, rfl, hformat⟩ := mem_seq_char.mp hrest
    exact ⟨name, format, rfl, hname.1, hname.2, mem_words.mp hformat⟩
  · rintro ⟨name, format, rfl, hne, hname, hformat⟩
    exact ⟨name, mem_plus_chars.mpr ⟨hne, hname⟩, _,
      mem_seq_char.mpr ⟨format, rfl, mem_words.mpr hformat⟩, rfl⟩

/-! ## Addresses -/

/-- An address: a scheme, `://` and something without whitespace. -/
def IsUrl (text : Text) : Prop :=
  ∃ scheme ∈ urlSchemes, ∃ rest, text = scheme ++ (units [':', '/', '/'] ++ rest) ∧ rest ≠ [] ∧
    ∀ c ∈ rest, whitespace c = false

theorem whitespace_of_wordChar {c : UInt16} (h : wordChar c = true) : whitespace c = false := by
  have hunderscore : c = unit '_' → c.toNat = 95 := fun hc => by rw [hc]; rfl
  simp only [wordChar, digit, range, Bool.or_eq_true, Bool.and_eq_true, decide_eq_true_eq,
    Char.reduceToNat] at h
  have hnumber := h.imp_right hunderscore
  simp only [whitespace, Bool.or_eq_false_iff, Bool.and_eq_false_iff, decide_eq_false_iff_not]
  omega

theorem whitespace_of_urlPathChar {c : UInt16} (h : urlPathChar c = true) :
    whitespace c = false := by
  rw [urlPathChar, Bool.or_eq_true] at h
  rcases h with hword | hsign
  · exact whitespace_of_wordChar hword
  · have hsigns : (units ['#', '!', ':', '.', '?', '+', '=', '&', '%', '@', '-', '/']).all
        (fun c => !whitespace c) = true := by decide
    simpa using List.all_eq_true.mp hsigns c (by simpa using hsign)

/-- `(\w+:?\w*@)?(\S+)(:[0-9]+)?(\/|\/([\w#!:.?+=&%@\-\/]))?` is no more than `\S+`. -/
theorem mem_urlAddress_iff : text ∈ urlAddress.language ↔
    text ≠ [] ∧ ∀ c ∈ text, whitespace c = false := by
  have hunit (sign : Char) (hsign : whitespace (unit sign) = false) :
      (char (unit sign)).CharsWithin fun c => whitespace c = false := by
    intro c hc
    obtain rfl : c = unit sign := by simpa using hc
    exact hsign
  have hword : (chars wordChar).CharsWithin fun c => whitespace c = false :=
    fun c => whitespace_of_wordChar
  have hdigit : (chars digit).CharsWithin fun c => whitespace c = false :=
    fun c hc => whitespace_of_wordChar (by simp [wordChar, hc])
  have hclasses : urlAddress.CharsWithin fun c => whitespace c = false :=
    ⟨⟨⟨⟨hword, hword⟩, ⟨hunit ':' (by decide), trivial⟩, hword, hunit '@' (by decide)⟩, trivial⟩,
      ⟨by simp [CharsWithin], by simp [CharsWithin]⟩,
      ⟨⟨hunit ':' (by decide), hdigit, hdigit⟩, trivial⟩,
      ⟨hunit '/' (by decide), hunit '/' (by decide), fun c => whitespace_of_urlPathChar⟩, trivial⟩
  constructor
  · intro h
    refine ⟨?_, hclasses.of_mem h⟩
    rintro rfl
    obtain ⟨user, -, _, ⟨host, hhost, rest, -, rfl⟩, hnil⟩ := h
    obtain ⟨-, hnil'⟩ := List.append_eq_nil_iff.mp hnil
    exact (mem_plus_chars.mp hhost).1 (List.append_eq_nil_iff.mp hnil').1
  · rintro ⟨hne, hall⟩
    refine mem_seq_opt.mpr (Or.inl ⟨text, mem_plus_chars.mpr ⟨hne, by simpa using hall⟩, [], ?_,
      List.append_nil text⟩)
    exact mem_seq_opt.mpr (Or.inl (Or.inr rfl))

theorem mem_urlRegex_iff : text ∈ urlRegex.regex.language ↔ IsUrl text := by
  constructor
  · rintro ⟨scheme, hscheme, _, ⟨separator, hseparator, rest, hrest, rfl⟩, rfl⟩
    obtain rfl := mem_word.mp hseparator
    obtain ⟨hne, hall⟩ := mem_urlAddress_iff.mp hrest
    exact ⟨scheme, mem_words.mp hscheme, rest, rfl, hne, hall⟩
  · rintro ⟨scheme, hscheme, rest, rfl, hne, hall⟩
    exact ⟨scheme, mem_words.mpr hscheme, _, ⟨_, mem_word.mpr rfl, rest,
      mem_urlAddress_iff.mpr ⟨hne, hall⟩, rfl⟩, rfl⟩

theorem urlRegex_iff : urlRegex.test text = true ↔
    ∃ before url, text = before ++ url ∧ IsUrl url := by
  rw [Pattern.test_iff]
  constructor
  · rintro ⟨before, url, behind, rfl, hurl, -, hbehind⟩
    obtain rfl := hbehind rfl
    exact ⟨before, url, List.append_nil _, mem_urlRegex_iff.mp hurl⟩
  · rintro ⟨before, url, rfl, hurl⟩
    exact ⟨before, url, [], (List.append_nil _).symm, mem_urlRegex_iff.mpr hurl, nofun,
      fun _ => rfl⟩

/-! ## Ports -/

theorem portRegex_iff : portRegex.test text = true ↔
    (∃ a, text = [a] ∧ range '1' '9' a = true) ∨
    ((2 ≤ text.length ∧ text.length ≤ 4) ∧ ∀ c ∈ text, digit c = true) ∨
    (∃ a rest, text = a :: rest ∧ range '1' '5' a = true ∧
      (2 ≤ rest.length ∧ rest.length ≤ 4) ∧ ∀ c ∈ rest, digit c = true) ∨
    (∃ b rest, text = unit '6' :: b :: rest ∧ range '1' '4' b = true ∧
      rest.length = 3 ∧ ∀ c ∈ rest, digit c = true) ∨
    (∃ c rest, text = unit '6' :: unit '5' :: c :: rest ∧ range '1' '4' c = true ∧
      rest.length = 2 ∧ ∀ d ∈ rest, digit d = true) ∨
    (∃ d e, text = [unit '6', unit '5', unit '5', d, e] ∧ range '1' '2' d = true ∧
      digit e = true) ∨
    ∃ e, text = [unit '6', unit '5', unit '5', unit '3', e] ∧ range '1' '5' e = true := by
  rw [Pattern.test_iff_of_anchored rfl rfl]
  simp only [portRegex, mem_oneOf, List.mem_cons, List.not_mem_nil, or_false, exists_eq_or_imp,
    exists_eq_left, mem_seq_opt, mem_seq_char, mem_seq_chars, mem_chars, mem_times_chars,
    mem_timesTo_chars, or_assoc]
  refine or_congr ?_ (or_congr Iff.rfl (or_congr Iff.rfl (or_congr ?_ (or_congr ?_
    (or_congr ?_ ?_)))))
  · simp only [and_comm]
  · constructor
    · rintro ⟨_, rfl, b, rest, rfl, h⟩
      exact ⟨b, rest, rfl, h⟩
    · rintro ⟨b, rest, rfl, h⟩
      exact ⟨_, rfl, b, rest, rfl, h⟩
  · constructor
    · rintro ⟨_, rfl, _, rfl, c, rest, rfl, h⟩
      exact ⟨c, rest, rfl, h⟩
    · rintro ⟨c, rest, rfl, h⟩
      exact ⟨_, rfl, _, rfl, c, rest, rfl, h⟩
  · constructor
    · rintro ⟨_, rfl, _, rfl, _, rfl, d, _, rfl, hd, e, he, rfl⟩
      exact ⟨d, e, rfl, hd, he⟩
    · rintro ⟨d, e, rfl, hd, he⟩
      exact ⟨_, rfl, _, rfl, _, rfl, d, _, rfl, hd, e, he, rfl⟩
  · constructor
    · rintro ⟨_, rfl, _, rfl, _, rfl, _, rfl, e, he, rfl⟩
      exact ⟨e, rfl, he⟩
    · rintro ⟨e, rfl, he⟩
      exact ⟨_, rfl, _, rfl, _, rfl, _, rfl, e, he, rfl⟩

end ArtPlatform.Web
