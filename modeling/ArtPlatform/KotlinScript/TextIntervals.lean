import Mathlib.Tactic.Common

/-!
# Editor positions

The errors of a script are shown at intervals of lines and characters, which are computed from
the offsets of the text; a completion is asked for at a line and a character, from which its
offset is computed again.

Main results:

- Theorem `lineOf_lineStart`: a line's start is on this line.
- Theorem `getOffset_position`: an offset's line and distance from the line's start convert back
  to it.
- Theorem `interval_agrees_iff`: the interval of a range agrees with its offsets if and only if
  the range starts and ends on one line.
- Theorem `two_lines_disagree`: a range over two lines.
-/

namespace ArtPlatform.KotlinScript

/-- A document is its text, in the units of its encoding; lines end at line feeds. -/
structure Document where
  text : List UInt16
deriving DecidableEq, Repr

structure TextPosition where
  line : Nat
  ch : Int
deriving DecidableEq, Repr

structure TextInterval where
  start : TextPosition
  stop : TextPosition
deriving DecidableEq, Repr

namespace Document

def lineFeed : UInt16 := 10

/-- The lines that end before an offset. -/
def lineOf (text : List UInt16) (offset : Nat) : Nat :=
  (text.take offset).count lineFeed

def getLineNumber (document : Document) (offset : Nat) : Option Nat :=
  if offset ≤ document.text.length then some (lineOf document.text offset) else none

/-- A line starts behind the line feed of the line before it. -/
def lineStart : List UInt16 → Nat → Option Nat
  | _, 0 => some 0
  | [], _ + 1 => none
  | unit :: text, line + 1 =>
      (lineStart text (if unit = lineFeed then line else line + 1)).map (· + 1)

def getLineStartOffset (document : Document) (line : Nat) : Option Nat :=
  lineStart document.text line

end Document

open Document

/-- `KotlinScriptErrorsAnalyzer.getInterval` -/
def getInterval (start stop : Nat) (currentDocument : Document) : Option TextInterval := do
  let lineNumberForElementStart ← currentDocument.getLineNumber start
  let lineNumberForElementEnd ← currentDocument.getLineNumber stop
  let charNumberForElementStart : Int :=
    start - (← currentDocument.getLineStartOffset lineNumberForElementStart)
  -- the end is counted from the start of the line on which the range starts, too
  let charNumberForElementEnd : Int :=
    stop - (← currentDocument.getLineStartOffset lineNumberForElementStart)
  if start = stop ∧ lineNumberForElementStart = lineNumberForElementEnd then
    if charNumberForElementStart - 1 < 0 then
      return {
        start := { line := lineNumberForElementStart, ch := charNumberForElementStart - 1 + 1 }
        stop := { line := lineNumberForElementEnd, ch := charNumberForElementEnd + 1 } }
    else
      return {
        start := { line := lineNumberForElementStart, ch := charNumberForElementStart - 1 }
        stop := { line := lineNumberForElementEnd, ch := charNumberForElementEnd } }
  else
    return {
      start := { line := lineNumberForElementStart, ch := charNumberForElementStart }
      stop := { line := lineNumberForElementEnd, ch := charNumberForElementEnd } }

/-- `KotlinScriptCompletionProvider.getOffsetFromLineAndChar` -/
def getOffsetFromLineAndChar (document : Document) (line : Nat) (charNumber : Int) :
    Option Int :=
  (document.getLineStartOffset line).map fun (offset : Nat) => ↑offset + charNumber

namespace TextPosition

def offset (position : TextPosition) (document : Document) : Option Int :=
  getOffsetFromLineAndChar document position.line position.ch

/-- The position's offset is one of the document and on the position's line. -/
def Inside (position : TextPosition) (document : Document) : Prop :=
  ∃ offset : Nat, position.offset document = some ↑offset ∧
    document.getLineNumber offset = some position.line

end TextPosition

namespace TextInterval

/-- The interval's positions are inside the document and convert back to the range. -/
structure ConvertsTo (interval : TextInterval) (document : Document) (start stop : Nat) :
    Prop where
  start_inside : interval.start.Inside document
  stop_inside : interval.stop.Inside document
  start_offset : interval.start.offset document = some ↑start
  stop_offset : interval.stop.offset document = some ↑stop

/-- The interval is not empty, is on one line and has the offset in it. -/
structure Surrounds (interval : TextInterval) (document : Document) (offset : Nat) : Prop where
  one_line : interval.start.line = interval.stop.line
  nonempty : 0 ≤ interval.start.ch ∧ interval.start.ch < interval.stop.ch
  contains : ∃ first last : Int, interval.start.offset document = some first ∧
    interval.stop.offset document = some last ∧ first ≤ offset ∧ offset ≤ last

/-- What is asked of the interval of a range: an empty range is widened. -/
def Agrees (interval : TextInterval) (document : Document) (start stop : Nat) : Prop :=
  if start = stop then interval.Surrounds document start
  else interval.ConvertsTo document start stop

end TextInterval

/-! ## Lines and their starts -/

section

variable {text : List UInt16} {line offset start : Nat}

theorem lineOf_cons_succ (unit : UInt16) (text : List UInt16) (offset : Nat) :
    lineOf (unit :: text) (offset + 1) =
      lineOf text offset + if unit = lineFeed then 1 else 0 := by
  simp [lineOf, List.count_cons]

/-- A line's start is on this line. -/
theorem lineOf_lineStart (h : lineStart text line = some start) :
    start ≤ text.length ∧ lineOf text start = line := by
  induction text, line using lineStart.induct generalizing start with
  | case1 text =>
      obtain rfl : 0 = start := by simpa [lineStart] using h
      simp [lineOf]
  | case2 line => simp [lineStart] at h
  | case3 unit text line ih =>
      rw [lineStart, Option.map_eq_some_iff] at h
      obtain ⟨rest, hrest, rfl⟩ := h
      obtain ⟨hle, hline⟩ := ih hrest
      refine ⟨by simpa using hle, ?_⟩
      rw [lineOf_cons_succ, hline]
      split <;> rfl

/-- The line of an offset starts at the offset or before it. -/
theorem lineStart_lineOf (h : offset ≤ text.length) :
    ∃ start, lineStart text (lineOf text offset) = some start ∧ start ≤ offset := by
  induction text generalizing offset with
  | nil =>
      obtain rfl : offset = 0 := by simpa using h
      exact ⟨0, rfl, Nat.le_refl 0⟩
  | cons unit text ih =>
      cases offset with
      | zero => exact ⟨0, rfl, Nat.le_refl 0⟩
      | succ offset =>
          obtain ⟨start, hstart, hle⟩ := ih (by simpa using h)
          rw [lineOf_cons_succ]
          cases hline : lineOf text offset + if unit = lineFeed then 1 else 0 with
          | zero => exact ⟨0, by rw [lineStart], Nat.zero_le _⟩
          | succ line =>
              refine ⟨start + 1, ?_, Nat.succ_le_succ hle⟩
              have hsame : (if unit = lineFeed then line else line + 1) = lineOf text offset := by
                split <;> simp_all
              rw [lineStart, hsame, hstart, Option.map_some]

end

variable {document : Document} {start stop offset line : Nat}

theorem getLineNumber_eq (h : offset ≤ document.text.length) :
    document.getLineNumber offset = some (lineOf document.text offset) :=
  if_pos h

theorem getOffset_eq {first : Nat} (h : lineStart document.text line = some first) (ch : Int) :
    getOffsetFromLineAndChar document line ch = some (first + ch) := by
  rw [getOffsetFromLineAndChar, getLineStartOffset, h, Option.map_some]

/-- An offset's line and distance from the line's start convert back to it. -/
theorem getOffset_position (h : offset ≤ document.text.length) :
    ∃ first : Nat, document.getLineStartOffset (lineOf document.text offset) = some first ∧
      first ≤ offset ∧
      getOffsetFromLineAndChar document (lineOf document.text offset) (offset - first) =
        some ↑offset := by
  obtain ⟨first, hfirst, hle⟩ := lineStart_lineOf h
  refine ⟨first, hfirst, hle, ?_⟩
  rw [getOffset_eq hfirst]
  exact congrArg some (by omega)

/-- Lines with the same start are the same. -/
theorem lineStart_inj {text : List UInt16} {line' : Nat} (h : lineStart text line = some start)
    (h' : lineStart text line' = some start) : line = line' := by
  rw [← (lineOf_lineStart h).2, (lineOf_lineStart h').2]

/-! ## The interval of a range -/

/-- The interval of a range that is not empty. -/
theorem getInterval_of_lt {first : Nat} (hlt : start < stop)
    (hstop : stop ≤ document.text.length)
    (hfirst : lineStart document.text (lineOf document.text start) = some first) :
    getInterval start stop document = some {
      start := { line := lineOf document.text start, ch := start - first }
      stop := { line := lineOf document.text stop, ch := stop - first } } := by
  have hstart : start ≤ document.text.length := by omega
  simp [getInterval, getLineNumber_eq hstart, getLineNumber_eq hstop, getLineStartOffset, hfirst,
    Nat.ne_of_lt hlt]

/-- The end converts back exactly if its line starts where the start's line does. -/
theorem convertsTo_iff_of_lt (hlt : start < stop) (hstop : stop ≤ document.text.length) :
    (∃ interval, getInterval start stop document = some interval ∧
        interval.ConvertsTo document start stop) ↔
      lineOf document.text start = lineOf document.text stop := by
  have hstart : start ≤ document.text.length := by omega
  obtain ⟨first, hfirst, hle, hback⟩ := getOffset_position hstart
  rw [getInterval_of_lt hlt hstop hfirst]
  constructor
  · rintro ⟨interval, hinterval, hconverts⟩
    obtain rfl := Option.some_inj.mp hinterval
    obtain ⟨last, hlast, -⟩ := lineStart_lineOf hstop
    have hoffset := hconverts.stop_offset
    rw [TextPosition.offset, getOffset_eq hlast, Option.some_inj] at hoffset
    dsimp only at hoffset
    obtain rfl : first = last := by omega
    exact lineStart_inj hfirst hlast
  · intro hline
    have hfirst' : lineStart document.text (lineOf document.text stop) = some first := by
      rw [← hline]
      exact hfirst
    have hback' : getOffsetFromLineAndChar document (lineOf document.text stop)
        (stop - first) = some ↑stop := by
      rw [getOffset_eq hfirst']
      exact congrArg some (by omega)
    exact ⟨_, rfl, ⟨start, hback, getLineNumber_eq hstart⟩, ⟨stop, hback', getLineNumber_eq hstop⟩,
      hback, hback'⟩

/-- An empty range is widened to the character before it, or at a line's start to the one
behind it. -/
theorem surrounds_of_empty (h : offset ≤ document.text.length) :
    ∃ interval, getInterval offset offset document = some interval ∧
      interval.Surrounds document offset := by
  obtain ⟨first, hfirst, hle⟩ := lineStart_lineOf h
  have hoffset := getOffset_eq hfirst
  simp only [getInterval, getLineNumber_eq h, getLineStartOffset, hfirst, Option.bind_eq_bind,
    Option.bind_some, and_self, if_true]
  split
  · refine ⟨_, rfl, rfl, ?_, _, _, hoffset _, hoffset _, ?_, ?_⟩
    all_goals dsimp only; omega
  · refine ⟨_, rfl, rfl, ?_, _, _, hoffset _, hoffset _, ?_, ?_⟩
    all_goals dsimp only; omega

/-- The interval of a range agrees with its offsets exactly if the range starts and ends on one
line. -/
theorem interval_agrees_iff (hle : start ≤ stop) (hstop : stop ≤ document.text.length) :
    (∃ interval, getInterval start stop document = some interval ∧
        interval.Agrees document start stop) ↔
      document.getLineNumber start = document.getLineNumber stop := by
  rw [getLineNumber_eq (Nat.le_trans hle hstop), getLineNumber_eq hstop, Option.some_inj]
  simp only [TextInterval.Agrees]
  rcases Nat.eq_or_lt_of_le hle with rfl | hlt
  · simpa using surrounds_of_empty hstop
  · simpa only [Nat.ne_of_lt hlt, if_false] using convertsTo_iff_of_lt hlt hstop

/-- The range of the letters on one line, with the line after it. -/
theorem interval_agrees_iff_one_line :
    (0 ≤ 2 ∧ 2 ≤ 4) ∧
      ((∃ interval, getInterval 0 2 { text := [97, 98, 10, 99] } = some interval ∧
          interval.Agrees { text := [97, 98, 10, 99] } 0 2) ↔
        Document.getLineNumber { text := [97, 98, 10, 99] } 0 =
          Document.getLineNumber { text := [97, 98, 10, 99] } 2) :=
  ⟨by decide, @interval_agrees_iff { text := [97, 98, 10, 99] } 0 2 (by decide) (by decide)⟩

/-- A range over two lines ends behind the document's end. -/
theorem two_lines_disagree :
    ¬ ∀ (document : Document) (start stop : Nat), start ≤ stop →
      stop ≤ document.text.length →
      ∃ interval, getInterval start stop document = some interval ∧
        interval.Agrees document start stop := by
  intro hall
  have hlines : lineOf [97, 10, 98] 0 = lineOf [97, 10, 98] 3 :=
    (@convertsTo_iff_of_lt { text := [97, 10, 98] } 0 3 (by decide) (by decide)).mp
      (hall { text := [97, 10, 98] } 0 3 (by decide) (by decide))
  exact absurd hlines (by decide)

end ArtPlatform.KotlinScript
