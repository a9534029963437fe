import Mathlib.Data.List.Basic
import Mathlib.Tactic.Common

/-!
# The log dialog

The dialog of a log asks for it once and follows its updates; whatever arrives sets the
records.  The viewer draws the last record apart from the others, to scroll to it.

Main results:

- Theorem `records_eq_lastArrived`: the records are those that arrived last, in any order of
  arrivals.
- Theorem `drawnRecords_eq_iff`: what is drawn of the records, by their number.
- Theorem `shows_latest_iff`: the latest version is shown if and only if it arrives last and has
  at most one record, or an answer arrives last that has one record more before the last one.
- Theorem `record_not_drawn`: of two records only the last one is drawn.
-/

namespace ArtPlatform.Web

structure Log where
  id : Nat
  records : List String
deriving DecidableEq, Repr

/-- The answer to the request for the log, or an event of the stream of all logs. -/
inductive LogArrival
  | answered (log : Log)
  | updated (log : Log)
deriving DecidableEq, Repr

/-- `LogViewer.#records`: the records that are drawn. -/
def drawnRecords (records : List String) : List String :=
  if records = [] then []
  else if records.length = 1 then records.getLast?.toList
  else records.take (records.length - 2) ++ records.getLast?.toList

structure PlatformLogDialog where
  logId : Nat
  records : List String := []
deriving DecidableEq, Repr

namespace PlatformLogDialog

def setRecords (s : PlatformLogDialog) (records : List String) : PlatformLogDialog :=
  { s with records := records }

/-- The stream hands on the updates of the dialog's log. -/
def arrive (s : PlatformLogDialog) : LogArrival → PlatformLogDialog
  | .answered log => s.setRecords log.records
  | .updated log => if log.id = s.logId then s.setRecords log.records else s

def shown (s : PlatformLogDialog) : List String :=
  drawnRecords s.records

end PlatformLogDialog

open PlatformLogDialog

/-- The update events in their order, with the answer at some position among them. -/
def arrivals (answer : Log) (earlier later : List Log) : List LogArrival :=
  earlier.map .updated ++ .answered answer :: later.map .updated

/-- The versions of a log: the one before the events and one for each of its events. -/
def versions (initial : Log) (events : List Log) : List (List String) :=
  (initial :: events.filter fun log => log.id = initial.id).map Log.records

def latestVersion (initial : Log) (events : List Log) : List String :=
  ((events.filter fun log => log.id = initial.id).getLast?.getD initial).records

/-- An update of the log arrives behind the answer. -/
def Overtaken (initial : Log) (later : List Log) : Prop :=
  ∃ log ∈ later, log.id = initial.id

/-! ## What is drawn -/

theorem drawnRecords_of_two_le {front : List String} {extra last : String} :
    drawnRecords (front ++ [extra, last]) = front ++ [last] := by
  simp [drawnRecords]

/-- At most one record is drawn as it is; of more records the last but one is not drawn. -/
theorem drawnRecords_eq_iff {records latest : List String} :
    drawnRecords records = latest ↔
      records = latest ∧ latest.length ≤ 1 ∨
        ∃ front extra last, records = front ++ [extra, last] ∧ latest = front ++ [last] := by
  rcases List.eq_nil_or_concat records with rfl | ⟨init, last, rfl⟩
  · have hdrawn : drawnRecords [] = [] := rfl
    rw [hdrawn]
    constructor
    · rintro rfl
      exact Or.inl ⟨rfl, Nat.zero_le 1⟩
    · rintro (⟨h, -⟩ | ⟨front, extra, last, h, -⟩)
      · exact h
      · simp at h
  · rcases List.eq_nil_or_concat init with rfl | ⟨front, extra, rfl⟩
    · have hdrawn : drawnRecords ([].concat last) = [last] := rfl
      rw [hdrawn]
      constructor
      · rintro rfl
        exact Or.inl ⟨rfl, Nat.le_refl 1⟩
      · rintro (⟨h, -⟩ | ⟨front, extra, last', h, -⟩)
        · exact h
        · exact absurd (congrArg List.length h) (by simp)
    · have hrecords : (front.concat extra).concat last = front ++ [extra, last] := by simp
      rw [hrecords, drawnRecords_of_two_le]
      constructor
      · rintro rfl
        exact Or.inr ⟨front, extra, last, rfl, rfl⟩
      · rintro (⟨rfl, hlength⟩ | ⟨front', extra', last', h, rfl⟩)
        · simp at hlength
        · obtain ⟨rfl, h⟩ := List.append_inj' h rfl
          obtain ⟨-, rfl⟩ : extra = extra' ∧ last = last' := by simpa using h
          rfl

/-! ## What arrives last -/

/-- The records of the last arrival for the dialog. -/
def lastArrived (initial answer : Log) (later : List Log) : List String :=
  latestVersion { answer with id := initial.id } later

theorem logId_arrive (s : PlatformLogDialog) (arrival : LogArrival) :
    (s.arrive arrival).logId = s.logId := by
  cases arrival with
  | answered log => rfl
  | updated log =>
      rw [arrive]
      split <;> rfl

theorem logId_foldl_arrive (s : PlatformLogDialog) (arrived : List LogArrival) :
    (arrived.foldl arrive s).logId = s.logId := by
  induction arrived generalizing s with
  | nil => rfl
  | cons arrival arrived ih => rw [List.foldl_cons, ih, logId_arrive]

/-- Behind any records, the updates leave the records of the log's last one. -/
theorem records_foldl_updated (s : PlatformLogDialog) (events : List Log) :
    ((events.map LogArrival.updated).foldl arrive s).records =
      latestVersion { id := s.logId, records := s.records } events := by
  induction events generalizing s with
  | nil => rfl
  | cons log events ih =>
      rw [List.map_cons, List.foldl_cons, ih, logId_arrive, arrive]
      by_cases hid : log.id = s.logId
      · rw [if_pos hid]
        simp only [latestVersion, setRecords, hid, decide_true, List.filter_cons_of_pos,
          List.getLast?_cons, Option.getD_some]
        cases (events.filter fun log => log.id = s.logId).getLast? <;> rfl
      · rw [if_neg hid]
        simp [latestVersion, hid]

/-- The records are those that arrived last. -/
theorem records_eq_lastArrived (initial answer : Log) (earlier later : List Log) :
    ((arrivals answer earlier later).foldl arrive { logId := initial.id }).records =
      lastArrived initial answer later := by
  rw [arrivals, List.foldl_append, List.foldl_cons, records_foldl_updated, logId_arrive,
    logId_foldl_arrive]
  rfl

/-- An update that arrives behind the answer is the latest version. -/
theorem lastArrived_of_overtaken {initial answer : Log} {earlier later : List Log}
    (h : Overtaken initial later) :
    lastArrived initial answer later = latestVersion initial (earlier ++ later) := by
  obtain ⟨log, hlog, hid⟩ := h
  have hne : (later.filter fun log => log.id = initial.id) ≠ [] :=
    List.ne_nil_of_mem (List.mem_filter.mpr ⟨hlog, by simpa using hid⟩)
  rw [lastArrived, latestVersion, latestVersion, List.filter_append, List.getLast?_append,
    List.getLast?_eq_some_getLast hne]
  rfl

/-- Otherwise the answer's records stay. -/
theorem lastArrived_of_not_overtaken {initial answer : Log} {later : List Log}
    (h : ¬ Overtaken initial later) : lastArrived initial answer later = answer.records := by
  have hnil : (later.filter fun log => log.id = initial.id) = [] := by
    rw [List.filter_eq_nil_iff]
    intro log hlog hid
    exact h ⟨log, hlog, by simpa using hid⟩
  rw [lastArrived, latestVersion, hnil]
  rfl

/-- The latest version is shown exactly if it arrives last and has at most one record, or the
answer arrives last and has one record more before the last one. -/
theorem shows_latest_iff (initial answer : Log) (earlier later : List Log) :
    ((arrivals answer earlier later).foldl arrive { logId := initial.id }).shown =
        latestVersion initial (earlier ++ later) ↔
      (Overtaken initial later ∨ answer.records = latestVersion initial (earlier ++ later)) ∧
          (latestVersion initial (earlier ++ later)).length ≤ 1 ∨
        ¬ Overtaken initial later ∧ ∃ front extra last,
          answer.records = front ++ [extra, last] ∧
            latestVersion initial (earlier ++ later) = front ++ [last] := by
  rw [shown, records_eq_lastArrived, drawnRecords_eq_iff]
  by_cases hover : Overtaken initial later
  · rw [@lastArrived_of_overtaken _ answer earlier _ hover]
    constructor
    · rintro (⟨-, hlength⟩ | ⟨front, extra, last, hlatest, hlatest'⟩)
      · exact Or.inl ⟨Or.inl hover, hlength⟩
      · exact absurd (congrArg List.length (hlatest.symm.trans hlatest')) (by simp)
    · rintro (⟨-, hlength⟩ | ⟨hnot, -⟩)
      · exact Or.inl ⟨rfl, hlength⟩
      · exact absurd hover hnot
  · rw [lastArrived_of_not_overtaken hover]
    simp [hover]

/-- A log of two records that is not updated. -/
theorem record_not_drawn :
    ¬ ∀ (initial answer : Log) (earlier later : List Log),
      answer.records ∈ versions initial (earlier ++ later) →
      ((arrivals answer earlier later).foldl arrive { logId := initial.id }).shown =
        latestVersion initial (earlier ++ later) := by
  intro hall
  have hshown := hall ⟨1, ["a", "b"]⟩ ⟨1, ["a", "b"]⟩ [] [] (by decide)
  exact absurd hshown (by decide)

end ArtPlatform.Web
