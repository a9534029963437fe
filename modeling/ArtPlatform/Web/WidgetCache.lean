import ArtPlatform.Foundation.EventRun
import Mathlib.Tactic.Common

/-!
# Cached widgets

A conditional and a hooked widget keep the inner widget that their factory has built, and
build it again when the value of their cache function (or the hook) changes.

Main results:

- Theorem `caches_neverStale_iff`: no widget of another cache value or hook is shown exactly
  if the draws keep up with these values.
- Theorem `stale_widgets_shown`: the three ways to a stale widget.
-/

namespace ArtPlatform.Web

open EventRun

/-! ## Values -/

/-- A value of the cache function. -/
inductive JsValue (α : Type)
  | undefined
  | null
  | value (a : α)
deriving DecidableEq, Repr

/-- `value == undefined` -/
def JsValue.isNullish {α : Type} : JsValue α → Bool
  | .undefined | .null => true
  | .value _ => false

/-- What a draw shows: the stub, or the widget that the factory built at a draw. -/
inductive Drawn (δ : Type)
  | stub
  | widget (builtAt : δ)
deriving DecidableEq, Repr

/-! ## Conditional -/

structure ConditionalDraw (C : Type) where
  predicate : Bool
  cacheValue : JsValue C
deriving DecidableEq, Repr

/-- The fields of a conditional; the widget is known by the draw at which it was built. -/
structure Conditional (C : Type) where
  persisted : Bool := false
  cached : Bool := false
  hasCacheFunction : Bool := false
  lastCachedValue : JsValue C := .undefined
  widget : Option (ConditionalDraw C) := none
deriving DecidableEq, Repr

namespace Conditional

variable {C : Type}

/-- `cache(widgetFactory, cacheFunction)` on a new conditional. -/
def cache : Conditional C where
  cached := true
  hasCacheFunction := true

def createWidget (s : Conditional C) (draw : ConditionalDraw C) :
    Conditional C × Drawn (ConditionalDraw C) :=
  ({ s with widget := some draw }, .widget draw)

def getOrCreateWidget (s : Conditional C) (draw : ConditionalDraw C) :
    Conditional C × Drawn (ConditionalDraw C) :=
  match s.widget with
  | none => s.createWidget draw
  | some builtAt => (s, .widget builtAt)

variable [DecidableEq C]

def draw (s : Conditional C) (d : ConditionalDraw C) :
    Conditional C × Drawn (ConditionalDraw C) :=
  if !d.predicate then
    -- the value is taken over, the widget is not built again
    if s.cached && s.hasCacheFunction then ({ s with lastCachedValue := d.cacheValue }, .stub)
    else (s, .stub)
  else if s.persisted then s.getOrCreateWidget d
  else if !s.cached || !s.hasCacheFunction then s.createWidget d
  else
    let seen := { s with lastCachedValue := d.cacheValue }
    if s.lastCachedValue.isNullish then seen.getOrCreateWidget d
    else if s.lastCachedValue = d.cacheValue then seen.getOrCreateWidget d
    else seen.createWidget d

/-- A cached conditional behind a sequence of draws. -/
def behind (draws : List (ConditionalDraw C)) : Conditional C :=
  draws.foldl (fun s d => (s.draw d).1) cache

/-- Every widget that a draw shows was built at a draw with the cache value of this one. -/
def NeverStale (draws : List (ConditionalDraw C)) : Prop :=
  EachEvent draws fun earlier d =>
    ∀ builtAt, ((behind earlier).draw d).2 = .widget builtAt → builtAt.cacheValue = d.cacheValue

end Conditional

/-- The last draw that showed the widget. -/
def lastShown {C : Type} (draws : List (ConditionalDraw C)) : Option (ConditionalDraw C) :=
  (draws.filter ConditionalDraw.predicate).getLast?

/-- The cache value of the last draw, shown or not. -/
def lastValue {C : Type} (draws : List (ConditionalDraw C)) : JsValue C :=
  match draws.getLast? with
  | none => .undefined
  | some d => d.cacheValue

/-- A draw that shows the widget has the cache value of the last draw that showed it, if
the value of the draw before is the same or none. -/
def Conditional.KeepsUp {C : Type} (draws : List (ConditionalDraw C)) : Prop :=
  EachEvent draws fun earlier d => d.predicate = true → ∀ e, lastShown earlier = some e →
    (lastValue earlier).isNullish = true ∨ lastValue earlier = d.cacheValue →
      e.cacheValue = d.cacheValue

/-! ## Hooked -/

/-- A draw finds no hook when the hook is falsy; the hook container throws then. -/
structure HookedDraw (H C : Type) where
  hook : Option H
  cacheValue : JsValue C
deriving DecidableEq, Repr

structure Hooked (H C : Type) where
  persisted : Bool := false
  cached : Bool := false
  hasCacheFunction : Bool := false
  lastCalculatedHook : Option H := none
  lastCachedValue : JsValue C := .undefined
  widget : Option (HookedDraw H C) := none
deriving DecidableEq, Repr

namespace Hooked

variable {H C : Type}

/-- `cache(widgetFactory, cacheFunction)` on a new hooked widget. -/
def cache (hasCacheFunction : Bool) : Hooked H C where
  cached := true
  hasCacheFunction := hasCacheFunction

def createWidget (s : Hooked H C) (draw : HookedDraw H C) :
    Hooked H C × Drawn (HookedDraw H C) :=
  ({ s with widget := some draw }, .widget draw)

def getOrCreateWidget (s : Hooked H C) (draw : HookedDraw H C) :
    Hooked H C × Drawn (HookedDraw H C) :=
  match s.widget with
  | none => s.createWidget draw
  | some builtAt => (s, .widget builtAt)

variable [DecidableEq H] [DecidableEq C]

/-- A draw of a hooked widget that has a factory; `none` when it throws. -/
def draw (s : Hooked H C) (d : HookedDraw H C) :
    Option (Hooked H C × Drawn (HookedDraw H C)) :=
  match d.hook with
  | none => none
  | some newHook => some <|
    if s.persisted then s.getOrCreateWidget d
    else if s.cached then
      let hooked := { s with lastCalculatedHook := some newHook }
      let seen := { hooked with lastCachedValue := d.cacheValue }
      if s.lastCalculatedHook = some newHook then
        if !s.hasCacheFunction then hooked.getOrCreateWidget d
        else if s.lastCachedValue.isNullish then seen.getOrCreateWidget d
        else if s.lastCachedValue = d.cacheValue then seen.getOrCreateWidget d
        else seen.createWidget d
      else
        if !s.hasCacheFunction then hooked.createWidget d
        -- another hook alone does not build the widget again
        else if s.lastCachedValue.isNullish then seen.getOrCreateWidget d
        else if s.lastCachedValue = d.cacheValue then seen.getOrCreateWidget d
        else seen.createWidget d
    else s.createWidget d

/-- A hooked widget with a cache function behind a sequence of draws. -/
def behind (draws : List (HookedDraw H C)) : Hooked H C :=
  draws.foldl (fun s d => match s.draw d with | none => s | some (t, _) => t) (cache true)

/-- Every widget that a draw shows was built at a draw with the hook and the cache value of
this one. -/
def NeverStale (draws : List (HookedDraw H C)) : Prop :=
  EachEvent draws fun earlier d =>
    ∀ t builtAt, (behind earlier).draw d = some (t, .widget builtAt) →
      builtAt.hook = d.hook ∧ builtAt.cacheValue = d.cacheValue

end Hooked

/-- The last draw that had a hook. -/
def lastHooked {H C : Type} (draws : List (HookedDraw H C)) : Option (HookedDraw H C) :=
  (draws.filter fun d => d.hook.isSome).getLast?

/-- A draw has the hook and the cache value of the last one, if the value of the last one
is the same or none. -/
def Hooked.KeepsUp {H C : Type} (draws : List (HookedDraw H C)) : Prop :=
  EachEvent draws fun earlier d => d.hook.isSome = true → ∀ e, lastHooked earlier = some e →
    e.cacheValue.isNullish = true ∨ e.cacheValue = d.cacheValue →
      e.hook = d.hook ∧ e.cacheValue = d.cacheValue

/-! ## The entry of a conditional -/

/-- The last draw of a kind, behind one draw more. -/
theorem getLast?_filter_append {δ : Type} (test : δ → Bool) (draws : List δ) (d : δ) :
    ((draws ++ [d]).filter test).getLast? =
      if test d = true then some d else (draws.filter test).getLast? := by
  rw [List.filter_append]
  split
  next h => simp [h]
  next h => simp [h]

theorem lastShown_append {C : Type} (draws : List (ConditionalDraw C)) (d : ConditionalDraw C) :
    lastShown (draws ++ [d]) = if d.predicate = true then some d else lastShown draws :=
  getLast?_filter_append _ draws d

theorem lastValue_append {C : Type} (draws : List (ConditionalDraw C)) (d : ConditionalDraw C) :
    lastValue (draws ++ [d]) = d.cacheValue := by
  simp [lastValue]

namespace Conditional

variable {C : Type}

/-- The widget of a conditional has the cache value of the last shown draw, and the last
cached value is that of the last draw. -/
structure Follows (draws : List (ConditionalDraw C)) (s : Conditional C) : Prop where
  notPersisted : s.persisted = false
  cached : s.cached = true
  hasCacheFunction : s.hasCacheFunction = true
  last : s.lastCachedValue = lastValue draws
  entry : s.widget.map ConditionalDraw.cacheValue =
    (lastShown draws).map ConditionalDraw.cacheValue

theorem follows_cache : Follows [] (cache : Conditional C) :=
  ⟨rfl, rfl, rfl, rfl, rfl⟩

theorem exists_getOrCreateWidget (s : Conditional C) (d : ConditionalDraw C) :
    ∃ builtAt, s.getOrCreateWidget d = ({ s with widget := some builtAt }, .widget builtAt) := by
  obtain ⟨persisted, cached, hasCacheFunction, last, widget⟩ := s
  cases widget with
  | none => exact ⟨d, rfl⟩
  | some builtAt => exact ⟨builtAt, rfl⟩

variable [DecidableEq C] {draws : List (ConditionalDraw C)} {s : Conditional C}
  {d : ConditionalDraw C}

theorem behind_append (draws : List (ConditionalDraw C)) (d : ConditionalDraw C) :
    behind (draws ++ [d]) = ((behind draws).draw d).1 := by
  simp [behind]

theorem Follows.draw_hidden (h : Follows draws s) (hd : d.predicate = false) :
    s.draw d = ({ s with lastCachedValue := d.cacheValue }, .stub) := by
  simp [draw, hd, h.cached, h.hasCacheFunction]

/-- A shown draw takes the widget that is there when the last value is the same or none. -/
theorem Follows.draw_shown (h : Follows draws s) (hd : d.predicate = true) :
    s.draw d =
      if (lastValue draws).isNullish = true ∨ lastValue draws = d.cacheValue then
        { s with lastCachedValue := d.cacheValue }.getOrCreateWidget d
      else { s with lastCachedValue := d.cacheValue }.createWidget d := by
  simp only [draw, hd, h.notPersisted, h.cached, h.hasCacheFunction, h.last]
  by_cases hnull : (lastValue draws).isNullish = true
  · simp [hnull]
  · by_cases hsame : lastValue draws = d.cacheValue
    · simp [hsame]
    · simp [hnull, hsame]

/-- A draw of a conditional that has shown the right widgets shows the right one exactly
if the cache value is that of the last shown draw. -/
theorem Follows.fresh_iff (h : Follows draws s) :
    (∀ builtAt, (s.draw d).2 = .widget builtAt → builtAt.cacheValue = d.cacheValue) ↔
      (d.predicate = true → ∀ e, lastShown draws = some e →
        (lastValue draws).isNullish = true ∨ lastValue draws = d.cacheValue →
          e.cacheValue = d.cacheValue) := by
  cases hd : d.predicate with
  | false =>
      rw [h.draw_hidden hd]
      simp
  | true =>
      rw [h.draw_shown hd]
      have hentry := h.entry
      by_cases htaken : (lastValue draws).isNullish = true ∨ lastValue draws = d.cacheValue
      · rw [if_pos htaken]
        cases hwidget : s.widget with
        | none =>
            -- the first draw that shows the widget
            have hnone : lastShown draws = none := by
              rw [hwidget, Option.map_none] at hentry
              exact Option.map_eq_none_iff.mp hentry.symm
            simp [getOrCreateWidget, createWidget, hnone]
        | some builtAt =>
            rw [hwidget, Option.map_some] at hentry
            obtain ⟨e, he, hsame⟩ := Option.map_eq_some_iff.mp hentry.symm
            simp [getOrCreateWidget, he, htaken, hsame]
      · rw [if_neg htaken]
        simp [createWidget, htaken]

theorem Follows.exists_shown (h : Follows draws s) (hd : d.predicate = true) :
    ∃ builtAt, s.draw d =
      ({ s with lastCachedValue := d.cacheValue, widget := some builtAt }, .widget builtAt) := by
  rw [h.draw_shown hd]
  split
  · exact exists_getOrCreateWidget { s with lastCachedValue := d.cacheValue } d
  · exact ⟨d, rfl⟩

theorem Follows.draw (h : Follows draws s)
    (hfresh : ∀ builtAt, (s.draw d).2 = .widget builtAt → builtAt.cacheValue = d.cacheValue) :
    Follows (draws ++ [d]) (s.draw d).1 := by
  have hvalue := (lastValue_append draws d).symm
  cases hd : d.predicate with
  | false =>
      rw [h.draw_hidden hd]
      refine ⟨h.notPersisted, h.cached, h.hasCacheFunction, hvalue, ?_⟩
      rw [lastShown_append, hd]
      exact h.entry
  | true =>
      obtain ⟨builtAt, hdraw⟩ := h.exists_shown hd
      rw [hdraw] at hfresh ⊢
      refine ⟨h.notPersisted, h.cached, h.hasCacheFunction, hvalue, ?_⟩
      rw [lastShown_append, hd, if_pos rfl]
      exact congrArg some (hfresh builtAt rfl)

/-- A conditional never shows a stale widget exactly if its draws keep up with the cache
value. -/
theorem neverStale_conditional_iff (draws : List (ConditionalDraw C)) :
    NeverStale draws ↔ KeepsUp draws := by
  apply eachEvent_iff (fun earlier => Follows earlier (behind earlier)) follows_cache
  · intro earlier d hfollows hfresh
    rw [behind_append]
    exact hfollows.draw hfresh
  · intro earlier d hfollows
    exact hfollows.fresh_iff

end Conditional

/-! ## The entry of a hooked widget -/

theorem lastHooked_append {H C : Type} (draws : List (HookedDraw H C)) (d : HookedDraw H C) :
    lastHooked (draws ++ [d]) = if d.hook.isSome = true then some d else lastHooked draws :=
  getLast?_filter_append _ draws d

namespace Hooked

variable {H C : Type}

/-- The widget of a hooked widget has the hook and the cache value of the last draw. -/
structure Follows (draws : List (HookedDraw H C)) (s : Hooked H C) : Prop where
  notPersisted : s.persisted = false
  cached : s.cached = true
  hasCacheFunction : s.hasCacheFunction = true
  last : s.lastCachedValue = ((lastHooked draws).map HookedDraw.cacheValue).getD .undefined
  hook : s.widget.map HookedDraw.hook = (lastHooked draws).map HookedDraw.hook
  entry : s.widget.map HookedDraw.cacheValue = (lastHooked draws).map HookedDraw.cacheValue

theorem follows_cache : Follows [] (cache true : Hooked H C) :=
  ⟨rfl, rfl, rfl, rfl, rfl, rfl⟩

theorem exists_getOrCreateWidget (s : Hooked H C) (d : HookedDraw H C) :
    ∃ builtAt, s.getOrCreateWidget d = ({ s with widget := some builtAt }, .widget builtAt) := by
  obtain ⟨persisted, cached, hasCacheFunction, hook, last, widget⟩ := s
  cases widget with
  | none => exact ⟨d, rfl⟩
  | some builtAt => exact ⟨builtAt, rfl⟩

variable [DecidableEq H] [DecidableEq C] {draws : List (HookedDraw H C)} {s : Hooked H C}
  {d : HookedDraw H C}

/-- Whether the hook is the last one or not, the cache value alone decides. -/
theorem Follows.draw_hooked (h : Follows draws s) {newHook : H} (hd : d.hook = some newHook) :
    s.draw d = some
      (if s.lastCachedValue.isNullish = true ∨ s.lastCachedValue = d.cacheValue then
        { s with
          lastCalculatedHook := some newHook
          lastCachedValue := d.cacheValue }.getOrCreateWidget d
      else
        { s with
          lastCalculatedHook := some newHook
          lastCachedValue := d.cacheValue }.createWidget d) := by
  simp only [draw, hd, h.notPersisted, h.cached, h.hasCacheFunction]
  by_cases hnull : s.lastCachedValue.isNullish = true
  · simp [hnull]
  · by_cases hsame : s.lastCachedValue = d.cacheValue
    · simp [hsame]
    · simp [hnull, hsame]

theorem draw_of_none (hd : d.hook = none) : s.draw d = none := by
  simp [draw, hd]

theorem behind_append (draws : List (HookedDraw H C)) (d : HookedDraw H C) :
    behind (draws ++ [d]) =
      match (behind draws).draw d with | none => behind draws | some (t, _) => t := by
  simp [behind]

/-- A draw of a hooked widget that has shown the right widgets shows the right one exactly
if hook and cache value are those of the last draw. -/
theorem Follows.fresh_iff (h : Follows draws s) :
    (∀ t builtAt, s.draw d = some (t, .widget builtAt) →
        builtAt.hook = d.hook ∧ builtAt.cacheValue = d.cacheValue) ↔
      (d.hook.isSome = true → ∀ e, lastHooked draws = some e →
        e.cacheValue.isNullish = true ∨ e.cacheValue = d.cacheValue →
          e.hook = d.hook ∧ e.cacheValue = d.cacheValue) := by
  cases hd : d.hook with
  | none =>
      rw [draw_of_none hd]
      simp
  | some newHook =>
      rw [h.draw_hooked hd, h.last]
      have hhook := h.hook
      have hentry := h.entry
      cases hlast : lastHooked draws with
      | none =>
          -- the first draw builds the widget
          rw [hlast, Option.map_none] at hentry
          have hwidget := Option.map_eq_none_iff.mp hentry
          simp [JsValue.isNullish, getOrCreateWidget, createWidget, hwidget, hd]
      | some e =>
          rw [hlast, Option.map_some] at hhook hentry
          obtain ⟨builtAt, hwidget, hsame⟩ := Option.map_eq_some_iff.mp hentry
          rw [hwidget, Option.map_some, Option.some.injEq] at hhook
          by_cases htaken : e.cacheValue.isNullish = true ∨ e.cacheValue = d.cacheValue
          · simp [htaken, getOrCreateWidget, hwidget, ← hhook, hsame]
          · simp [htaken, createWidget, hd]

theorem Follows.exists_shown (h : Follows draws s) {newHook : H} (hd : d.hook = some newHook) :
    ∃ builtAt, s.draw d = some
      ({ s with
        lastCalculatedHook := some newHook
        lastCachedValue := d.cacheValue
        widget := some builtAt }, .widget builtAt) := by
  rw [h.draw_hooked hd]
  split
  · obtain ⟨builtAt, hshown⟩ := exists_getOrCreateWidget
      { s with lastCalculatedHook := some newHook, lastCachedValue := d.cacheValue } d
    exact ⟨builtAt, congrArg some hshown⟩
  · exact ⟨d, rfl⟩

theorem Follows.behind_append (h : Follows draws (behind draws))
    (hfresh : ∀ t builtAt, (behind draws).draw d = some (t, .widget builtAt) →
      builtAt.hook = d.hook ∧ builtAt.cacheValue = d.cacheValue) :
    Follows (draws ++ [d]) (behind (draws ++ [d])) := by
  have hlast := lastHooked_append draws d
  rw [Hooked.behind_append]
  cases hd : d.hook with
  | none =>
      rw [hd] at hlast
      rw [draw_of_none hd]
      refine ⟨h.notPersisted, h.cached, h.hasCacheFunction, ?_, ?_, ?_⟩
      · rw [hlast]
        exact h.last
      · rw [hlast]
        exact h.hook
      · rw [hlast]
        exact h.entry
  | some newHook =>
      rw [hd, Option.isSome_some, if_pos rfl] at hlast
      obtain ⟨builtAt, hdraw⟩ := h.exists_shown hd
      obtain ⟨hhook, hvalue⟩ := hfresh _ builtAt hdraw
      rw [hdraw]
      refine ⟨h.notPersisted, h.cached, h.hasCacheFunction, ?_, ?_, ?_⟩
      · rw [hlast]
        rfl
      · rw [hlast]
        exact congrArg some hhook
      · rw [hlast]
        exact congrArg some hvalue

/-- A hooked widget never shows a stale widget exactly if its draws keep up with the hook
and the cache value. -/
theorem neverStale_hooked_iff (draws : List (HookedDraw H C)) :
    NeverStale draws ↔ KeepsUp draws := by
  apply eachEvent_iff (fun earlier => Follows earlier (behind earlier)) follows_cache
  · exact fun earlier d hfollows hfresh => hfollows.behind_append hfresh
  · exact fun earlier d hfollows => hfollows.fresh_iff

end Hooked

/-! ## Stale widgets -/

/-- Cached widgets are never stale exactly if their draws keep up with the values. -/
theorem caches_neverStale_iff {H C : Type} [DecidableEq H] [DecidableEq C]
    (conditionalDraws : List (ConditionalDraw C)) (hookedDraws : List (HookedDraw H C)) :
    (Conditional.NeverStale conditionalDraws ↔ Conditional.KeepsUp conditionalDraws) ∧
      (Hooked.NeverStale hookedDraws ↔ Hooked.KeepsUp hookedDraws) :=
  ⟨Conditional.neverStale_conditional_iff conditionalDraws,
    Hooked.neverStale_hooked_iff hookedDraws⟩

/-- A cache value that changes while the widget is hidden, one that comes after none, and a
hook that changes with the cache value the same. -/
theorem stale_widgets_shown :
    ¬ Conditional.NeverStale
        [⟨true, .value 1⟩, ⟨false, .value 2⟩, (⟨true, .value 2⟩ : ConditionalDraw Nat)] ∧
      ¬ Conditional.NeverStale [⟨true, .undefined⟩, (⟨true, .value 1⟩ : ConditionalDraw Nat)] ∧
      ¬ Hooked.NeverStale
        [⟨some 1, .value 1⟩, (⟨some 2, .value 1⟩ : HookedDraw Nat Nat)] := by
  refine ⟨fun h => ?_, fun h => ?_, fun h => ?_⟩
  · have hstale := h [⟨true, .value 1⟩, ⟨false, .value 2⟩] ⟨true, .value 2⟩ List.prefix_rfl
      ⟨true, .value 1⟩ (by decide)
    revert hstale
    decide
  · have hstale := h [⟨true, .undefined⟩] ⟨true, .value 1⟩ List.prefix_rfl ⟨true, .undefined⟩
      (by decide)
    revert hstale
    decide
  · have hstale := h [⟨some 1, .value 1⟩] ⟨some 2, .value 1⟩ List.prefix_rfl _
      ⟨some 1, .value 1⟩ rfl
    revert hstale
    decide

end ArtPlatform.Web
