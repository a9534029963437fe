import ArtPlatform.Foundation.EventRun
import Mathlib.Data.List.InsertIdx
import Mathlib.Tactic.Common

/-!
# The grid of the web client

A grid keeps its items and, in a property of its own, their keys.  Every operation changes
the two one after the other, and an item is removed at the position of its key.

Main results:

- Theorem `removeKey_removesFirst`: while the keys are those of the items, removing a key
  removes the first item that has it.
- Theorem `keysParallel_iff`: the keys stay those of the items exactly if no list of
  widgets with different keys at its two ends is put in front at once, and no decorator
  exchanges a key.
- Theorem `unshiftWidgets_removes_wrong`: two widgets that are put in front at once.
-/

namespace ArtPlatform.Web

open EventRun

/-- A widget is known to a grid by its key. -/
structure Widget (K : Type) where
  id : Nat
  key : K
deriving DecidableEq, Repr

structure GridItem (K : Type) where
  widget : Widget K
  key : K
deriving DecidableEq, Repr

/-- `new GridItem(widget, key)`: an item without a key of its own has that of its widget. -/
def gridItem {K : Type} (widget : Widget K) (key : Option K := none) : GridItem K where
  widget := widget
  key := key.getD widget.key

structure ManagedGrid (K : Type) where
  items : List (GridItem K) := []
  keys : List K := []
deriving DecidableEq, Repr

namespace ManagedGrid

variable {K : Type}

/-! ## Widgets at either end -/

/-- The item of a widget, passed through the decorator if there is one. -/
def decorated (widget : Widget K) : Option (GridItem K → GridItem K) → GridItem K
  | none => gridItem widget (some widget.key)
  | some decorator => decorator (gridItem widget (some widget.key))

def unshiftWidget (s : ManagedGrid K) (widget : Widget K)
    (decorator : Option (GridItem K → GridItem K)) : ManagedGrid K where
  items := decorated widget decorator :: s.items
  keys := widget.key :: s.keys

def pushWidget (s : ManagedGrid K) (widget : Widget K)
    (decorator : Option (GridItem K → GridItem K)) : ManagedGrid K where
  items := s.items ++ [decorated widget decorator]
  keys := s.keys ++ [widget.key]

def pushWidgets (s : ManagedGrid K) (widgets : List (Widget K)) : ManagedGrid K where
  items := widgets.foldl (fun items widget => items ++ [gridItem widget (some widget.key)]) s.items
  keys := s.keys ++ widgets.map Widget.key

/-- The items are put in front one by one, their keys all at once. -/
def unshiftWidgets (s : ManagedGrid K) (widgets : List (Widget K)) : ManagedGrid K where
  items := widgets.foldl (fun items widget => gridItem widget (some widget.key) :: items) s.items
  keys := widgets.map Widget.key ++ s.keys

def widgets (s : ManagedGrid K) : List (Widget K) :=
  s.items.map GridItem.widget

/-! ## Items -/

def unshiftItem (s : ManagedGrid K) (item : GridItem K) : ManagedGrid K where
  items := item :: s.items
  keys := item.key :: s.keys

def pushItem (s : ManagedGrid K) (item : GridItem K) : ManagedGrid K where
  items := s.items ++ [item]
  keys := s.keys ++ [item.key]

def pushItems (s : ManagedGrid K) (items : List (GridItem K)) : ManagedGrid K where
  items := s.items ++ items
  keys := s.keys ++ items.map GridItem.key

/-! ## Replacing and removing -/

def clear (_ : ManagedGrid K) : ManagedGrid K :=
  {}

def setWidgets (s : ManagedGrid K) (widgets : List (Widget K)) : ManagedGrid K :=
  s.clear.pushWidgets widgets

def setItems (s : ManagedGrid K) (items : List (GridItem K)) : ManagedGrid K :=
  s.clear.pushItems items

def removeIndex (s : ManagedGrid K) (index : Nat) : ManagedGrid K where
  items := s.items.eraseIdx index
  keys := s.keys.eraseIdx index

variable [DecidableEq K]

def removeKey (s : ManagedGrid K) (key : K) : ManagedGrid K :=
  match s.keys.findIdx? (· = key) with
  | none => s
  | some index => s.removeIndex index

def removeWidget (s : ManagedGrid K) (widget : Widget K) : ManagedGrid K :=
  s.removeKey widget.key

def removeItem (s : ManagedGrid K) (item : GridItem K) : ManagedGrid K :=
  s.removeWidget item.widget

def replaceWidget (s : ManagedGrid K) (widget : Widget K) : ManagedGrid K :=
  (s.removeKey widget.key).pushWidget widget none

def replaceItem (s : ManagedGrid K) (item : GridItem K) : ManagedGrid K :=
  (s.removeKey item.key).pushItem item

/-- The widgets in the order of their keys; a key without a widget is passed over. -/
def arrangeWidgets (s : ManagedGrid K) (keys : List K) : ManagedGrid K :=
  s.setWidgets (keys.filterMap fun key => s.widgets.find? fun widget => widget.key = key)

/-- `getWidgetByKey`; the keys are compared by `==`. -/
def getWidgetByKey (looseEquals : K → K → Bool) (s : ManagedGrid K) (key : K) :
    Option (Widget K) :=
  (s.items.find? fun item => looseEquals item.key key).map GridItem.widget

/-- `filter`: a new grid of the widgets whose keys pass.  It throws when a key has no item. -/
def filter (looseEquals : K → K → Bool) (s : ManagedGrid K) (passes : K → Bool) :
    Option (ManagedGrid K) :=
  ((s.keys.filter passes).mapM (s.getWidgetByKey looseEquals)).map ({} : ManagedGrid K).pushWidgets

end ManagedGrid

/-! ## Sequences of operations -/

inductive GridOperation (K : Type)
  | unshiftWidget (widget : Widget K) (decorator : Option (GridItem K → GridItem K))
  | pushWidget (widget : Widget K) (decorator : Option (GridItem K → GridItem K))
  | pushWidgets (widgets : List (Widget K))
  | unshiftWidgets (widgets : List (Widget K))
  | replaceWidget (widget : Widget K)
  | arrangeWidgets (keys : List K)
  | setWidgets (widgets : List (Widget K))
  | removeWidget (widget : Widget K)
  | unshiftItem (item : GridItem K)
  | pushItem (item : GridItem K)
  | pushItems (items : List (GridItem K))
  | replaceItem (item : GridItem K)
  | setItems (items : List (GridItem K))
  | removeItem (item : GridItem K)
  | removeIndex (index : Nat)
  | removeKey (key : K)
  | filter (passes : K → Bool)
  | clear

variable {K : Type}

/-- The keys are those of the items, in their order. -/
def ManagedGrid.Parallel (s : ManagedGrid K) : Prop :=
  s.keys = s.items.map GridItem.key

/-- A decorator gives back an item with the key of the widget. -/
def KeepsKey (widget : Widget K) : Option (GridItem K → GridItem K) → Prop
  | none => True
  | some decorator => (decorator (gridItem widget (some widget.key))).key = widget.key

/-- An operation that changes the keys as it changes the items. -/
def GridOperation.KeepsKeys : GridOperation K → Prop
  | .unshiftWidget widget decorator | .pushWidget widget decorator => KeepsKey widget decorator
  | .unshiftWidgets widgets => (widgets.map Widget.key).reverse = widgets.map Widget.key
  | _ => True

/-! ## What the operations do to the keys -/

namespace ManagedGrid

variable {s t : ManagedGrid K}

theorem key_decorated_iff (widget : Widget K) (decorator : Option (GridItem K → GridItem K)) :
    (decorated widget decorator).key = widget.key ↔ KeepsKey widget decorator := by
  cases decorator with
  | none => exact iff_of_true rfl trivial
  | some decorator => exact Iff.rfl

theorem items_pushWidgets (s : ManagedGrid K) (widgets : List (Widget K)) :
    (s.pushWidgets widgets).items =
      s.items ++ widgets.map fun widget => gridItem widget (some widget.key) := by
  unfold pushWidgets
  generalize s.items = items
  induction widgets generalizing items with
  | nil => exact (List.append_nil items).symm
  | cons widget widgets ih =>
      rw [List.foldl_cons, ih, List.map_cons, List.append_assoc, List.singleton_append]

theorem items_unshiftWidgets (s : ManagedGrid K) (widgets : List (Widget K)) :
    (s.unshiftWidgets widgets).items =
      (widgets.map fun widget => gridItem widget (some widget.key)).reverse ++ s.items := by
  unfold unshiftWidgets
  generalize s.items = items
  induction widgets generalizing items with
  | nil => rfl
  | cons widget widgets ih =>
      rw [List.foldl_cons, ih, List.map_cons, List.reverse_cons, List.append_assoc,
        List.singleton_append]

theorem keys_gridItems (widgets : List (Widget K)) :
    (widgets.map fun widget => gridItem widget (some widget.key)).map GridItem.key =
      widgets.map Widget.key := by
  rw [List.map_map]
  rfl

theorem Parallel.removeIndex (h : s.Parallel) (index : Nat) : (s.removeIndex index).Parallel := by
  unfold Parallel ManagedGrid.removeIndex
  rw [← List.eraseIdx_map, ← h]

theorem parallel_unshiftWidget_iff (h : s.Parallel) (widget : Widget K)
    (decorator : Option (GridItem K → GridItem K)) :
    (s.unshiftWidget widget decorator).Parallel ↔ KeepsKey widget decorator := by
  rw [← key_decorated_iff]
  unfold Parallel unshiftWidget at *
  rw [List.map_cons, List.cons.injEq, ← h]
  constructor
  · exact fun hkeys => hkeys.1.symm
  · exact fun hkey => ⟨hkey.symm, rfl⟩

theorem parallel_pushWidget_iff (h : s.Parallel) (widget : Widget K)
    (decorator : Option (GridItem K → GridItem K)) :
    (s.pushWidget widget decorator).Parallel ↔ KeepsKey widget decorator := by
  rw [← key_decorated_iff]
  unfold Parallel pushWidget at *
  rw [List.map_append, ← h, List.append_cancel_left_eq, List.map_singleton,
    List.singleton_inj]
  exact eq_comm

theorem Parallel.pushWidgets (h : s.Parallel) (widgets : List (Widget K)) :
    (s.pushWidgets widgets).Parallel := by
  unfold Parallel at *
  rw [items_pushWidgets, List.map_append, keys_gridItems, ← h]
  rfl

/-- Widgets put in front at once have their items there in the opposite order. -/
theorem parallel_unshiftWidgets_iff (h : s.Parallel) (widgets : List (Widget K)) :
    (s.unshiftWidgets widgets).Parallel ↔
      (widgets.map Widget.key).reverse = widgets.map Widget.key := by
  unfold Parallel at *
  rw [items_unshiftWidgets, List.map_append, List.map_reverse, keys_gridItems, ← h]
  change widgets.map Widget.key ++ s.keys = _ ↔ _
  rw [List.append_cancel_right_eq]
  exact eq_comm

theorem Parallel.pushItems (h : s.Parallel) (items : List (GridItem K)) :
    (s.pushItems items).Parallel := by
  unfold Parallel ManagedGrid.pushItems at *
  rw [List.map_append, ← h]

theorem Parallel.pushItem (h : s.Parallel) (item : GridItem K) : (s.pushItem item).Parallel :=
  h.pushItems [item]

theorem parallel_empty : ({} : ManagedGrid K).Parallel :=
  rfl

end ManagedGrid

variable [DecidableEq K]

/-- An operation on a grid.  Behind `filter` the sequence goes on with the new grid; it
leaves the old one as it is. -/
def ManagedGrid.step (looseEquals : K → K → Bool) (s : ManagedGrid K) :
    GridOperation K → Option (ManagedGrid K)
  | .unshiftWidget widget decorator => some (s.unshiftWidget widget decorator)
  | .pushWidget widget decorator => some (s.pushWidget widget decorator)
  | .pushWidgets widgets => some (s.pushWidgets widgets)
  | .unshiftWidgets widgets => some (s.unshiftWidgets widgets)
  | .replaceWidget widget => some (s.replaceWidget widget)
  | .arrangeWidgets keys => some (s.arrangeWidgets keys)
  | .setWidgets widgets => some (s.setWidgets widgets)
  | .removeWidget widget => some (s.removeWidget widget)
  | .unshiftItem item => some (s.unshiftItem item)
  | .pushItem item => some (s.pushItem item)
  | .pushItems items => some (s.pushItems items)
  | .replaceItem item => some (s.replaceItem item)
  | .setItems items => some (s.setItems items)
  | .removeItem item => some (s.removeItem item)
  | .removeIndex index => some (s.removeIndex index)
  | .removeKey key => some (s.removeKey key)
  | .filter passes => s.filter looseEquals passes
  | .clear => some s.clear

/-- Removing a key that is there removes the first item that has it, and no other. -/
def ManagedGrid.RemovesFirst (s : ManagedGrid K) : Prop :=
  ∀ key ∈ s.keys, ∃ before item after, s.items = before ++ item :: after ∧ item.key = key ∧
    (∀ other ∈ before, other.key ≠ key) ∧ (s.removeKey key).items = before ++ after

namespace ManagedGrid

variable {s t : ManagedGrid K} {looseEquals : K → K → Bool}

theorem Parallel.removeKey (h : s.Parallel) (key : K) : (s.removeKey key).Parallel := by
  unfold ManagedGrid.removeKey
  split
  · exact h
  · exact h.removeIndex _

/-- A step from parallel keys leads to parallel keys exactly if the operation keeps them. -/
theorem parallel_step_iff {operation : GridOperation K} (h : s.Parallel)
    (hstep : s.step looseEquals operation = some t) : t.Parallel ↔ operation.KeepsKeys := by
  cases operation with
  | unshiftWidget widget decorator =>
      cases hstep
      exact parallel_unshiftWidget_iff h widget decorator
  | pushWidget widget decorator =>
      cases hstep
      exact parallel_pushWidget_iff h widget decorator
  | unshiftWidgets widgets =>
      cases hstep
      exact parallel_unshiftWidgets_iff h widgets
  | pushWidgets widgets =>
      cases hstep
      exact iff_of_true (h.pushWidgets widgets) trivial
  | replaceWidget widget =>
      cases hstep
      exact iff_of_true ((parallel_pushWidget_iff (h.removeKey widget.key) widget none).mpr trivial)
        trivial
  | arrangeWidgets keys =>
      cases hstep
      exact iff_of_true (parallel_empty.pushWidgets _) trivial
  | setWidgets widgets =>
      cases hstep
      exact iff_of_true (parallel_empty.pushWidgets widgets) trivial
  | removeWidget widget =>
      cases hstep
      exact iff_of_true (h.removeKey widget.key) trivial
  | unshiftItem item =>
      cases hstep
      refine iff_of_true ?_ trivial
      unfold Parallel unshiftItem at *
      rw [List.map_cons, ← h]
  | pushItem item =>
      cases hstep
      exact iff_of_true (h.pushItem item) trivial
  | pushItems items =>
      cases hstep
      exact iff_of_true (h.pushItems items) trivial
  | replaceItem item =>
      cases hstep
      exact iff_of_true ((h.removeKey item.key).pushItem item) trivial
  | setItems items =>
      cases hstep
      exact iff_of_true (parallel_empty.pushItems items) trivial
  | removeItem item =>
      cases hstep
      exact iff_of_true (h.removeKey item.widget.key) trivial
  | removeIndex index =>
      cases hstep
      exact iff_of_true (h.removeIndex index) trivial
  | removeKey key =>
      cases hstep
      exact iff_of_true (h.removeKey key) trivial
  | filter passes =>
      simp only [ManagedGrid.step, ManagedGrid.filter, Option.map_eq_some_iff] at hstep
      obtain ⟨widgets, -, rfl⟩ := hstep
      exact iff_of_true (parallel_empty.pushWidgets widgets) trivial
  | clear =>
      cases hstep
      exact iff_of_true parallel_empty trivial

/-! ## Removing a key -/

/-- While the keys are those of the items, removing a key removes the first item that has
it. -/
theorem removeKey_removesFirst (h : s.Parallel) : s.RemovesFirst := by
  intro key hmem
  obtain ⟨index, hindex⟩ : ∃ index, s.keys.findIdx? (· = key) = some index := by
    rw [← Option.isSome_iff_exists, List.findIdx?_isSome, List.any_eq_true]
    exact ⟨key, hmem, decide_eq_true rfl⟩
  obtain ⟨hlt, hkey, hbefore⟩ := List.findIdx?_eq_some_iff_getElem.mp hindex
  have hitems : index < s.items.length := by
    rwa [h, List.length_map] at hlt
  have hat : ∀ (i : Nat) (hi : i < s.keys.length) (hi' : i < s.items.length),
      s.keys[i] = s.items[i].key := by
    intro i hi hi'
    simp only [show s.keys = s.items.map GridItem.key from h, List.getElem_map]
  refine ⟨s.items.take index, s.items[index], s.items.drop (index + 1), ?_, ?_, ?_, ?_⟩
  · rw [List.getElem_cons_drop, List.take_append_drop]
  · rw [← hat index hlt hitems]
    exact of_decide_eq_true hkey
  · intro other hother
    obtain ⟨position, hposition, rfl⟩ := List.mem_iff_getElem.mp hother
    have hearlier : position < index := by
      rw [List.length_take] at hposition
      omega
    have hne := hbefore position hearlier
    rw [List.getElem_take, ← hat position (hearlier.trans hlt) (hearlier.trans hitems)]
    exact of_decide_eq_false (Bool.eq_false_iff.mpr hne)
  · unfold ManagedGrid.removeKey
    rw [hindex]
    exact List.eraseIdx_eq_take_drop_succ s.items index

end ManagedGrid

/-! ## The keys of a sequence of operations -/

/-- In a sequence of operations on a new grid the keys are always those of the items, and
removing a key removes the first item that has it, exactly if every operation keeps the
keys. -/
theorem keysParallel_iff (looseEquals : K → K → Bool) (operations : List (GridOperation K))
    {s : ManagedGrid K} (hrun : run (ManagedGrid.step looseEquals) {} operations = some s) :
    Always (ManagedGrid.step looseEquals) {} operations (fun t => t.Parallel ∧ t.RemovesFirst) ↔
      ∀ operation ∈ operations, operation.KeepsKeys := by
  rw [← eachStep_iff_forall hrun]
  have hiff : Always (ManagedGrid.step looseEquals) {} operations ManagedGrid.Parallel ↔
      EachStep (ManagedGrid.step looseEquals) {} operations fun _ => GridOperation.KeepsKeys :=
    always_iff_eachStep ManagedGrid.parallel_empty hrun
      fun u operation v hparallel hstep => ManagedGrid.parallel_step_iff hparallel hstep
  rw [← hiff]
  constructor
  · exact fun h => h.mono fun t ht => ht.1
  · exact fun h => h.mono fun t ht => ⟨ht, ManagedGrid.removeKey_removesFirst ht⟩

/-- Widgets pushed, one of them replaced, an item with a key of its own removed. -/
theorem keysParallel_iff_pushed :
    Always (ManagedGrid.step (· == ·)) ({} : ManagedGrid Nat)
        [.pushWidgets [⟨1, 10⟩, ⟨2, 20⟩], .replaceWidget ⟨3, 10⟩,
          .pushItem (gridItem ⟨4, 40⟩ (some 5)), .removeKey 5]
        (fun t => t.Parallel ∧ t.RemovesFirst) ↔
      ∀ operation ∈ ([.pushWidgets [⟨1, 10⟩, ⟨2, 20⟩], .replaceWidget ⟨3, 10⟩,
          .pushItem (gridItem ⟨4, 40⟩ (some 5)), .removeKey 5] : List (GridOperation Nat)),
        operation.KeepsKeys :=
  keysParallel_iff (· == ·) _ rfl

/-- Of two widgets that are put in front at once, removing the first one's key removes the
second one. -/
theorem unshiftWidgets_removes_wrong :
    ∃ s : ManagedGrid Nat,
      run (ManagedGrid.step (· == ·)) {} [.unshiftWidgets [⟨1, 10⟩, ⟨2, 20⟩]] = some s ∧
      s.keys = [10, 20] ∧ s.items.map GridItem.key = [20, 10] ∧
      (s.removeKey 10).items = [⟨⟨1, 10⟩, 10⟩] ∧ ¬ (s.Parallel ∧ s.RemovesFirst) := by
  refine ⟨_, rfl, rfl, rfl, rfl, fun h => ?_⟩
  have hkeys : [10, 20] = [20, 10] := h.1
  revert hkeys
  decide

end ArtPlatform.Web
