import ArtPlatform.Foundation.CallStack
import ArtPlatform.Web.Property

/-!
# The managed searcher

The selected indexes and the selected values are two properties, and each one's consumer
sets the other.  The setters are calls that make calls; an equal value ends them.

Main results:

- Theorem `settles_setSelectedIndexes`: where an assignment of the indexes comes to an end.
- Theorem `searcher_consistent_iff`: every call returns, and all of them leave the values at
  the selected indexes selected exactly if each one meets a condition on the state before.
- Theorem `unavailable_value_selected`: a value that is not available stays selected.
-/

namespace ArtPlatform.Web

open EventRun CallStack

/-- What the searcher is given: `comparator || equal`, the value of the item that
`itemFactory` makes of a value, and the test `value != undefined`. -/
structure SearcherProperties (V : Type) where
  comparator : V → V → Bool
  itemValue : V → V
  isDefined : V → Bool

/-- The items are known by their values. -/
structure ManagedSearcher (V : Type) where
  items : List V
  selectedIndexes : Property (List Nat)
  selected : Property (List V)
deriving DecidableEq, Repr

inductive SearcherOperation (V : Type)
  | select (values : List V)
  | selectIndexes (indexes : List Nat)
  | setAvailableValues (values : List V)
deriving DecidableEq, Repr

/-- The setters of the two properties, their consumers, and the method of the
configuration. -/
inductive SearcherCall (V : Type)
  | setSelectedIndexes (indexes : List Nat)
  | consumeIndexes (indexes : List Nat)
  | setSelected (values : List V)
  | consumeSelected (values : List V)
  | setAvailableValues (values : List V)
deriving DecidableEq, Repr

namespace ManagedSearcher

variable {V : Type} (p : SearcherProperties V)

/-- The defined values of the items at the indexes. -/
def valuesAt (items : List V) (indexes : List Nat) : List V :=
  (indexes.filterMap (items[·]?)).filter p.isDefined

/-- The indexes of the items that the comparator identifies with one of the values. -/
def indexesOf (items : List V) (values : List V) : List Nat :=
  (List.range items.length).filter fun index =>
    match items[index]? with
    | none => false
    | some item => values.any (p.comparator item)

/-- The index of the first such item, for each of the values that has one. -/
def firstIndexes (items : List V) (values : List V) : List Nat :=
  values.filterMap fun value => items.findIdx? fun item => p.comparator item value

/-- The constructor of the configuration. -/
def configuration (available : List V) (selected : Option (List V)) : ManagedSearcher V where
  items := available.map p.itemValue
  selectedIndexes := { value := some (firstIndexes p available (selected.getD [])) }
  selected := { value := some (selected.getD []) }

/-- The values `selectedIndexes.value` and `selected.value`. -/
def indexes (s : ManagedSearcher V) : List Nat :=
  s.selectedIndexes.value.getD []

def values (s : ManagedSearcher V) : List V :=
  s.selected.value.getD []

variable [DecidableEq V]

/-- One call with the calls that it makes; an index without an item throws. -/
def call (s : ManagedSearcher V) :
    SearcherCall V → Option (ManagedSearcher V × List (SearcherCall V))
  | .setSelectedIndexes indexes =>
      let (property, told) := s.selectedIndexes.set (some indexes)
      some ({ s with selectedIndexes := property },
        if told then [.consumeIndexes indexes] else [])
  | .consumeIndexes indexes =>
      if ∀ index ∈ indexes, index < s.items.length then
        some (s, [.setSelected (valuesAt p s.items indexes)])
      else none
  | .setSelected values =>
      let (property, told) := s.selected.set (some values)
      some ({ s with selected := property }, if told then [.consumeSelected values] else [])
  | .consumeSelected values => some (s, [.setSelectedIndexes (indexesOf p s.items values)])
  | .setAvailableValues values =>
      match s.selected.value with
      | none => none
      | some selectedValues =>
          let items := values.map p.itemValue
          some ({ s with items := items },
            [.setSelectedIndexes (firstIndexes p items selectedValues)])

/-- An operation with all its calls, which are fewer than sixteen. -/
def perform (s : ManagedSearcher V) : SearcherOperation V → Option (ManagedSearcher V)
  | .select values => exec (call p) 16 s [.setSelected values]
  | .selectIndexes indexes => exec (call p) 16 s [.setSelectedIndexes indexes]
  | .setAvailableValues values => exec (call p) 16 s [.setAvailableValues values]

end ManagedSearcher

/-! ## Consistent selections -/

section

variable {V : Type}

/-- The values at the indexes, all of them in range, are the given ones. -/
def Exactly (items : List V) (indexes : List Nat) (values : List V) : Prop :=
  indexes.map (items[·]?) = values.map some

instance [DecidableEq V] (items : List V) (indexes : List Nat) (values : List V) :
    Decidable (Exactly items indexes values) :=
  inferInstanceAs (Decidable (_ = _))

namespace ManagedSearcher

variable (p : SearcherProperties V)

/-- The selected values are the available values at the selected indexes. -/
def Consistent (s : ManagedSearcher V) : Prop :=
  Exactly s.items s.indexes s.values

instance [DecidableEq V] (s : ManagedSearcher V) : Decidable s.Consistent :=
  inferInstanceAs (Decidable (Exactly ..))

def InRange (s : ManagedSearcher V) : SearcherOperation V → Prop
  | .selectIndexes indexes => ∀ index ∈ indexes, index < s.items.length
  | _ => True

instance (s : ManagedSearcher V) : (operation : SearcherOperation V) →
    Decidable (s.InRange operation)
  | .selectIndexes indexes =>
      inferInstanceAs (Decidable (∀ index ∈ indexes, index < s.items.length))
  | .select _ | .setAvailableValues _ => .isTrue trivial

def AllDefined (items : List V) (indexes : List Nat) : Prop :=
  ∀ index ∈ indexes, ∀ value, items[index]? = some value → p.isDefined value = true

variable [DecidableEq V]

/-- The indexes are taken over if their values are selected already, else with those of all
items that the comparator identifies with one of theirs. -/
def settled (items : List V) (indexes : List Nat) (values : List V) : List Nat :=
  if valuesAt p items indexes = values then indexes
  else indexesOf p items (valuesAt p items indexes)

/-- Equal indexes end the update, so that the values at them have to be the given ones; other
indexes must not lead to an undefined value. -/
def Agrees (items : List V) (indexes : List Nat) (current : List Nat) (values : List V) : Prop :=
  if indexes = current then Exactly items current values
  else AllDefined p items (settled p items indexes values)

/-- The condition on an operation and the state before it. -/
def KeepsConsistent (s : ManagedSearcher V) : SearcherOperation V → Prop
  | .select values =>
      if values = s.values then s.Consistent
      else Agrees p s.items (indexesOf p s.items values) s.indexes values
  | .selectIndexes indexes => Agrees p s.items indexes s.indexes s.values
  | .setAvailableValues values =>
      Agrees p (values.map p.itemValue) (firstIndexes p (values.map p.itemValue) s.values)
        s.indexes s.values

end ManagedSearcher

end

namespace ManagedSearcher

variable {V : Type} {p : SearcherProperties V} {items values : List V} {indexes : List Nat}

/-! ## Indexes and values -/

theorem indexesOf_lt : ∀ index ∈ indexesOf p items values, index < items.length := by
  intro index hindex
  exact List.mem_range.mp (List.mem_filter.mp hindex).1

theorem firstIndexes_lt : ∀ index ∈ firstIndexes p items values, index < items.length := by
  intro index hindex
  obtain ⟨value, -, hfind⟩ := List.mem_filterMap.mp hindex
  exact (List.findIdx?_eq_some_iff_findIdx_eq.mp hfind).1

theorem mem_valuesAt {value : V} :
    value ∈ valuesAt p items indexes ↔
      (∃ index ∈ indexes, items[index]? = some value) ∧ p.isDefined value = true := by
  rw [valuesAt, List.mem_filter, List.mem_filterMap]

theorem mem_indexesOf {index : Nat} :
    index ∈ indexesOf p items values ↔
      ∃ item, items[index]? = some item ∧
        ∃ value ∈ values, p.comparator item value = true := by
  rw [indexesOf, List.mem_filter, List.mem_range]
  constructor
  · intro ⟨hlt, hany⟩
    rw [List.getElem?_eq_getElem hlt] at hany ⊢
    exact ⟨_, rfl, List.any_eq_true.mp hany⟩
  · intro ⟨item, hitem, hvalue⟩
    refine ⟨(List.getElem?_eq_some_iff.mp hitem).1, ?_⟩
    rw [hitem]
    exact List.any_eq_true.mpr hvalue

/-- Lists of indexes that the comparator finds are equal when they have the same members. -/
theorem indexesOf_congr {values' : List V}
    (h : ∀ index, index ∈ indexesOf p items values ↔ index ∈ indexesOf p items values') :
    indexesOf p items values = indexesOf p items values' := by
  refine List.filter_congr fun index hindex => ?_
  have hiff := h index
  simp only [indexesOf, List.mem_filter, hindex, true_and] at hiff
  exact Bool.eq_iff_iff.mpr hiff

/-- The indexes of all items like the values at some indexes are found again by the values
at them. -/
theorem indexesOf_valuesAt_indexesOf
    (hcomparator : Equivalence fun a b => p.comparator a b = true) :
    indexesOf p items (valuesAt p items (indexesOf p items (valuesAt p items indexes))) =
      indexesOf p items (valuesAt p items indexes) := by
  refine indexesOf_congr fun index => ?_
  rw [mem_indexesOf, mem_indexesOf]
  constructor
  · intro ⟨item, hitem, value, hvalue, hsame⟩
    obtain ⟨⟨index', hindex', hvalue'⟩, -⟩ := mem_valuesAt.mp hvalue
    obtain ⟨item', hitem', first, hfirst, hsame'⟩ := mem_indexesOf.mp hindex'
    cases hvalue'.symm.trans hitem'
    exact ⟨item, hitem, first, hfirst, hcomparator.trans hsame hsame'⟩
  · intro ⟨item, hitem, value, hvalue, hsame⟩
    refine ⟨item, hitem, value, ?_, hsame⟩
    obtain ⟨⟨index', hindex', hvalue'⟩, hdefined⟩ := mem_valuesAt.mp hvalue
    refine mem_valuesAt.mpr ⟨⟨index', ?_, hvalue'⟩, hdefined⟩
    exact mem_indexesOf.mpr ⟨value, hvalue', value, hvalue, hcomparator.refl value⟩

/-- The defined values at indexes in range are the values at them if all are defined. -/
theorem exactly_valuesAt_iff (hrange : ∀ index ∈ indexes, index < items.length) :
    Exactly items indexes (valuesAt p items indexes) ↔ AllDefined p items indexes := by
  induction indexes with
  | nil => exact iff_of_true rfl (fun index hindex => nomatch hindex)
  | cons index indexes ih =>
      have hlt := hrange index List.mem_cons_self
      have htail := ih fun index' hindex => hrange index' (List.mem_cons_of_mem index hindex)
      have hitem := List.getElem?_eq_getElem hlt
      by_cases hdefined : p.isDefined items[index] = true
      · have hvalues : valuesAt p items (index :: indexes) =
            items[index] :: valuesAt p items indexes := by
          simp [valuesAt, hitem, hdefined]
        rw [hvalues, Exactly, List.map_cons, List.map_cons, hitem, List.cons_eq_cons,
          and_iff_right rfl]
        refine htail.trans ⟨fun hall => ?_, fun hall index' hindex => ?_⟩
        · intro index' hindex value hvalue
          rcases List.mem_cons.mp hindex with rfl | hindex
          · cases hitem.symm.trans hvalue
            exact hdefined
          · exact hall index' hindex value hvalue
        · exact hall index' (List.mem_cons_of_mem index hindex)
      · -- the undefined value is left out
        refine iff_of_false (fun hexact => ?_) (fun hall => ?_)
        · have hvalues : valuesAt p items (index :: indexes) = valuesAt p items indexes := by
            simp [valuesAt, hitem, hdefined]
          have hlength := congrArg List.length hexact
          have hle : (valuesAt p items indexes).length ≤ indexes.length :=
            (List.length_filter_le ..).trans (List.length_filterMap_le ..)
          rw [hvalues, List.length_map, List.length_map, List.length_cons] at hlength
          omega
        · exact hdefined (hall index List.mem_cons_self items[index] hitem)

/-! ## The calls -/

variable {s t : ManagedSearcher V} {current : List Nat} {selected : List V}

/-- The items, the selected indexes and the selected values of a state. -/
structure Holds (s : ManagedSearcher V) (items : List V) (indexes : List Nat)
    (values : List V) : Prop where
  items : s.items = items
  indexes : s.selectedIndexes.value = some indexes
  values : s.selected.value = some values

/-- Both properties have a value. -/
def Ready (s : ManagedSearcher V) : Prop :=
  ∃ indexes values, s.Holds s.items indexes values

theorem ready_configuration (p : SearcherProperties V) (available : List V)
    (selected : Option (List V)) : (configuration p available selected).Ready :=
  ⟨_, _, rfl, rfl, rfl⟩

theorem Holds.consistent_iff (h : s.Holds items indexes values) :
    s.Consistent ↔ Exactly items indexes values := by
  rw [Consistent, ManagedSearcher.indexes, ManagedSearcher.values, h.items, h.indexes, h.values]
  rfl

variable [DecidableEq V]

/-- A call returns, with a bound on the calls that it takes, and leaves the state with these
items, indexes and values. -/
def Settles (p : SearcherProperties V) (bound : Nat) (s : ManagedSearcher V)
    (c : SearcherCall V) (items : List V) (indexes : List Nat) (values : List V) : Prop :=
  Ends (call p) bound s [c] fun t => t.Holds items indexes values

theorem settles_same_indexes (h : s.Holds items current selected) :
    Settles p 1 s (.setSelectedIndexes current) items current selected := by
  have hcall : call p s (.setSelectedIndexes current) =
      some ({ s with selectedIndexes := s.selectedIndexes.keep (some current) }, []) := by
    simp [call, Property.set_same h.indexes]
  exact ends_leaf hcall ⟨h.items, rfl, h.values⟩

theorem settles_same_values (h : s.Holds items current selected) :
    Settles p 1 s (.setSelected selected) items current selected := by
  have hcall : call p s (.setSelected selected) =
      some ({ s with selected := s.selected.keep (some selected) }, []) := by
    simp [call, Property.set_same h.values]
  exact ends_leaf hcall ⟨h.items, h.indexes, rfl⟩

/-- Other indexes: their consumer sets the values at them. -/
theorem settles_other_indexes {bound : Nat} {indexes' : List Nat} {values' : List V}
    (h : s.Holds items current selected) (hne : indexes ≠ current)
    (hrange : ∀ index ∈ indexes, index < items.length)
    (hinner : ∀ t : ManagedSearcher V, t.Holds items indexes selected →
      Settles p bound t (.setSelected (valuesAt p items indexes)) items indexes' values') :
    Settles p (bound + 2) s (.setSelectedIndexes indexes) items indexes' values' := by
  have hcall : call p s (.setSelectedIndexes indexes) =
      some ({ s with selectedIndexes := s.selectedIndexes.commit false (some indexes) },
        [.consumeIndexes indexes]) := by
    simp [call, Property.set_other h.indexes hne]
  have htaken : Holds { s with
      selectedIndexes := s.selectedIndexes.commit false (some indexes) } items indexes selected :=
    ⟨h.items, rfl, h.values⟩
  refine ends_of_inner hcall (ends_of_inner ?_ (hinner _ htaken))
  simp only [call, h.items, if_pos hrange]

/-- Other values: their consumer sets the indexes of the items like them. -/
theorem settles_other_values {bound : Nat} {indexes' : List Nat} {values' : List V}
    (h : s.Holds items current selected) (hne : values ≠ selected)
    (hinner : ∀ t : ManagedSearcher V, t.Holds items current values →
      Settles p bound t (.setSelectedIndexes (indexesOf p items values)) items indexes' values') :
    Settles p (bound + 2) s (.setSelected values) items indexes' values' := by
  have hcall : call p s (.setSelected values) =
      some ({ s with selected := s.selected.commit false (some values) },
        [.consumeSelected values]) := by
    simp [call, Property.set_other h.values hne]
  have htaken : Holds { s with selected := s.selected.commit false (some values) }
      items current values :=
    ⟨h.items, h.indexes, rfl⟩
  refine ends_of_inner hcall (ends_of_inner ?_ (hinner _ htaken))
  simp only [call, h.items]

/-- The values at the indexes of all items like some values end the update. -/
theorem settles_closed_values (hcomparator : Equivalence fun a b => p.comparator a b = true)
    (hclosed : current = indexesOf p items (valuesAt p items indexes))
    (h : s.Holds items current selected) :
    Settles p 3 s (.setSelected (valuesAt p items current)) items current
      (valuesAt p items current) := by
  by_cases hsame : valuesAt p items current = selected
  · rw [hsame]
    exact Ends.mono (settles_same_values h) (by omega)
  · refine settles_other_values h hsame fun t ht => ?_
    rw [hclosed, indexesOf_valuesAt_indexesOf hcomparator, ← hclosed]
    exact settles_same_indexes ht

/-- The values at the indexes just taken over. -/
theorem settles_values_at (hcomparator : Equivalence fun a b => p.comparator a b = true)
    (h : s.Holds items indexes selected) :
    Settles p 7 s (.setSelected (valuesAt p items indexes)) items
      (settled p items indexes selected) (valuesAt p items (settled p items indexes selected)) := by
  by_cases hsame : valuesAt p items indexes = selected
  · rw [settled, if_pos hsame, hsame]
    exact Ends.mono (settles_same_values h) (by omega)
  · rw [settled, if_neg hsame]
    refine settles_other_values h hsame fun t ht => ?_
    by_cases hclosed : indexesOf p items (valuesAt p items indexes) = indexes
    · rw [hclosed]
      exact Ends.mono (settles_same_indexes ht) (by omega)
    · refine settles_other_indexes ht hclosed indexesOf_lt fun u hu => ?_
      exact settles_closed_values hcomparator rfl hu

/-- Other indexes in range settle. -/
theorem settles_setSelectedIndexes
    (hcomparator : Equivalence fun a b => p.comparator a b = true)
    (h : s.Holds items current selected) (hrange : ∀ index ∈ indexes, index < items.length)
    (hne : indexes ≠ current) :
    Settles p 9 s (.setSelectedIndexes indexes) items
      (settled p items indexes selected) (valuesAt p items (settled p items indexes selected)) :=
  settles_other_indexes h hne hrange fun _ ht => settles_values_at hcomparator ht

theorem settled_lt (hrange : ∀ index ∈ indexes, index < items.length) :
    ∀ index ∈ settled p items indexes selected, index < items.length := by
  rw [settled]
  split
  · exact hrange
  · exact indexesOf_lt

/-! ## Operations -/

/-- A call returns, and the selected values are those at the selected indexes exactly under
a condition. -/
def ReturnsConsistent (p : SearcherProperties V) (bound : Nat) (s : ManagedSearcher V)
    (c : SearcherCall V) (condition : Prop) : Prop :=
  Ends (call p) bound s [c] fun t => t.Ready ∧ (t.Consistent ↔ condition)

theorem Settles.returnsConsistent {bound : Nat} {c : SearcherCall V} {condition : Prop}
    (h : Settles p bound s c items indexes values)
    (hiff : Exactly items indexes values ↔ condition) :
    ReturnsConsistent p bound s c condition := by
  refine h.weaken fun t ht => ⟨⟨indexes, values, rfl, ht.indexes, ht.values⟩, ?_⟩
  exact ht.consistent_iff.trans hiff

theorem returnsConsistent_setSelectedIndexes
    (hcomparator : Equivalence fun a b => p.comparator a b = true)
    (h : s.Holds items current selected) (hrange : ∀ index ∈ indexes, index < items.length) :
    ReturnsConsistent p 9 s (.setSelectedIndexes indexes)
      (Agrees p items indexes current selected) := by
  by_cases hsame : indexes = current
  · rw [Agrees, if_pos hsame, hsame]
    exact Settles.returnsConsistent (Ends.mono (settles_same_indexes h) (by omega)) Iff.rfl
  · rw [Agrees, if_neg hsame]
    exact (settles_setSelectedIndexes hcomparator h hrange hsame).returnsConsistent
      (exactly_valuesAt_iff (settled_lt hrange))

theorem returnsConsistent_setSelected
    (hcomparator : Equivalence fun a b => p.comparator a b = true)
    (h : s.Holds items current selected) :
    ReturnsConsistent p 11 s (.setSelected values)
      (if values = selected then Exactly items current selected
        else Agrees p items (indexesOf p items values) current values) := by
  by_cases hsame : values = selected
  · rw [if_pos hsame, hsame]
    exact Settles.returnsConsistent (Ends.mono (settles_same_values h) (by omega)) Iff.rfl
  · rw [if_neg hsame]
    have hcall : call p s (.setSelected values) =
        some ({ s with selected := s.selected.commit false (some values) },
          [.consumeSelected values]) := by
      simp [call, Property.set_other h.values hsame]
    have htaken : Holds { s with selected := s.selected.commit false (some values) }
        items current values :=
      ⟨h.items, h.indexes, rfl⟩
    have hconsumer : call p { s with selected := s.selected.commit false (some values) }
        (.consumeSelected values) =
          some ({ s with selected := s.selected.commit false (some values) },
            [.setSelectedIndexes (indexesOf p items values)]) := by
      simp only [call, h.items]
    exact ends_of_inner hcall (ends_of_inner hconsumer
      (returnsConsistent_setSelectedIndexes hcomparator htaken indexesOf_lt))

theorem returnsConsistent_setAvailableValues
    (hcomparator : Equivalence fun a b => p.comparator a b = true)
    (h : s.Holds items current selected) :
    ReturnsConsistent p 10 s (.setAvailableValues values)
      (Agrees p (values.map p.itemValue) (firstIndexes p (values.map p.itemValue) selected)
        current selected) := by
  have hcall : call p s (.setAvailableValues values) =
      some ({ s with items := values.map p.itemValue },
        [.setSelectedIndexes (firstIndexes p (values.map p.itemValue) selected)]) := by
    simp only [call, h.values]
  have htaken : Holds { s with items := values.map p.itemValue } (values.map p.itemValue)
      current selected :=
    ⟨rfl, h.indexes, h.values⟩
  exact ends_of_inner hcall
    (returnsConsistent_setSelectedIndexes hcomparator htaken firstIndexes_lt)

/-- An operation returns, and leaves a consistent state exactly under its condition. -/
theorem perform_consistent_iff (hcomparator : Equivalence fun a b => p.comparator a b = true)
    (hready : s.Ready) {operation : SearcherOperation V} (hrange : s.InRange operation) :
    ∃ t, perform p s operation = some t ∧ t.Ready ∧
      (t.Consistent ↔ s.KeepsConsistent p operation) := by
  obtain ⟨current, selected, h⟩ := hready
  have hindexes : s.indexes = current := by
    rw [ManagedSearcher.indexes, h.indexes, Option.getD_some]
  have hvalues : s.values = selected := by
    rw [ManagedSearcher.values, h.values, Option.getD_some]
  cases operation with
  | select values =>
      rw [KeepsConsistent, hindexes, hvalues, h.consistent_iff]
      exact Ends.exec (returnsConsistent_setSelected hcomparator h) (by omega)
  | selectIndexes indexes =>
      rw [KeepsConsistent, hindexes, hvalues]
      exact Ends.exec (returnsConsistent_setSelectedIndexes hcomparator h hrange) (by omega)
  | setAvailableValues values =>
      rw [KeepsConsistent, hindexes, hvalues]
      exact Ends.exec (returnsConsistent_setAvailableValues hcomparator h) (by omega)

end ManagedSearcher

/-! ## Every call -/

/-- Every call returns, and each leaves exactly the available values at the selected indexes
selected, all of them in range, exactly if each call meets its condition. -/
theorem searcher_consistent_iff {V : Type} [DecidableEq V] (p : SearcherProperties V)
    (hcomparator : Equivalence fun a b => p.comparator a b = true) (available : List V)
    (selected : Option (List V)) (operations : List (SearcherOperation V))
    (hrange : EachStep (ManagedSearcher.perform p)
      (ManagedSearcher.configuration p available selected) operations ManagedSearcher.InRange) :
    (∃ s, run (ManagedSearcher.perform p)
        (ManagedSearcher.configuration p available selected) operations = some s) ∧
      (EachStep (ManagedSearcher.perform p)
          (ManagedSearcher.configuration p available selected) operations
          (fun s operation => ∀ t, ManagedSearcher.perform p s operation = some t → t.Consistent) ↔
        EachStep (ManagedSearcher.perform p)
          (ManagedSearcher.configuration p available selected) operations
          (ManagedSearcher.KeepsConsistent p)) := by
  have hready := ManagedSearcher.ready_configuration p available selected
  constructor
  · obtain ⟨s, hrun, -⟩ := exists_run_of_eachStep hready hrange fun s operation hs hoperation => by
      obtain ⟨t, ht, hnext, -⟩ := ManagedSearcher.perform_consistent_iff hcomparator hs hoperation
      exact ⟨t, ht, hnext⟩
    exact ⟨s, hrun⟩
  · refine eachStep_congr hready hrange ?_ ?_
    · intro s operation t hs hoperation ht
      obtain ⟨u, hu, hnext, -⟩ := ManagedSearcher.perform_consistent_iff hcomparator hs hoperation
      cases ht.symm.trans hu
      exact hnext
    · intro s operation hs hoperation
      obtain ⟨t, ht, -, hiff⟩ := ManagedSearcher.perform_consistent_iff hcomparator hs hoperation
      rw [← hiff]
      constructor
      · exact fun h => h t ht
      · intro h u hu
        cases ht.symm.trans hu
        exact h

/-- A searcher of numbers, all of them defined, that are compared as they are. -/
def numberSearcher : SearcherProperties Nat where
  comparator := fun a b => a = b
  itemValue := id
  isDefined := fun _ => true

/-- Two available values, both selected, then other values. -/
theorem searcher_consistent_iff_numbers :
    (∃ s, run (ManagedSearcher.perform numberSearcher)
        (ManagedSearcher.configuration numberSearcher [10, 20] none)
        [.selectIndexes [1, 0], .setAvailableValues [20, 30]] = some s) ∧
      (EachStep (ManagedSearcher.perform numberSearcher)
          (ManagedSearcher.configuration numberSearcher [10, 20] none)
          [.selectIndexes [1, 0], .setAvailableValues [20, 30]]
          (fun s operation => ∀ t, ManagedSearcher.perform numberSearcher s operation = some t →
            t.Consistent) ↔
        EachStep (ManagedSearcher.perform numberSearcher)
          (ManagedSearcher.configuration numberSearcher [10, 20] none)
          [.selectIndexes [1, 0], .setAvailableValues [20, 30]]
          (ManagedSearcher.KeepsConsistent numberSearcher)) := by
  refine searcher_consistent_iff numberSearcher ?_ [10, 20] none _ ?_
  · refine ⟨fun a => ?_, fun h => ?_, fun h h' => ?_⟩
    · simp [numberSearcher]
    · simpa [numberSearcher] using (of_decide_eq_true h).symm
    · simpa [numberSearcher] using (of_decide_eq_true h).trans (of_decide_eq_true h')
  · exact eachStep_of_check rfl

/-- A value that is not available is selected while nothing is: no index changes. -/
theorem unavailable_value_selected :
    ∃ s, run (ManagedSearcher.perform numberSearcher)
        (ManagedSearcher.configuration numberSearcher [10, 20] none) [.select [70]] = some s ∧
      s.indexes = [] ∧ s.values = [70] ∧ ¬ s.Consistent :=
  ⟨_, rfl, rfl, rfl, by decide⟩

end ArtPlatform.Web
