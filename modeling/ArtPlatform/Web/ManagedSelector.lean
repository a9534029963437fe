import ArtPlatform.Foundation.CallStack
import ArtPlatform.Web.Property

/-!
# The managed selector

The selected value and the selected index are two properties, and each one's consumer sets
the other; the list of available values is replaced beside them.

Main results:

- Theorem `ends_of_available`: the value of an available item leads to an index at which it
  is.
- Theorem `selector_consistent_iff`: the available value at the selected index is the
  selected one in every state exactly if it is at first, and no value that is not available
  is selected while the first index is.
- Theorem `unavailable_value_at_first_index`: such a value stays selected.
-/

namespace ArtPlatform.Web

open EventRun CallStack

/-- The value of the item that `itemFactory` makes of a value, and the truth of a defined
value. -/
structure SelectorProperties (α : Type) where
  itemValue : Option α → Option α
  truthy : α → Bool

/-- The items are known by their values; `undefined` is `none`. -/
structure ManagedSelector (α : Type) where
  items : List (Option α)
  selectedIndex : Property Nat
  selected : Property α
deriving DecidableEq, Repr

inductive SelectorOperation (α : Type)
  | select (value : Option α)
  | selectIndex (index : Nat)
  | reset
  | setAvailableValues (values : List (Option α))
deriving DecidableEq, Repr

/-- The setters of the two properties, their consumers, and the methods. -/
inductive SelectorCall (α : Type)
  | setSelectedIndex (index : Nat)
  | consumeIndex (index : Nat)
  | setSelected (value : Option α)
  | consumeSelected (value : Option α)
  | select (value : Option α)
  | setAvailableValues (values : List (Option α))
deriving DecidableEq, Repr

namespace ManagedSelector

variable {α : Type} [DecidableEq α]

/-- `Math.max(findIndex(equal to the value), 0)` -/
def indexOf (items : List (Option α)) (value : Option α) : Nat :=
  (items.findIdx? (· = value)).getD 0

/-- The constructor of the configuration, which throws without available values. -/
def configuration (p : SelectorProperties α) (available : List (Option α))
    (selected : Option α) : ManagedSelector α :=
  let items := available.map p.itemValue
  match selected with
  | none =>
      { items := items, selectedIndex := { value := some 0 },
        selected := { value := available.headD none } }
  | some value =>
      { items := items
        selectedIndex := { value := some (if p.truthy value then indexOf items selected else 0) }
        selected := { value := selected } }

/-- One call with the calls that it makes; an index without an item throws. -/
def call (p : SelectorProperties α) (s : ManagedSelector α) :
    SelectorCall α → Option (ManagedSelector α × List (SelectorCall α))
  | .setSelectedIndex index =>
      let (property, told) := s.selectedIndex.set (some index)
      some ({ s with selectedIndex := property }, if told then [.consumeIndex index] else [])
  | .consumeIndex index =>
      match s.items[index]? with
      | none => none
      | some value => some (s, [.setSelected value])
  | .setSelected value =>
      let (property, told) := s.selected.set value
      some ({ s with selected := property }, if told then [.consumeSelected value] else [])
  | .consumeSelected value =>
      let index := indexOf s.items value
      if s.selectedIndex.value = some index then some (s, [])
      else some (s, [.setSelectedIndex index])
  | .select value =>
      match value with
      | none => some (s, [])
      | some value => some (s, [.setSelected (some value)])
  | .setAvailableValues values =>
      let replaced := { s with items := values.map p.itemValue }
      match s.selected.value with
      | none => some (replaced, [.setSelectedIndex 0, .setSelected (values.headD none)])
      | some selected =>
          let index := indexOf values (some selected)
          if s.selectedIndex.value = some index then
            some (replaced, [.setSelected (values[index]?.getD none)])
          else some (replaced, [.setSelectedIndex index])

/-- An operation with all its calls, which are fewer than twenty. -/
def perform (p : SelectorProperties α) (s : ManagedSelector α) :
    SelectorOperation α → Option (ManagedSelector α)
  | .select value => exec (call p) 20 s [.select value]
  | .selectIndex index => exec (call p) 20 s [.setSelectedIndex index]
  | .reset => exec (call p) 20 s [.setSelectedIndex 0]
  | .setAvailableValues values => exec (call p) 20 s [.setAvailableValues values]

end ManagedSelector

/-! ## Consistent selections -/

namespace ManagedSelector

variable {α : Type}

/-- The selected index is in range, and the available value there is the selected one. -/
def Consistent (s : ManagedSelector α) : Prop :=
  ∃ index, s.selectedIndex.value = some index ∧ s.items[index]? = some s.selected.value

/-- Indexes are selected in range, and lists are not empty. -/
def InRange (s : ManagedSelector α) : SelectorOperation α → Prop
  | .selectIndex index => index < s.items.length
  | .setAvailableValues values => values ≠ []
  | _ => True

/-- The selected value of a new selector is none, or the first available one, or any
available one that is truthy. -/
def Starts (p : SelectorProperties α) (available : List (Option α)) (selected : Option α) :
    Prop :=
  ∀ value, selected = some value →
    available.head? = some selected ∨ p.truthy value = true ∧ selected ∈ available

/-- A value that is not available must not be selected while the first index is. -/
def KeepsConsistent (s : ManagedSelector α) : SelectorOperation α → Prop
  | .select value =>
      value = none ∨ value ∈ s.items ∨ s.selectedIndex.value ≠ some 0
  | _ => True

instance (s : ManagedSelector α) : (operation : SelectorOperation α) →
    Decidable (s.InRange operation)
  | .selectIndex index => inferInstanceAs (Decidable (index < s.items.length))
  | .setAvailableValues values =>
      match values with
      | [] => .isFalse fun h => h rfl
      | _ :: _ => .isTrue (List.cons_ne_nil _ _)
  | .select _ | .reset => .isTrue trivial

/-- The items, the selected index and the selected value of a state. -/
structure Holds (s : ManagedSelector α) (items : List (Option α)) (index : Nat)
    (value : Option α) : Prop where
  items : s.items = items
  index : s.selectedIndex.value = some index
  value : s.selected.value = value

/-- The state is consistent with these items. -/
def Lands (items : List (Option α)) (s : ManagedSelector α) : Prop :=
  ∃ index value, s.Holds items index value ∧ items[index]? = some value

theorem Lands.consistent {items : List (Option α)} {s : ManagedSelector α}
    (h : Lands items s) : s.Consistent := by
  obtain ⟨index, value, hs, hitem⟩ := h
  exact ⟨index, hs.index, by rw [hs.items, hs.value, hitem]⟩

/-- There are items, and an index is selected. -/
def Ready (s : ManagedSelector α) : Prop :=
  s.items ≠ [] ∧ s.selectedIndex.value.isSome = true

theorem Holds.ready {items : List (Option α)} {s : ManagedSelector α} {index : Nat}
    {value : Option α} (h : s.Holds items index value) (hne : items ≠ []) : s.Ready := by
  rw [Ready, h.items, h.index]
  exact ⟨hne, rfl⟩

theorem Holds.consistent_iff {items : List (Option α)} {s : ManagedSelector α} {index : Nat}
    {selected : Option α} (h : s.Holds items index selected) :
    s.Consistent ↔ items[index]? = some selected := by
  constructor
  · intro ⟨index', hindex, hitem⟩
    cases h.index.symm.trans hindex
    rwa [h.items, h.value] at hitem
  · exact fun hitem => Lands.consistent ⟨index, selected, h, hitem⟩

theorem Lands.ready {items : List (Option α)} {s : ManagedSelector α} (h : Lands items s)
    (hne : items ≠ []) : s.Ready := by
  obtain ⟨index, value, hs, -⟩ := h
  exact hs.ready hne

/-! ## Indexes -/

variable [DecidableEq α] {items : List (Option α)} {value : Option α}

theorem indexOf_of_mem (h : value ∈ items) : items[indexOf items value]? = some value := by
  cases hfind : items.findIdx? (· = value) with
  | none =>
      have hnot := List.findIdx?_eq_none_iff.mp hfind value h
      simp at hnot
  | some index =>
      obtain ⟨hlt, hvalue, -⟩ := List.findIdx?_eq_some_iff_getElem.mp hfind
      rw [indexOf, hfind, Option.getD_some, List.getElem?_eq_getElem hlt]
      exact congrArg some (of_decide_eq_true hvalue)

theorem indexOf_of_notMem (h : value ∉ items) : indexOf items value = 0 := by
  have hnone : items.findIdx? (· = value) = none := by
    rw [List.findIdx?_eq_none_iff]
    intro item hitem
    exact decide_eq_false fun hsame => h (hsame ▸ hitem)
  rw [indexOf, hnone, Option.getD_none]

theorem indexOf_lt (hne : items ≠ []) (value : Option α) :
    indexOf items value < items.length := by
  by_cases h : value ∈ items
  · exact (List.getElem?_eq_some_iff.mp (indexOf_of_mem h)).1
  · rw [indexOf_of_notMem h]
    exact List.length_pos_of_ne_nil hne

/-- The value at the index that is found leads to this index. -/
theorem indexOf_found {found : Option α} (h : items[indexOf items value]? = some found) :
    indexOf items found = indexOf items value := by
  by_cases hmem : value ∈ items
  · rw [indexOf_of_mem hmem] at h
    rw [Option.some.inj h]
  · rw [indexOf_of_notMem hmem] at h ⊢
    cases items with
    | nil => cases h
    | cons item items =>
        cases h
        simp [indexOf, List.findIdx?_cons]

/-! ## The calls -/

variable {p : SelectorProperties α} {s t : ManagedSelector α} {index bound : Nat}
  {selected : Option α} {post : ManagedSelector α → Prop}

attribute [local simp] call in
theorem ends_same_index (h : s.Holds items index selected) :
    Ends (call p) 1 s [.setSelectedIndex index] fun t => t.Holds items index selected := by
  have hcall : call p s (.setSelectedIndex index) =
      some ({ s with selectedIndex := s.selectedIndex.keep (some index) }, []) := by
    simp [Property.set_same h.index]
  exact ends_leaf hcall ⟨h.items, rfl, h.value⟩

/-- Another index in range: its consumer sets the value there. -/
theorem ends_other_index {index' : Nat} (h : s.Holds items index selected)
    (hne : index' ≠ index) (hitem : items[index']? = some value)
    (hinner : ∀ t : ManagedSelector α, t.Holds items index' selected →
      Ends (call p) bound t [.setSelected value] post) :
    Ends (call p) (bound + 2) s [.setSelectedIndex index'] post := by
  have hcall : call p s (.setSelectedIndex index') =
      some ({ s with selectedIndex := s.selectedIndex.commit false (some index') },
        [.consumeIndex index']) := by
    simp [call, Property.set_other h.index hne]
  have htaken : Holds { s with selectedIndex := s.selectedIndex.commit false (some index') }
      items index' selected :=
    ⟨h.items, rfl, h.value⟩
  refine ends_of_inner hcall (ends_of_inner ?_ (hinner _ htaken))
  simp only [call, h.items, hitem]

theorem ends_same_value {v : α} (h : s.Holds items index (some v)) :
    Ends (call p) 1 s [.setSelected (some v)] fun t => t.Holds items index (some v) := by
  have hcall : call p s (.setSelected (some v)) =
      some ({ s with selected := s.selected.keep (some v) }, []) := by
    simp [call, Property.set_same h.value]
  exact ends_leaf hcall ⟨h.items, h.index, rfl⟩

/-- A value is assigned: it is the selected one, or its consumer is called. -/
theorem ends_value (h : s.Holds items index selected)
    (hsame : value = selected → ∀ t : ManagedSelector α, t.Holds items index selected → post t)
    (hinner : ∀ t : ManagedSelector α, t.Holds items index value →
      Ends (call p) bound t [.consumeSelected value] post) :
    Ends (call p) (bound + 1) s [.setSelected value] post := by
  by_cases hkept : value = selected → value = none
  · rw [← h.value] at hkept
    obtain ⟨initial, hset⟩ := Property.set_told hkept
    have hcall : call p s (.setSelected value) =
        some ({ s with selected := s.selected.commit initial value },
          [.consumeSelected value]) := by
      simp [call, hset]
    exact ends_of_inner hcall (hinner _ ⟨h.items, h.index, rfl⟩)
  · obtain ⟨heq, hdefined⟩ := Classical.not_imp.mp hkept
    obtain ⟨v, rfl⟩ := Option.ne_none_iff_exists'.mp hdefined
    subst heq
    exact ((ends_same_value h).weaken (hsame rfl)).mono (by omega)

theorem ends_consume_same (h : s.Holds items index selected) (hsame : indexOf items value = index) :
    Ends (call p) 1 s [.consumeSelected value] fun t => t.Holds items index selected := by
  have hcall : call p s (.consumeSelected value) = some (s, []) := by
    simp only [call, h.items, h.index, hsame, if_true]
  exact ends_leaf hcall h

theorem ends_consume_other (h : s.Holds items index selected)
    (hne : indexOf items value ≠ index)
    (hinner : Ends (call p) bound s [.setSelectedIndex (indexOf items value)] post) :
    Ends (call p) (bound + 1) s [.consumeSelected value] post := by
  refine ends_of_inner ?_ hinner
  have hother : some index ≠ some (indexOf items value) := fun hsame =>
    hne (Option.some.inj hsame).symm
  simp only [call, h.items, h.index, if_neg hother]

/-- The value of an item, at the index that is found for it. -/
theorem ends_found (h : s.Holds items index selected) (hitem : items[index]? = some value)
    (hfound : indexOf items value = index) :
    Ends (call p) 2 s [.setSelected value] (Lands items) := by
  refine ends_value h ?_ fun t ht => ?_
  · intro hsame t ht
    exact ⟨index, selected, ht, hsame ▸ hitem⟩
  · refine (ends_consume_same ht hfound).weaken fun u hu => ?_
    exact ⟨index, value, hu, hitem⟩

/-- The value of the item at the index, which may be found at another index first. -/
theorem ends_of_item (h : s.Holds items index selected) (hitem : items[index]? = some value) :
    Ends (call p) 6 s [.setSelected value] (Lands items) := by
  refine ends_value h ?_ fun t ht => ?_
  · intro hsame t ht
    exact ⟨index, selected, ht, hsame ▸ hitem⟩
  · by_cases hfound : indexOf items value = index
    · refine ((ends_consume_same ht hfound).weaken fun u hu => ?_).mono (by omega)
      exact ⟨index, value, hu, hitem⟩
    · have hfirst := indexOf_of_mem (List.mem_of_getElem? hitem)
      refine ends_consume_other ht hfound (ends_other_index ht hfound hfirst fun u hu => ?_)
      exact ends_found hu hfirst rfl

/-- An index in range. -/
theorem ends_index {index' : Nat} (h : s.Holds items index selected)
    (hrange : index' < items.length) (hne : index' ≠ index) :
    Ends (call p) 8 s [.setSelectedIndex index'] (Lands items) := by
  have hitem := List.getElem?_eq_getElem hrange
  exact ends_other_index h hne hitem fun t ht => ends_of_item ht hitem

/-- Another value: it stays selected at an index where it leads, else another index is
selected with the value there. -/
theorem ends_other_value (hne : items ≠ []) (h : s.Holds items index selected)
    (hother : value ≠ selected) :
    Ends (call p) 10 s [.setSelected value] fun t =>
      if indexOf items value = index then t.Holds items index value else Lands items t := by
  refine ends_value h (fun hsame => absurd hsame hother) fun t ht => ?_
  by_cases hfound : indexOf items value = index
  · refine ((ends_consume_same ht hfound).weaken fun u hu => ?_).mono (by omega)
    rwa [if_pos hfound]
  · simp only [if_neg hfound]
    exact ends_consume_other ht hfound (ends_index ht (indexOf_lt hne value) hfound)

/-- The value of an available item leads to an index at which it is. -/
theorem ends_of_available (h : s.Holds items index selected)
    (hitem : items[index]? = some selected) (hmem : value ∈ items) :
    Ends (call p) 10 s [.setSelected value] (Lands items) := by
  by_cases hsame : value = selected
  · rw [hsame]
    exact (ends_of_item h hitem).mono (by omega)
  · refine (ends_other_value (List.ne_nil_of_mem hmem) h hsame).weaken fun t ht => ?_
    by_cases hfound : indexOf items value = index
    · rw [if_pos hfound] at ht
      exact ⟨index, value, ht, hfound ▸ indexOf_of_mem hmem⟩
    · rwa [if_neg hfound] at ht

/-! ## Operations -/

/-- What is left of an operation: a consistent state stays consistent exactly under the
condition. -/
def Leaves (s : ManagedSelector α) (operation : SelectorOperation α) (t : ManagedSelector α) :
    Prop :=
  t.Ready ∧ (s.Consistent → (t.Consistent ↔ s.KeepsConsistent operation))

theorem ends_select (hne : items ≠ []) (h : s.Holds items index selected) (value : Option α) :
    Ends (call p) 20 s [.select value] (s.Leaves (.select value)) := by
  cases value with
  | none =>
      refine (ends_leaf rfl ⟨h.ready hne, fun hs => ?_⟩).mono (by omega)
      exact iff_of_true hs (.inl rfl)
  | some v =>
      refine ((ends_of_inner rfl ?_ : Ends (call p) 11 s _ _)).mono (by omega)
      by_cases hsame : some v = selected
      · -- the value is selected already
        subst hsame
        refine ((ends_same_value h).weaken fun t ht => ⟨ht.ready hne, fun hs => ?_⟩).mono (by omega)
        have hitem := h.consistent_iff.mp hs
        refine iff_of_true (ht.consistent_iff.mpr hitem) (.inr (.inl ?_))
        rw [h.items]
        exact List.mem_of_getElem? hitem
      · refine (ends_other_value hne h hsame).weaken fun t ht => ?_
        rw [Leaves, KeepsConsistent, h.items, h.index]
        by_cases hfound : indexOf items (some v) = index
        · rw [if_pos hfound] at ht
          refine ⟨ht.ready hne, fun _ => ht.consistent_iff.trans ?_⟩
          by_cases hmem : some v ∈ items
          · rw [← hfound]
            exact iff_of_true (indexOf_of_mem hmem) (.inr (.inl hmem))
          · -- no item has the value: it stays at the first index
            rw [← hfound, indexOf_of_notMem hmem]
            refine iff_of_false (fun hitem => hmem (List.mem_of_getElem? hitem)) ?_
            simp [hmem]
        · rw [if_neg hfound] at ht
          refine ⟨ht.ready hne, fun _ => iff_of_true ht.consistent (.inr ?_)⟩
          by_cases hmem : some v ∈ items
          · exact .inl hmem
          · rw [indexOf_of_notMem hmem] at hfound
            exact .inr fun hzero => hfound (Option.some.inj hzero).symm

theorem ends_selectIndex (hne : items ≠ []) (h : s.Holds items index selected) {index' : Nat}
    (hrange : index' < items.length) :
    Ends (call p) 20 s [.setSelectedIndex index'] fun t =>
      t.Ready ∧ (s.Consistent → t.Consistent) := by
  by_cases hsame : index' = index
  · subst hsame
    refine ((ends_same_index h).weaken fun t ht => ⟨ht.ready hne, fun hs => ?_⟩).mono (by omega)
    exact ht.consistent_iff.mpr (h.consistent_iff.mp hs)
  · refine ((ends_index h hrange hsame).weaken fun t ht => ?_).mono (by omega)
    exact ⟨ht.ready hne, fun _ => ht.consistent⟩

section

variable {values : List (Option α)}

omit [DecidableEq α] in
theorem holds_newItems (hmap : values.map p.itemValue = values)
    (h : s.Holds items index selected) :
    Holds { s with items := values.map p.itemValue } values index selected :=
  ⟨hmap, h.index, h.value⟩

/-- Nothing is selected: the first index and then the first of the new values are. -/
theorem ends_setAvailableValues_none (hmap : values.map p.itemValue = values) (hne : values ≠ [])
    (h : s.Holds items index none) :
    Ends (call p) 20 s [.setAvailableValues values] (Lands values) := by
  have htaken := holds_newItems hmap h
  obtain ⟨first, hfirst⟩ : ∃ first, values[0]? = some first :=
    ⟨_, List.getElem?_eq_getElem (List.length_pos_of_ne_nil hne)⟩
  have hhead : values.headD none = first := by
    rw [List.headD_eq_head?_getD, List.head?_eq_getElem?, hfirst, Option.getD_some]
  have hzero : indexOf values first = 0 := by
    cases values with
    | nil => cases hfirst
    | cons value values =>
        cases hfirst
        simp [indexOf, List.findIdx?_cons]
  have hcall : call p s (.setAvailableValues values) =
      some ({ s with items := values.map p.itemValue },
        [.setSelectedIndex 0] ++ [.setSelected first]) := by
    simp only [call, h.value, hhead]
    rfl
  have hreset : Ends (call p) 8 { s with items := values.map p.itemValue }
      [.setSelectedIndex 0] fun t => Lands values t ∨ t.Holds values 0 none := by
    by_cases hsame : 0 = index
    · subst hsame
      exact ((ends_same_index htaken).weaken fun t ht => .inr ht).mono (by omega)
    · exact (ends_index htaken (List.length_pos_of_ne_nil hne) hsame).weaken
        fun t ht => .inl ht
  have hassigned : ∀ t : ManagedSelector α, Lands values t ∨ t.Holds values 0 none →
      Ends (call p) 10 t [.setSelected first] (Lands values) := by
    intro t ht
    rcases ht with ⟨index', value, ht, hvalue⟩ | ht
    · exact ends_of_available ht hvalue (List.mem_of_getElem? hfirst)
    · exact (ends_found ht hfirst hzero).mono (by omega)
  exact (ends_of_inner hcall (hreset.append hassigned)).mono (by omega)

/-- A selected value is looked for in the new list, and its index is selected or the value at
the index that is selected already. -/
theorem ends_setAvailableValues_some (hmap : values.map p.itemValue = values) (hne : values ≠ [])
    {v : α} (h : s.Holds items index (some v)) :
    Ends (call p) 20 s [.setAvailableValues values] (Lands values) := by
  have htaken := holds_newItems hmap h
  obtain ⟨found, hfound⟩ : ∃ found, values[indexOf values (some v)]? = some found :=
    ⟨_, List.getElem?_eq_getElem (indexOf_lt hne (some v))⟩
  by_cases hsame : indexOf values (some v) = index
  · have hcall : call p s (.setAvailableValues values) =
        some ({ s with items := values.map p.itemValue }, [.setSelected found]) := by
      simp only [call, h.value, h.index, hsame, if_true]
      rw [← hsame, hfound]
      rfl
    rw [hsame] at hfound
    have hindex := (indexOf_found (hsame.symm ▸ hfound)).trans hsame
    exact (ends_of_inner hcall (ends_found htaken hfound hindex)).mono (by omega)
  · have hcall : call p s (.setAvailableValues values) =
        some ({ s with items := values.map p.itemValue },
          [.setSelectedIndex (indexOf values (some v))]) := by
      simp [call, h.value, h.index, Ne.symm hsame]
    exact (ends_of_inner hcall
      (ends_index htaken (indexOf_lt hne (some v)) hsame)).mono (by omega)

/-- Whatever was selected before, the new list leads to a consistent state. -/
theorem ends_setAvailableValues (hitem : ∀ value, p.itemValue value = value)
    (hne : values ≠ []) (h : s.Holds items index selected) :
    Ends (call p) 20 s [.setAvailableValues values] (Lands values) := by
  have hmap : values.map p.itemValue = values := by
    rw [funext hitem, List.map_id']
  cases selected with
  | none => exact ends_setAvailableValues_none hmap hne h
  | some v => exact ends_setAvailableValues_some hmap hne h

end

/-- An operation returns; a consistent state stays consistent exactly under its condition. -/
theorem perform_leaves (hitem : ∀ value, p.itemValue value = value) (hready : s.Ready)
    {operation : SelectorOperation α} (hrange : s.InRange operation) :
    ∃ t, perform p s operation = some t ∧ s.Leaves operation t := by
  obtain ⟨hne, hsome⟩ := hready
  obtain ⟨index, hindex⟩ := Option.isSome_iff_exists.mp hsome
  have h : s.Holds s.items index s.selected.value := ⟨rfl, hindex, rfl⟩
  cases operation with
  | select value => exact (ends_select hne h value).exec le_rfl
  | selectIndex index' =>
      refine ((ends_selectIndex hne h hrange).weaken fun t ht => ?_).exec le_rfl
      exact ⟨ht.1, fun hs => iff_of_true (ht.2 hs) trivial⟩
  | reset =>
      have hzero := List.length_pos_of_ne_nil hne
      refine ((ends_selectIndex hne h hzero).weaken fun t ht => ?_).exec le_rfl
      exact ⟨ht.1, fun hs => iff_of_true (ht.2 hs) trivial⟩
  | setAvailableValues values =>
      refine ((ends_setAvailableValues hitem hrange h).weaken fun t ht => ?_).exec le_rfl
      exact ⟨ht.ready hrange, fun _ => iff_of_true ht.consistent trivial⟩

variable {available : List (Option α)}

theorem configuration_items (hitem : ∀ value, p.itemValue value = value)
    (selected : Option α) : (configuration p available selected).items = available := by
  cases selected <;> simp [configuration, funext hitem]

theorem ready_configuration (hitem : ∀ value, p.itemValue value = value)
    (hne : available ≠ []) (selected : Option α) :
    (configuration p available selected).Ready := by
  rw [Ready, configuration_items hitem]
  cases selected with
  | none => exact ⟨hne, rfl⟩
  | some v => exact ⟨hne, rfl⟩

/-- The initial configuration is consistent unless its selected value is neither the first
available one nor found. -/
theorem consistent_configuration_iff (hitem : ∀ value, p.itemValue value = value)
    (hne : available ≠ []) (selected : Option α) :
    (configuration p available selected).Consistent ↔ Starts p available selected := by
  cases selected with
  | none =>
      refine iff_of_true ⟨0, rfl, ?_⟩ (fun value hvalue => nomatch hvalue)
      rw [configuration_items hitem]
      cases available with
      | nil => exact absurd rfl hne
      | cons value available => rfl
  | some v =>
      have h : (configuration p available (some v)).Holds available
          (if p.truthy v then indexOf available (some v) else 0) (some v) := by
        refine ⟨configuration_items hitem _, ?_, rfl⟩
        simp only [configuration, funext hitem, List.map_id']
      have hstarts : Starts p available (some v) ↔
          available[0]? = some (some v) ∨ p.truthy v = true ∧ some v ∈ available := by
        rw [Starts, List.head?_eq_getElem?]
        exact ⟨fun h => h v rfl, fun h value hvalue => Option.some.inj hvalue ▸ h⟩
      rw [h.consistent_iff, hstarts]
      by_cases htruthy : p.truthy v = true
      · rw [if_pos htruthy]
        by_cases hmem : some v ∈ available
        · exact iff_of_true (indexOf_of_mem hmem) (.inr ⟨htruthy, hmem⟩)
        · simp [indexOf_of_notMem hmem, hmem]
      · simp [htruthy]

end ManagedSelector

/-! ## Every state -/

/-- In every state that is reached, the selected index is in range and the available value
there is selected, exactly if the configuration starts so and each selection of a value
meets its condition. -/
theorem selector_consistent_iff {α : Type} [DecidableEq α] (p : SelectorProperties α)
    (hitem : ∀ value, p.itemValue value = value) (available : List (Option α))
    (hne : available ≠ []) (selected : Option α) (operations : List (SelectorOperation α))
    (hrange : EachStep (ManagedSelector.perform p)
      (ManagedSelector.configuration p available selected) operations ManagedSelector.InRange) :
    (∃ s, run (ManagedSelector.perform p)
        (ManagedSelector.configuration p available selected) operations = some s) ∧
      (Always (ManagedSelector.perform p) (ManagedSelector.configuration p available selected)
          operations ManagedSelector.Consistent ↔
        ManagedSelector.Starts p available selected ∧
          EachStep (ManagedSelector.perform p)
            (ManagedSelector.configuration p available selected) operations
            ManagedSelector.KeepsConsistent) := by
  have hready := ManagedSelector.ready_configuration hitem hne selected
  have hperform : ∀ (s t : ManagedSelector α) operation, s.Ready → s.InRange operation →
      ManagedSelector.perform p s operation = some t → s.Leaves operation t := by
    intro s t operation hs hoperation ht
    obtain ⟨u, hu, hleaves⟩ := ManagedSelector.perform_leaves hitem hs hoperation
    cases ht.symm.trans hu
    exact hleaves
  obtain ⟨s, hrun, -⟩ := exists_run_of_eachStep hready hrange fun s operation hs hoperation => by
    obtain ⟨t, ht, hleaves⟩ := ManagedSelector.perform_leaves hitem hs hoperation
    exact ⟨t, ht, hleaves.1⟩
  refine ⟨⟨s, hrun⟩, ?_⟩
  rw [← ManagedSelector.consistent_configuration_iff hitem hne]
  constructor
  · intro halways
    have hfirst := halways [] _ List.nil_prefix rfl
    refine ⟨hfirst, (always_iff_eachStep_of hfirst hready hrun hrange ?_ ?_).mp halways⟩
    · exact fun u operation v hu hoperation hv => (hperform u v operation hu hoperation hv).1
    · exact fun u operation v hu hoperation hconsistent hv =>
        (hperform u v operation hu hoperation hv).2 hconsistent
  · intro ⟨hfirst, heach⟩
    refine (always_iff_eachStep_of hfirst hready hrun hrange ?_ ?_).mpr heach
    · exact fun u operation v hu hoperation hv => (hperform u v operation hu hoperation hv).1
    · exact fun u operation v hu hoperation hconsistent hv =>
        (hperform u v operation hu hoperation hv).2 hconsistent

/-- A selector of numbers. -/
def numberSelector : SelectorProperties Nat where
  itemValue := id
  truthy := fun value => value != 0

/-- Three available values; another index, a value, a shorter list. -/
theorem selector_consistent_iff_numbers :
    (∃ s, run (ManagedSelector.perform numberSelector)
        (ManagedSelector.configuration numberSelector [some 10, some 20, some 30] (some 20))
        [.selectIndex 2, .select (some 10), .setAvailableValues [some 30]] = some s) ∧
      (Always (ManagedSelector.perform numberSelector)
          (ManagedSelector.configuration numberSelector [some 10, some 20, some 30] (some 20))
          [.selectIndex 2, .select (some 10), .setAvailableValues [some 30]]
          ManagedSelector.Consistent ↔
        ManagedSelector.Starts numberSelector [some 10, some 20, some 30] (some 20) ∧
          EachStep (ManagedSelector.perform numberSelector)
            (ManagedSelector.configuration numberSelector [some 10, some 20, some 30] (some 20))
            [.selectIndex 2, .select (some 10), .setAvailableValues [some 30]]
            ManagedSelector.KeepsConsistent) :=
  selector_consistent_iff numberSelector (fun _ => rfl) [some 10, some 20, some 30]
    (List.cons_ne_nil _ _) (some 20) [.selectIndex 2, .select (some 10),
      .setAvailableValues [some 30]] (eachStep_of_check rfl)

/-- A value that is not available stays selected, at the index of another value. -/
theorem unavailable_value_at_first_index :
    ∃ s, run (ManagedSelector.perform numberSelector)
        (ManagedSelector.configuration numberSelector [some 10, some 20] none)
        [.select (some 70)] = some s ∧
      s.selectedIndex.value = some 0 ∧ s.items[0]? = some (some 10) ∧
      s.selected.value = some 70 ∧ ¬ s.Consistent := by
  refine ⟨_, rfl, rfl, rfl, rfl, fun ⟨index, hindex, hitem⟩ => ?_⟩
  cases hindex
  cases hitem

end ArtPlatform.Web
