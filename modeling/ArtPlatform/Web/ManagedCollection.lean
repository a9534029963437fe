import ArtPlatform.Foundation.EventRun
import Mathlib.Data.List.Nodup

/-!
# The managed collection

A collection adds, changes and deletes items.  Behind an addition and a change it looks for
an item that is not valid or has the value of the changed one; then nothing can be added and
only the changed item can be edited or deleted.

Main results:

- Theorem `Guarded.step`: every operation that is enabled keeps the items other than the
  excluded one valid and apart.
- Theorem `collection_sound_iff`: a collection is sound in every state that is reached
  exactly if the initial items before the last are valid and pairwise distinct.
- Theorem `invalid_item_admitted`: an invalid item before the last initial one.
-/

namespace ArtPlatform.Web

open EventRun

/-- What a collection is given.  The validator is true of a widget that is not valid; the
duplicate handler sets an error, which the validator may read. -/
structure CollectionProperties (W V : Type) where
  factory : Int → W
  validator : W → Bool
  valueExtractor : W → V
  duplicateHandler : Bool → W → W
  value_handled : ∀ duplicate w, valueExtractor (duplicateHandler duplicate w) = valueExtractor w
  passes_handled : ∀ w, validator w = false → validator (duplicateHandler false w) = false
  fails_handled : ∀ w, validator w = true → validator (duplicateHandler true w) = true

structure CollectionItem (W : Type) where
  id : Int
  widget : W
deriving DecidableEq, Repr

/-- The marked last item is known by its id, and so is the item that can still be edited
while editing is disabled. -/
structure ManagedCollection (W : Type) where
  items : List (CollectionItem W) := []
  last : Option Int := none
  additionDisabled : Bool := false
  deletionDisabled : Bool := false
  editingDisabled : Option Int := none
  sequence : Int
deriving DecidableEq, Repr

inductive CollectionOperation (W : Type)
  | add
  | change (id : Int) (widget : W)
  | delete (id : Int)
deriving DecidableEq, Repr

/-- The first number of `itemSequence`. -/
def firstId (ids : List Int) : Int :=
  (ids.find? fun id => ids.all fun lessThan => lessThan ≤ id).getD 0 + 1

/-- What stops the loop over the items: an invalid item, or a duplicate of the excepted
one. -/
inductive CollectionFinding
  | invalid
  | duplicate
deriving DecidableEq, Repr

namespace ManagedCollection

variable {W V : Type} [DecidableEq V] (p : CollectionProperties W V)

def inspect (except item : CollectionItem W) : Option CollectionFinding :=
  if p.validator item.widget then some .invalid
  else if item.id ≠ except.id ∧ p.valueExtractor except.widget = p.valueExtractor item.widget then
    some .duplicate
  else none

omit [DecidableEq V] in
/-- The duplicate handler of the item with an id. -/
def handle (duplicate : Bool) (id : Int) (items : List (CollectionItem W)) :
    List (CollectionItem W) :=
  items.map fun item =>
    if item.id = id then { item with widget := p.duplicateHandler duplicate item.widget } else item

def validateItemsExcept (s : ManagedCollection W) (except : CollectionItem W) :
    ManagedCollection W :=
  match s.items.findSome? (inspect p except) with
  | some finding => { s with
      items := if finding = .duplicate then handle p true except.id s.items else s.items
      additionDisabled := true
      editingDisabled := some except.id }
  | none => { s with
      items := handle p false except.id s.items
      additionDisabled := false
      editingDisabled := none }

def addItem (s : ManagedCollection W) (id : Int) : ManagedCollection W :=
  let newItem : CollectionItem W := ⟨id, p.factory id⟩
  validateItemsExcept p { s with items := s.items ++ [newItem], last := some id } newItem

def addNewItem (s : ManagedCollection W) : ManagedCollection W :=
  addItem p { s with sequence := s.sequence + 1 } s.sequence

/-- The widget of an item changes; its value consumer validates the others. -/
def changeItem (s : ManagedCollection W) (id : Int) (widget : W) : ManagedCollection W :=
  validateItemsExcept p
    { s with items := s.items.map fun item => if item.id = id then ⟨id, widget⟩ else item }
    ⟨id, widget⟩

def deleteItem (s : ManagedCollection W) (id : Int) : ManagedCollection W :=
  let enabled := { s with
    additionDisabled := false
    editingDisabled := if s.editingDisabled = some id then none else s.editingDisabled }
  if s.items.any fun item => item.id = id then
    let items := s.items.filter fun item => item.id ≠ id
    { enabled with items := items, last := items.getLast?.map CollectionItem.id }
  else enabled

/-- The constructor: the initial ids are added whether or not addition is enabled. -/
def construct (ids : List Int) : ManagedCollection W :=
  ids.foldl (addItem p) { sequence := firstId ids }

/-- An item can be edited and deleted if editing is enabled or excludes it. -/
def Editable (s : ManagedCollection W) (id : Int) : Prop :=
  id ∈ s.items.map CollectionItem.id ∧ (s.editingDisabled = none ∨ s.editingDisabled = some id)

instance (s : ManagedCollection W) (id : Int) : Decidable (s.Editable id) :=
  inferInstanceAs (Decidable (_ ∧ _))

/-- The operations that the buttons and the fields let through. -/
def step (s : ManagedCollection W) : CollectionOperation W → Option (ManagedCollection W)
  | .add => if s.additionDisabled then none else some (addNewItem p s)
  | .change id widget => if s.Editable id then some (changeItem p s id widget) else none
  | .delete id =>
      if s.Editable id ∧ s.deletionDisabled = false then some (deleteItem s id) else none

end ManagedCollection

/-- Ids are unique, the marker is on the last item, and addition is enabled only while all
items are valid and their values are pairwise distinct. -/
structure CollectionSound {W V : Type} (p : CollectionProperties W V) (s : ManagedCollection W) :
    Prop where
  ids : (s.items.map CollectionItem.id).Nodup
  last : s.last = (s.items.map CollectionItem.id).getLast?
  guard : s.additionDisabled = false → (∀ item ∈ s.items, p.validator item.widget = false) ∧
    (s.items.map fun item => p.valueExtractor item.widget).Nodup

/-! ## Fresh ids -/

theorem exists_greatest {ids : List Int} (h : ids ≠ []) :
    ∃ id ∈ ids, ∀ other ∈ ids, other ≤ id := by
  induction ids with
  | nil => exact absurd rfl h
  | cons first ids ih =>
      cases ids with
      | nil => exact ⟨first, List.mem_cons_self, by simp⟩
      | cons second rest =>
          obtain ⟨id, hid, hall⟩ := ih (List.cons_ne_nil _ _)
          by_cases hle : first ≤ id
          · refine ⟨id, List.mem_cons_of_mem _ hid, fun other hother => ?_⟩
            rcases List.mem_cons.mp hother with rfl | hother
            · exact hle
            · exact hall other hother
          · refine ⟨first, List.mem_cons_self, fun other hother => ?_⟩
            rcases List.mem_cons.mp hother with rfl | hother
            · exact Int.le_refl _
            · have := hall other hother
              omega

theorem lt_firstId {ids : List Int} {id : Int} (h : id ∈ ids) : id < firstId ids := by
  cases hfind : ids.find? fun id => ids.all fun lessThan => lessThan ≤ id with
  | none =>
      obtain ⟨greatest, hmem, hall⟩ := exists_greatest (List.ne_nil_of_mem h)
      refine absurd ?_ (List.find?_eq_none.mp hfind greatest hmem)
      exact List.all_eq_true.mpr fun other hother => decide_eq_true (hall other hother)
  | some greatest =>
      have hall := List.find?_some hfind
      have hle := of_decide_eq_true (List.all_eq_true.mp hall id h)
      rw [firstId, hfind, Option.getD_some]
      omega

namespace ManagedCollection

variable {W V : Type} {p : CollectionProperties W V} {s t : ManagedCollection W}
  {items : List (CollectionItem W)} {id : Int}

/-! ## The duplicate handler -/

theorem mem_handle {duplicate : Bool} {b : CollectionItem W} :
    b ∈ handle p duplicate id items ↔ ∃ a ∈ items,
      (if a.id = id then { a with widget := p.duplicateHandler duplicate a.widget } else a) = b :=
  List.mem_map

theorem ids_handle (duplicate : Bool) (id : Int) (items : List (CollectionItem W)) :
    (handle p duplicate id items).map CollectionItem.id = items.map CollectionItem.id := by
  rw [handle, List.map_map]
  refine List.map_congr_left fun item _ => ?_
  simp only [Function.comp_apply]
  split <;> rfl

theorem values_handle (duplicate : Bool) (id : Int) (items : List (CollectionItem W)) :
    ((handle p duplicate id items).map fun item => p.valueExtractor item.widget) =
      items.map fun item => p.valueExtractor item.widget := by
  rw [handle, List.map_map]
  refine List.map_congr_left fun item _ => ?_
  simp only [Function.comp_apply]
  split
  · exact p.value_handled duplicate item.widget
  · rfl

/-! ## Valid items apart -/

/-- All items but an excluded one are valid, and their values are pairwise distinct. -/
def CleanBut (p : CollectionProperties W V) (excluded : Option Int)
    (items : List (CollectionItem W)) : Prop :=
  ∀ a ∈ items, excluded ≠ some a.id → p.validator a.widget = false ∧
    ∀ b ∈ items, excluded ≠ some b.id → a.id ≠ b.id →
      p.valueExtractor a.widget ≠ p.valueExtractor b.widget

theorem CleanBut.mono {excluded excluded' : Option Int} {items' : List (CollectionItem W)}
    (h : CleanBut p excluded items)
    (himp : ∀ a ∈ items', excluded' ≠ some a.id → a ∈ items ∧ excluded ≠ some a.id) :
    CleanBut p excluded' items' := by
  intro a ha hnot
  obtain ⟨ha', hnot'⟩ := himp a ha hnot
  obtain ⟨hvalid, hapart⟩ := h a ha' hnot'
  refine ⟨hvalid, fun b hb hnotb hne => ?_⟩
  obtain ⟨hb', hnotb'⟩ := himp b hb hnotb
  exact hapart b hb' hnotb' hne

theorem cleanBut_none_iff (hids : (items.map CollectionItem.id).Nodup) :
    CleanBut p none items ↔ (∀ item ∈ items, p.validator item.widget = false) ∧
      (items.map fun item => p.valueExtractor item.widget).Nodup := by
  constructor
  · intro h
    refine ⟨fun item hitem => (h item hitem (by simp)).1, ?_⟩
    rw [List.Nodup, List.pairwise_map] at hids ⊢
    refine hids.imp_of_mem fun {a b} ha hb hne => ?_
    exact (h a ha (by simp)).2 b hb (by simp) hne
  · intro ⟨hvalid, hapart⟩ a ha _
    refine ⟨hvalid a ha, fun b hb _ hne heq => hne ?_⟩
    exact congrArg CollectionItem.id (List.inj_on_of_nodup_map hapart ha hb heq)

theorem CleanBut.handle {duplicate : Bool} (h : CleanBut p (some id) items) :
    CleanBut p (some id) (handle p duplicate id items) := by
  refine h.mono fun a ha hnot => ⟨?_, hnot⟩
  obtain ⟨a', ha', rfl⟩ := mem_handle.mp ha
  by_cases hid : a'.id = id
  · rw [if_pos hid] at hnot
    exact absurd (congrArg some hid.symm) hnot
  · rwa [if_neg hid]

/-- A passing item passes behind its duplicate handler. -/
theorem CleanBut.handle_passing (hids : (items.map CollectionItem.id).Nodup)
    (h : CleanBut p none items) : CleanBut p none (ManagedCollection.handle p false id items) := by
  obtain ⟨hvalid, hapart⟩ := (cleanBut_none_iff hids).mp h
  rw [cleanBut_none_iff (by rwa [ids_handle]), values_handle]
  refine ⟨fun b hb => ?_, hapart⟩
  obtain ⟨a, ha, rfl⟩ := mem_handle.mp hb
  split
  · exact p.passes_handled a.widget (hvalid a ha)
  · exact hvalid a ha

/-- Addition is enabled exactly if editing is, and either all items are valid and apart or
all but the one that can be edited. -/
structure Settled (p : CollectionProperties W V) (s : ManagedCollection W) : Prop where
  flags : s.additionDisabled = s.editingDisabled.isSome
  clean : CleanBut p s.editingDisabled s.items

/-- The invariant of every run from an initial collection that is settled. -/
structure Guarded (p : CollectionProperties W V) (s : ManagedCollection W) : Prop where
  ids : (s.items.map CollectionItem.id).Nodup
  last : s.last = (s.items.map CollectionItem.id).getLast?
  fresh : ∀ id ∈ s.items.map CollectionItem.id, id < s.sequence
  settled : Settled p s

theorem Guarded.editingDisabled (h : Guarded p s) (henabled : s.additionDisabled = false) :
    s.editingDisabled = none := by
  rw [h.settled.flags] at henabled
  simpa using henabled

theorem Guarded.sound (h : Guarded p s) : CollectionSound p s := by
  refine ⟨h.ids, h.last, fun henabled => ?_⟩
  have hclean := h.settled.clean
  rw [h.editingDisabled henabled] at hclean
  exact (cleanBut_none_iff h.ids).mp hclean

/-! ## Validation -/

variable [DecidableEq V] {except : CollectionItem W}

theorem inspect_eq_none_iff {item : CollectionItem W} :
    inspect p except item = none ↔ p.validator item.widget = false ∧
      (item.id ≠ except.id →
        p.valueExtractor except.widget ≠ p.valueExtractor item.widget) := by
  rw [inspect]
  split
  next hinvalid => simp [hinvalid]
  next hvalid =>
    split
    next hsame => simp [hsame.1, hsame.2]
    next hapart => simpa [hvalid] using hapart

/-- What stays of a state when its items are validated. -/
theorem validate_fields (p : CollectionProperties W V) (s : ManagedCollection W)
    (except : CollectionItem W) :
    (validateItemsExcept p s except).items.map CollectionItem.id =
        s.items.map CollectionItem.id ∧
      ((validateItemsExcept p s except).items.map fun item => p.valueExtractor item.widget) =
        (s.items.map fun item => p.valueExtractor item.widget) ∧
      (validateItemsExcept p s except).last = s.last ∧
      (validateItemsExcept p s except).sequence = s.sequence ∧
      (validateItemsExcept p s except).deletionDisabled = s.deletionDisabled := by
  rw [validateItemsExcept]
  split
  · refine ⟨?_, ?_, rfl, rfl, rfl⟩
    · split
      · exact ids_handle ..
      · rfl
    · split
      · exact values_handle ..
      · rfl
  · exact ⟨ids_handle .., values_handle .., rfl, rfl, rfl⟩

/-- The loop comes to its end: all items are valid and apart. -/
theorem cleanBut_none_of_inspect (hids : (s.items.map CollectionItem.id).Nodup)
    (hexcept : except ∈ s.items) (h : CleanBut p (some except.id) s.items)
    (hpass : ∀ item ∈ s.items, inspect p except item = none) : CleanBut p none s.items := by
  have hexcepted : ∀ a ∈ s.items, a.id = except.id → a = except := fun a ha hsame =>
    List.inj_on_of_nodup_map hids ha hexcept hsame
  intro a ha _
  refine ⟨(inspect_eq_none_iff.mp (hpass a ha)).1, fun b hb _ hne => ?_⟩
  by_cases hA : a.id = except.id
  · rw [hexcepted a ha hA]
    exact (inspect_eq_none_iff.mp (hpass b hb)).2 fun hB => hne (hA.trans hB.symm)
  · by_cases hB : b.id = except.id
    · rw [hexcepted b hb hB]
      exact fun heq => (inspect_eq_none_iff.mp (hpass a ha)).2 hA heq.symm
    · refine (h a ha fun hsome => hA ?_).2 b hb (fun hsome => hB ?_) hne
      · exact (Option.some.inj hsome).symm
      · exact (Option.some.inj hsome).symm

theorem settled_validate (hids : (s.items.map CollectionItem.id).Nodup)
    (hexcept : except ∈ s.items) (h : CleanBut p (some except.id) s.items) :
    Settled p (validateItemsExcept p s except) := by
  rw [validateItemsExcept]
  split
  · refine ⟨rfl, ?_⟩
    dsimp only
    split
    · exact h.handle
    · exact h
  next hnone =>
    refine ⟨rfl, (cleanBut_none_of_inspect hids hexcept h ?_).handle_passing hids⟩
    simpa using hnone

theorem guarded_validate (hids : (s.items.map CollectionItem.id).Nodup)
    (hlast : s.last = (s.items.map CollectionItem.id).getLast?)
    (hfresh : ∀ id ∈ s.items.map CollectionItem.id, id < s.sequence)
    (hexcept : except ∈ s.items) (hclean : CleanBut p (some except.id) s.items) :
    Guarded p (validateItemsExcept p s except) := by
  obtain ⟨hsame, -, hmarker, hsequence, -⟩ := validate_fields p s except
  refine ⟨?_, ?_, ?_, settled_validate hids hexcept hclean⟩
  · rwa [hsame]
  · rwa [hsame, hmarker]
  · rwa [hsame, hsequence]

/-! ## Operations -/

/-- A new item at the end, while all others are valid and apart. -/
theorem Guarded.addItem (h : Guarded p s) (henabled : s.additionDisabled = false)
    (hnew : id ∉ s.items.map CollectionItem.id) (hid : id < s.sequence) :
    Guarded p (s.addItem p id) := by
  have hclean := h.settled.clean
  rw [h.editingDisabled henabled] at hclean
  refine guarded_validate ?_ ?_ ?_ ?_ ?_
  · rw [List.map_append]
    exact List.nodup_append.mpr ⟨h.ids, List.nodup_singleton _, by simpa using hnew⟩
  · simp
  · intro other hother
    rw [List.map_append, List.mem_append] at hother
    rcases hother with hold | hlast
    · exact h.fresh other hold
    · simp only [List.map_cons, List.map_nil, List.mem_singleton] at hlast
      rwa [hlast]
  · exact List.mem_append_right _ List.mem_cons_self
  · refine hclean.mono fun a ha hnot => ⟨?_, by simp⟩
    rcases List.mem_append.mp ha with hold | hlast
    · exact hold
    · rw [List.mem_singleton.mp hlast] at hnot
      exact absurd rfl hnot

theorem Guarded.changeItem (h : Guarded p s) (hedit : s.Editable id) (widget : W) :
    Guarded p (s.changeItem p id widget) := by
  have hids : (s.items.map fun item => if item.id = id then ⟨id, widget⟩ else item).map
      CollectionItem.id = s.items.map CollectionItem.id := by
    rw [List.map_map]
    refine List.map_congr_left fun item _ => ?_
    simp only [Function.comp_apply]
    split
    next hsame => exact hsame.symm
    next => rfl
  obtain ⟨hmem, heditable⟩ := hedit
  refine guarded_validate ?_ ?_ ?_ ?_ ?_
  · rw [hids]
    exact h.ids
  · rw [hids]
    exact h.last
  · rw [hids]
    exact h.fresh
  · obtain ⟨item, hitem, hsame⟩ := List.mem_map.mp hmem
    exact List.mem_map.mpr ⟨item, hitem, if_pos hsame⟩
  · refine h.settled.clean.mono fun a ha hnot => ?_
    obtain ⟨a', ha', rfl⟩ := List.mem_map.mp ha
    by_cases hsame : a'.id = id
    · rw [if_pos hsame] at hnot
      exact absurd rfl hnot
    · rw [if_neg hsame] at hnot ⊢
      refine ⟨ha', fun hexcluded => ?_⟩
      rcases heditable with hnone | hsome
      · rw [hnone] at hexcluded
        cases hexcluded
      · exact hnot (hsome.symm.trans hexcluded)

omit [DecidableEq V] in
theorem any_id_of_mem (h : id ∈ items.map CollectionItem.id) :
    (items.any fun item => item.id = id) = true := by
  obtain ⟨item, hitem, hsame⟩ := List.mem_map.mp h
  exact List.any_eq_true.mpr ⟨item, hitem, decide_eq_true hsame⟩

omit [DecidableEq V] in
/-- Behind a deletion addition is enabled: the deleted item was the excluded one, or none
was. -/
theorem Guarded.deleteItem (h : Guarded p s) (hedit : s.Editable id) :
    Guarded p (s.deleteItem id) := by
  obtain ⟨hmem, heditable⟩ := hedit
  have hany := any_id_of_mem hmem
  have hnone : (if s.editingDisabled = some id then none else s.editingDisabled) = none := by
    rcases heditable with hnone | hsome
    · rw [hnone, if_neg (by simp)]
    · rw [if_pos hsome]
  have hdeleted : s.deleteItem id = { s with
      additionDisabled := false
      editingDisabled := none
      items := s.items.filter fun item => item.id ≠ id
      last := (s.items.filter fun item => item.id ≠ id).getLast?.map CollectionItem.id } := by
    simp only [ManagedCollection.deleteItem, hany, hnone, if_true]
  rw [hdeleted]
  have hsub : (s.items.filter fun item => item.id ≠ id).Sublist s.items := List.filter_sublist
  refine ⟨h.ids.sublist (hsub.map _), ?_, fun other hother => ?_, rfl, ?_⟩
  · rw [List.getLast?_map]
  · exact h.fresh other ((hsub.map _).subset hother)
  · refine h.settled.clean.mono fun a ha _ => ?_
    obtain ⟨ha', hne⟩ := List.mem_filter.mp ha
    refine ⟨ha', fun hexcluded => ?_⟩
    rcases heditable with hnone | hsome
    · rw [hnone] at hexcluded
      cases hexcluded
    · exact of_decide_eq_true hne (Option.some.inj (hexcluded.symm.trans hsome))

theorem Guarded.step (h : Guarded p s) {operation : CollectionOperation W}
    (hstep : step p s operation = some t) : Guarded p t := by
  cases operation with
  | add =>
      simp only [ManagedCollection.step] at hstep
      split at hstep
      · cases hstep
      next henabled =>
        cases hstep
        have hbefore : Guarded p { s with sequence := s.sequence + 1 } := by
          refine ⟨h.ids, h.last, fun id hid => ?_, h.settled.flags, h.settled.clean⟩
          exact Int.lt_add_one_of_le (Int.le_of_lt (h.fresh id hid))
        refine hbefore.addItem (Bool.not_eq_true _ ▸ henabled) ?_ (Int.lt_succ _)
        exact fun hmem => Int.lt_irrefl _ (h.fresh _ hmem)
  | change id widget =>
      simp only [ManagedCollection.step] at hstep
      split at hstep
      next hedit =>
        cases hstep
        exact h.changeItem hedit widget
      · cases hstep
  | delete id =>
      simp only [ManagedCollection.step] at hstep
      split at hstep
      next hedit =>
        cases hstep
        exact h.deleteItem hedit.1
      · cases hstep

/-! ## The initial items -/

/-- Some items are added whether or not addition is enabled. -/
def addAll (p : CollectionProperties W V) (first : Int) (ids : List Int) : ManagedCollection W :=
  ids.foldl (addItem p) { sequence := first }

theorem addAll_snoc (p : CollectionProperties W V) (first : Int) (ids : List Int) (id : Int) :
    addAll p first (ids ++ [id]) = addItem p (addAll p first ids) id := by
  rw [addAll, List.foldl_append]
  rfl

theorem addAll_fields (p : CollectionProperties W V) (first : Int) (ids : List Int) :
    (addAll p first ids).items.map CollectionItem.id = ids ∧
      (addAll p first ids).sequence = first ∧ (addAll p first ids).deletionDisabled = false := by
  induction ids using List.reverseRecOn with
  | nil => exact ⟨rfl, rfl, rfl⟩
  | append_singleton ids id ih =>
      rw [addAll_snoc, addItem]
      obtain ⟨hids, -, -, hsequence, hdeletion⟩ := validate_fields p
        { addAll p first ids with
          items := (addAll p first ids).items ++ [⟨id, p.factory id⟩]
          last := some id } ⟨id, p.factory id⟩
      rw [hids, hsequence, hdeletion, List.map_append, ih.1]
      exact ⟨rfl, ih.2⟩

/-- An item behind a validation has the value that it had before, and fails if it did. -/
theorem mem_validate {b : CollectionItem W} (h : b ∈ (validateItemsExcept p s except).items) :
    ∃ a ∈ s.items, a.id = b.id ∧ p.valueExtractor b.widget = p.valueExtractor a.widget ∧
      (p.validator a.widget = true → p.validator b.widget = true) := by
  have hhandled : ∀ (duplicate : Bool) (a : CollectionItem W), a ∈ s.items →
      (if a.id = except.id then
        { a with widget := p.duplicateHandler duplicate a.widget } else a) = b →
      (p.validator a.widget = true → duplicate = true) →
      ∃ a ∈ s.items, a.id = b.id ∧ p.valueExtractor b.widget = p.valueExtractor a.widget ∧
        (p.validator a.widget = true → p.validator b.widget = true) := by
    intro duplicate a ha hb hfails
    refine ⟨a, ha, ?_⟩
    subst hb
    split
    · refine ⟨rfl, p.value_handled duplicate a.widget, fun hinvalid => ?_⟩
      rw [hfails hinvalid]
      exact p.fails_handled a.widget hinvalid
    · exact ⟨rfl, rfl, fun hinvalid => hinvalid⟩
  rw [validateItemsExcept] at h
  split at h
  next finding _ =>
    dsimp only at h
    split at h
    · obtain ⟨a, ha, hb⟩ := mem_handle.mp h
      exact hhandled true a ha hb fun _ => rfl
    · exact ⟨b, h, rfl, rfl, fun hinvalid => hinvalid⟩
  next hnone =>
    obtain ⟨a, ha, hb⟩ := mem_handle.mp h
    refine hhandled false a ha hb fun hinvalid => ?_
    have hpass : inspect p except a = none := by
      rw [List.findSome?_eq_none_iff] at hnone
      exact hnone a ha
    rw [(inspect_eq_none_iff.mp hpass).1] at hinvalid
    cases hinvalid

theorem mem_addAll {first : Int} {ids : List Int} {b : CollectionItem W}
    (h : b ∈ (addAll p first ids).items) :
    p.valueExtractor b.widget = p.valueExtractor (p.factory b.id) ∧
      (p.validator (p.factory b.id) = true → p.validator b.widget = true) := by
  induction ids using List.reverseRecOn generalizing b with
  | nil => cases h
  | append_singleton ids id ih =>
      rw [addAll_snoc, addItem] at h
      obtain ⟨a, ha, hid, hvalue, hfails⟩ := mem_validate h
      rw [← hid, hvalue]
      rcases List.mem_append.mp ha with hold | hnew
      · exact ⟨(ih hold).1, fun hinvalid => hfails ((ih hold).2 hinvalid)⟩
      · rw [List.mem_singleton.mp hnew] at hfails ⊢
        exact ⟨rfl, hfails⟩

/-- The factory's widgets are valid and have pairwise distinct values. -/
def FactoryClean (p : CollectionProperties W V) (ids : List Int) : Prop :=
  (∀ id ∈ ids, p.validator (p.factory id) = false) ∧
    (ids.map fun id => p.valueExtractor (p.factory id)).Nodup

theorem validate_enabled (hpass : ∀ item ∈ s.items, inspect p except item = none) :
    (validateItemsExcept p s except).additionDisabled = false := by
  have hnone : s.items.findSome? (inspect p except) = none := by
    rwa [List.findSome?_eq_none_iff]
  rw [validateItemsExcept, hnone]

/-- Valid items with distinct values leave addition enabled. -/
theorem guarded_addAll {first : Int} {ids : List Int} (hids : ids.Nodup)
    (hfirst : ∀ id ∈ ids, id < first) (hclean : FactoryClean p ids) :
    Guarded p (addAll p first ids) ∧ (addAll p first ids).additionDisabled = false := by
  induction ids using List.reverseRecOn with
  | nil =>
      refine ⟨⟨List.nodup_nil, rfl, ?_, rfl, ?_⟩, rfl⟩
      · exact fun id hid => nomatch hid
      · exact fun a ha => nomatch ha
  | append_singleton ids id ih =>
      obtain ⟨hvalid, hvalues⟩ := hclean
      obtain ⟨hnodup, -, hapart⟩ := List.nodup_append.mp hids
      rw [List.map_append] at hvalues
      obtain ⟨hvalues, -, hnew⟩ := List.nodup_append.mp hvalues
      obtain ⟨hguarded, henabled⟩ := ih hnodup
        (fun id hid => hfirst id (List.mem_append_left _ hid))
        ⟨fun id hid => hvalid id (List.mem_append_left _ hid), hvalues⟩
      obtain ⟨hsame, hsequence, -⟩ := addAll_fields p first ids
      have hlast : id ∈ ids ++ [id] := List.mem_append_right _ List.mem_cons_self
      rw [addAll_snoc]
      constructor
      · refine hguarded.addItem henabled ?_ ?_
        · rw [hsame]
          exact fun hmem => hapart id hmem id List.mem_cons_self rfl
        · rw [hsequence]
          exact hfirst id hlast
      · -- neither an old item nor the new one stops the loop
        refine validate_enabled fun item hitem => inspect_eq_none_iff.mpr ?_
        rcases List.mem_append.mp hitem with hold | hitem
        · refine ⟨(hguarded.sound.guard henabled).1 item hold, fun _ heq => ?_⟩
          have hmem : item.id ∈ ids := hsame ▸ List.mem_map_of_mem hold
          refine hnew _ (List.mem_map_of_mem hmem) _ List.mem_cons_self ?_
          exact (mem_addAll hold).1.symm.trans heq.symm
        · rw [List.mem_singleton.mp hitem]
          exact ⟨hvalid id hlast, fun hne => absurd rfl hne⟩

/-- The last initial item may be invalid or a duplicate: it is the one that can be edited. -/
theorem guarded_construct {ids : List Int} (hids : ids.Nodup)
    (hclean : FactoryClean p ids.dropLast) : Guarded p (construct p ids) := by
  have hfirst : ∀ id ∈ ids, id < firstId ids := fun id => lt_firstId
  rcases List.eq_nil_or_concat' ids with rfl | ⟨front, last, rfl⟩
  · exact (guarded_addAll List.nodup_nil hfirst hclean).1
  · rw [List.dropLast_concat] at hclean
    obtain ⟨hnodup, -, hapart⟩ := List.nodup_append.mp hids
    have hlast : last ∈ front ++ [last] := List.mem_append_right _ List.mem_cons_self
    have hfront : ∀ id ∈ front, id < firstId (front ++ [last]) :=
      fun id hid => hfirst id (List.mem_append_left _ hid)
    obtain ⟨hguarded, henabled⟩ := guarded_addAll hnodup hfront hclean
    obtain ⟨hsame, hsequence, -⟩ := addAll_fields p (firstId (front ++ [last])) front
    have hconstruct : construct p (front ++ [last]) =
        addItem p (addAll p (firstId (front ++ [last])) front) last :=
      addAll_snoc p _ front last
    rw [hconstruct]
    refine hguarded.addItem henabled ?_ ?_
    · rw [hsame]
      exact fun hmem => hapart last hmem last List.mem_cons_self rfl
    · rw [hsequence]
      exact hfirst last hlast

/-! ## Necessity -/

theorem validate_disabled (h : (validateItemsExcept p s except).additionDisabled = true) :
    (validateItemsExcept p s except).editingDisabled = some except.id := by
  rw [validateItemsExcept] at h ⊢
  split at h
  · rfl
  · cases h

omit [DecidableEq V] in
theorem deleteItem_of_mem (h : id ∈ s.items.map CollectionItem.id) :
    (s.deleteItem id).additionDisabled = false ∧
      (s.deleteItem id).items = s.items.filter fun item => item.id ≠ id := by
  simp only [deleteItem, any_id_of_mem h, if_true]
  exact ⟨trivial, trivial⟩

/-- Behind the initial items addition is enabled, or deleting the last one enables it. -/
theorem cleanBut_of_sound {front : List Int} {last : Int}
    (hsound : ∀ operations s, run (step p) (construct p (front ++ [last])) operations = some s →
      CollectionSound p s) :
    CleanBut p (some last) (construct p (front ++ [last])).items := by
  have hfirst := hsound [] _ rfl
  by_cases henabled : (construct p (front ++ [last])).additionDisabled = false
  · refine ((cleanBut_none_iff hfirst.ids).mpr (hfirst.guard henabled)).mono fun a ha _ => ?_
    exact ⟨ha, by simp⟩
  · have hconstruct : construct p (front ++ [last]) =
        addItem p (addAll p (firstId (front ++ [last])) front) last :=
      addAll_snoc p _ front last
    have hexcluded : (construct p (front ++ [last])).editingDisabled = some last := by
      rw [hconstruct] at henabled ⊢
      exact validate_disabled (Bool.not_eq_false _ ▸ henabled)
    obtain ⟨hids, -, hdeletion⟩ := addAll_fields p (firstId (front ++ [last])) (front ++ [last])
    have hmem : last ∈ (construct p (front ++ [last])).items.map CollectionItem.id := by
      rw [construct, ← addAll, hids]
      exact List.mem_append_right _ List.mem_cons_self
    have hstep : step p (construct p (front ++ [last])) (.delete last) =
        some ((construct p (front ++ [last])).deleteItem last) :=
      if_pos ⟨⟨hmem, .inr hexcluded⟩, hdeletion⟩
    have hdeleted := hsound [.delete last] _ (by rw [run, hstep]; rfl)
    obtain ⟨hnow, hitems⟩ := deleteItem_of_mem hmem
    refine ((cleanBut_none_iff hdeleted.ids).mpr (hdeleted.guard hnow)).mono fun a ha hnot => ?_
    refine ⟨?_, by simp⟩
    rw [hitems]
    exact List.mem_filter.mpr ⟨ha, decide_eq_true fun hsame => hnot (hsame ▸ rfl)⟩

theorem factoryClean_of_cleanBut {first : Int} {front : List Int} {last : Int}
    (hids : (front ++ [last]).Nodup)
    (hclean : CleanBut p (some last) (addAll p first (front ++ [last])).items) :
    FactoryClean p front := by
  obtain ⟨hnodup, -, hapart⟩ := List.nodup_append.mp hids
  have hitem : ∀ id ∈ front, ∃ item ∈ (addAll p first (front ++ [last])).items,
      item.id = id ∧ some last ≠ some item.id := by
    intro id hid
    have hmem : id ∈ (addAll p first (front ++ [last])).items.map CollectionItem.id := by
      rw [(addAll_fields p first (front ++ [last])).1]
      exact List.mem_append_left _ hid
    obtain ⟨item, hitem, hsame⟩ := List.mem_map.mp hmem
    refine ⟨item, hitem, hsame, fun hlast => hapart id hid last List.mem_cons_self ?_⟩
    exact hsame.symm.trans (Option.some.inj hlast).symm
  constructor
  · intro id hid
    obtain ⟨item, hmem, rfl, hne⟩ := hitem id hid
    by_contra hinvalid
    have hfails := (mem_addAll hmem).2 (Bool.not_eq_false _ ▸ hinvalid)
    rw [(hclean item hmem hne).1] at hfails
    cases hfails
  · refine List.Nodup.map_on (fun id hid other hother heq => ?_) hnodup
    obtain ⟨a, ha, rfl, hnotA⟩ := hitem id hid
    obtain ⟨b, hb, rfl, hnotB⟩ := hitem other hother
    by_contra hne
    refine (hclean a ha hnotA).2 b hb hnotB hne ?_
    rw [(mem_addAll ha).1, (mem_addAll hb).1, heq]

end ManagedCollection

/-! ## Every state -/

/-- Whatever is added, changed and deleted while it is enabled, a collection is sound exactly
if its initial ids are distinct and the items before the last initial one are valid, with
pairwise distinct values. -/
theorem collection_sound_iff {W V : Type} [DecidableEq V] (p : CollectionProperties W V)
    (ids : List Int) :
    (∀ operations s,
        run (ManagedCollection.step p) (ManagedCollection.construct p ids) operations = some s →
          CollectionSound p s) ↔
      ids.Nodup ∧ ManagedCollection.FactoryClean p ids.dropLast := by
  constructor
  · intro hsound
    have hids : ids.Nodup := by
      have hfirst := (hsound [] _ rfl).ids
      rwa [ManagedCollection.construct, ← ManagedCollection.addAll,
        (ManagedCollection.addAll_fields p _ ids).1] at hfirst
    refine ⟨hids, ?_⟩
    rcases List.eq_nil_or_concat' ids with rfl | ⟨front, last, rfl⟩
    · exact ⟨(fun id hid => nomatch hid), List.nodup_nil⟩
    · rw [List.dropLast_concat]
      exact ManagedCollection.factoryClean_of_cleanBut hids
        (ManagedCollection.cleanBut_of_sound hsound)
  · intro ⟨hids, hclean⟩ operations s hrun
    have hguarded : ManagedCollection.Guarded p s := by
      apply EventRun.invariant_of_run (ManagedCollection.guarded_construct hids hclean) hrun
      exact fun u operation v hu hstep => hu.step hstep
    exact hguarded.sound

/-- A text field with its error. -/
structure CollectionField where
  text : String
  error : Bool := false
deriving DecidableEq, Repr

/-- `fileCollection`: the validator reads the error that the duplicate handler sets. -/
def fileCollection (names : Int → String) : CollectionProperties CollectionField String where
  factory := fun id => { text := names id }
  validator := fun field => field.text = "" || field.error
  valueExtractor := CollectionField.text
  duplicateHandler := fun duplicate field => { field with error := duplicate }
  value_handled := fun _ _ => rfl
  passes_handled := fun field h => by
    rw [Bool.or_eq_false_iff] at h ⊢
    exact ⟨h.1, rfl⟩
  fails_handled := fun _ _ => Bool.or_true _

/-- A file without a name before a named one: deleting the named one enables addition. -/
theorem invalid_item_admitted :
    ∃ s, run (ManagedCollection.step (fileCollection fun id => if id = 0 then "" else "a"))
        (ManagedCollection.construct (fileCollection fun id => if id = 0 then "" else "a") [0, 1])
        [.delete 1] = some s ∧
      s.additionDisabled = false ∧ s.items = [⟨0, { text := "" }⟩] ∧
      ¬ CollectionSound (fileCollection fun id => if id = 0 then "" else "a") s := by
  refine ⟨_, rfl, rfl, rfl, fun h => ?_⟩
  have hvalid := (h.guard rfl).1 _ List.mem_cons_self
  revert hvalid
  decide

end ArtPlatform.Web
