import ArtPlatform.Foundation.LinkedMap
import ArtPlatform.Web.SearcherHost
import Mathlib.Data.List.Perm.Basic

/-!
# The groups of an assembly's artifacts

Every group has a searcher of artifacts.  When the selections change, a timer gives the
artifacts that no group has selected to the other groups, and each one puts them behind its
selected artifacts by their positions.

Main results:

- Theorem `mem_setAvailableArtifacts_iff`: when the artifacts that a group is given are all
  available afterwards.
- Theorem `groups_offer_free`: the runs after whose timers every group offers its own
  artifacts and all those that are selected in no group.
- Theorem `given_artifact_lost`: a free artifact at the position of a selected one.
-/

namespace ArtPlatform.Web

open EventRun CallStack

/-- The properties of the configurator; of an initial configuration its name and artifact. -/
structure ArtifactsProperties (A : Type) where
  name : A → String
  projectArtifacts : List A
  initialConfigurations : List (String × Option A) := []

/-- A group with its properties `availableArtifacts` and `selectedArtifacts`; it has a searcher
when it has been drawn. -/
structure ArtifactsGroup (A : Type) where
  available : List A
  initial : Option (List A) := none
  searcher : Option (ManagedSearcher A) := none
deriving DecidableEq, Repr

inductive GroupsTimer
  | addExisted
  | recalculation (updatedGroupName : Option String)
deriving DecidableEq, Repr

def GroupsTimer.goesOver : GroupsTimer → String → Bool
  | .addExisted, _ => false
  | .recalculation updatedGroupName, name => updatedGroupName ≠ some name

structure ArtifactsConfigurator (A : Type) where
  selectedArtifacts : List A := []
  groups : LinkedMap String (ArtifactsGroup A) := .empty
  timers : List GroupsTimer := [.addExisted]
deriving DecidableEq, Repr

inductive GroupsEvent
  | add (name : String)
  | drawn (name : String)
  | select (name : String) (indexes : List Nat)
  | delete (name : String)
  | timer
deriving DecidableEq, Repr

inductive GroupsCall (A : Type)
  | searcher (name : String) (call : SearcherCall A)
  | recalculate (updatedGroupName : Option String)
  | setAvailableArtifacts (name : String)
deriving DecidableEq, Repr

namespace ArtifactsProperties

variable {A : Type} (p : ArtifactsProperties A)

/-- `projectArtifactsSearcher` -/
def artifactsSearcher : SearcherProperties A where
  comparator := fun current other => p.name current = p.name other
  itemValue := id
  isDefined := fun _ => true

/-- `artifacts.unique(artifact => artifact.name)` -/
def unique (artifacts : List A) : List A :=
  LinkedMap.uniqueBy p.name artifacts

end ArtifactsProperties

/-! ## A group -/

namespace ArtifactsGroup

variable {A : Type}

/-- `newAvailable[index]`, where the array has an artifact. -/
def newAvailableAt (current : List A) (selectedIndexes : List Nat) (artifacts : List A)
    (index : Nat) : Option A :=
  (if index ∈ selectedIndexes then current[index]? else none).or artifacts[index]?

def newAvailable (current : List A) (selectedIndexes : List Nat) (artifacts : List A) :
    List A :=
  (List.range (selectedIndexes.foldl (fun length index => max length (index + 1))
    artifacts.length)).filterMap (newAvailableAt current selectedIndexes artifacts)

/-- The values that `setAvailableArtifacts` makes available. -/
def availableFor (searcher : ManagedSearcher A) (artifacts : List A) : List A :=
  if artifacts.isEmpty then searcher.values
  else newAvailable searcher.items searcher.indexes artifacts

/-- `selectedArtifacts()` -/
def selectedArtifacts (group : ArtifactsGroup A) : List A :=
  match group.searcher with
  | none => []
  | some searcher => searcher.values

/-- What the searcher offers, or is going to. -/
def offered (group : ArtifactsGroup A) : List A :=
  match group.searcher with
  | none => group.available
  | some searcher => searcher.items

end ArtifactsGroup

/-! ## The configurator -/

namespace ArtifactsConfigurator

variable {A : Type} [DecidableEq A] (p : ArtifactsProperties A) (s : ArtifactsConfigurator A)

/-- `crossEquals` -/
def crossEquals (left right : List A) : Bool :=
  left.length = right.length && left.all fun element => element ∈ right

/-- The project artifacts that are not in `#selectedArtifacts`. -/
def availableArtifacts : List A :=
  p.projectArtifacts.filter fun artifact => artifact ∉ s.selectedArtifacts

/-- `newSelectedArtifacts` -/
def newSelectedArtifacts : List A :=
  s.groups.values.flatMap fun group => p.unique group.selectedArtifacts

def recalculateAvailableArtifacts (updatedGroupName : Option String) :
    ArtifactsConfigurator A :=
  if crossEquals (s.newSelectedArtifacts p) s.selectedArtifacts then s
  else
    { s with
      selectedArtifacts := s.newSelectedArtifacts p
      timers := s.timers ++ [.recalculation updatedGroupName] }

/-- `groups.set`, then `#refreshGroups`. -/
def addGroup (name : String) (group : ArtifactsGroup A) : ArtifactsConfigurator A :=
  { s with groups := s.groups.put name group }.recalculateAvailableArtifacts p none

def addNewGroup (name : String) : ArtifactsConfigurator A :=
  s.addGroup p name { available := s.availableArtifacts p }

/-- The initial artifacts of a name. -/
def initialArtifacts (name : String) : List A :=
  (p.initialConfigurations.filter fun configuration => configuration.1 = name).filterMap Prod.snd

def addExistedGroup (name : String) : ArtifactsConfigurator A :=
  s.addGroup p name
    { available := s.availableArtifacts p, initial := some (initialArtifacts p name) }

/-- The names of the initial configurations. -/
def initialNames : List String :=
  (LinkedMap.uniqueBy Prod.fst p.initialConfigurations).map Prod.fst

def onDelete (name : String) : ArtifactsConfigurator A :=
  { s with groups := s.groups.remove name }.recalculateAvailableArtifacts p none

def setSearcher (name : String) (searcher : ManagedSearcher A) : ArtifactsConfigurator A :=
  { s with groups := s.groups.modify name fun group => { group with searcher := some searcher } }

/-- The consumers of `selected` are that of the searcher and `onSelect`. -/
def innerCalls (name : String) :
    SearcherCall A → List (SearcherCall A) → List (GroupsCall A) :=
  hostCalls (.searcher name) fun _ => .recalculate (some name)

/-- The searcher of a group that has been drawn. -/
def searcherOf (name : String) : Option (ManagedSearcher A) :=
  (s.groups.get name).bind ArtifactsGroup.searcher

/-- One call with the calls that it makes; `get()` throws before the group is drawn. -/
def call (s : ArtifactsConfigurator A) :
    GroupsCall A → Option (ArtifactsConfigurator A × List (GroupsCall A))
  | .searcher name searcherCall =>
      match s.searcherOf name with
      | none => none
      | some searcher =>
          (ManagedSearcher.call p.artifactsSearcher searcher searcherCall).map fun result =>
            (s.setSearcher name result.1, innerCalls name searcherCall result.2)
  | .recalculate updatedGroupName => some (s.recalculateAvailableArtifacts p updatedGroupName, [])
  | .setAvailableArtifacts name =>
      (s.searcherOf name).map fun searcher =>
        (s, [.searcher name (.setAvailableValues
          (ArtifactsGroup.availableFor searcher (s.availableArtifacts p)))])

/-- The groups that a recalculation goes over. -/
def refreshed (updatedGroupName : Option String) : List String :=
  (s.groups.entries.map Prod.fst).filter (GroupsTimer.recalculation updatedGroupName).goesOver

/-- The dialog lets no name pass that a group has; the indexes are those of items.  A timer
that throws has no next state. -/
def step (s : ArtifactsConfigurator A) : GroupsEvent → Option (ArtifactsConfigurator A)
  | .add name =>
      if name ∈ s.groups.entries.map Prod.fst then none else some (s.addNewGroup p name)
  | .drawn name =>
      match s.groups.get name with
      | none => none
      | some group =>
          match group.searcher with
          | some _ => none
          | none => some (s.setSearcher name
              (.configuration p.artifactsSearcher group.available group.initial))
  | .select name indexes =>
      match s.searcherOf name with
      | none => none
      | some searcher =>
          if ∀ index ∈ indexes, index < searcher.items.length then
            exec (call p) 32 s [.searcher name (.setSelectedIndexes indexes)]
          else none
  | .delete name =>
      if name ∈ s.groups.entries.map Prod.fst then some (s.onDelete p name) else none
  | .timer =>
      match s.timers with
      | [] => none
      | .addExisted :: timers =>
          some ((initialNames p).foldl (fun s name => s.addExistedGroup p name)
            { s with timers := timers })
      | .recalculation updatedGroupName :: timers =>
          exec (call p) (32 * (s.refreshed updatedGroupName).length) { s with timers := timers }
            ((s.refreshed updatedGroupName).map .setAvailableArtifacts)

/-! ## What is offered -/

/-- The artifacts that are selected in the groups. -/
def selectedInGroups : List A :=
  s.groups.values.flatMap ArtifactsGroup.selectedArtifacts

/-- When no timer is left, every group that is drawn offers its own selected artifacts and
the project artifacts that are selected in no group. -/
def OffersFree : Prop :=
  s.timers = [] → ∀ name searcher, s.searcherOf name = some searcher → ∀ artifact,
    artifact ∈ searcher.items ↔
      artifact ∈ searcher.values ∨
        (artifact ∈ p.projectArtifacts ∧ artifact ∉ s.selectedInGroups)

/-- The timer of a recalculation leaves the selection of the groups it goes over as it is,
and what it gives them is available. -/
def KeepsGiven (s t : ArtifactsConfigurator A) : GroupsEvent → Prop
  | .timer => ∀ updatedGroupName, s.timers.head? = some (.recalculation updatedGroupName) →
      ∀ name ∈ s.refreshed updatedGroupName, ∀ searcher, s.searcherOf name = some searcher →
        ∃ searcher', t.searcherOf name = some searcher' ∧
          searcher'.values = searcher.values ∧
          ∀ artifact ∈ s.availableArtifacts p, artifact ∈ searcher'.items
  | _ => True

/-! ## The condition -/

/-- Artifacts of the project with the same name are equal. -/
def NamesDiffer : Prop :=
  ∀ artifact ∈ p.projectArtifacts, ∀ artifact' ∈ p.projectArtifacts,
    p.name artifact = p.name artifact' → artifact = artifact'

/-- No artifact is lost at the position of a selected one: it is selected itself, or given at
another position too. -/
def NothingLost (searcher : ManagedSearcher A) (artifacts : List A) : Prop :=
  ∀ index ∈ searcher.indexes, ∀ artifact ∈ artifacts[index]?,
    artifact ∈ searcher.values ∨
      ∃ index' < artifacts.length, index' ∉ searcher.indexes ∧ artifacts[index']? = some artifact

/-- The new selection passes for the old one only if it has all of its artifacts. -/
def Noticed (new : List A) : Prop :=
  crossEquals new s.selectedArtifacts = true → ∀ artifact ∈ s.selectedArtifacts, artifact ∈ new

/-- The selection of all groups when these artifacts are selected in one of them. -/
def selectionWith (name : String) (artifacts : List A) : List A :=
  s.groups.entries.flatMap fun entry =>
    p.unique (if entry.1 = name then artifacts else entry.2.selectedArtifacts)

/-- A recalculation that goes over the group is scheduled. -/
def Awaits (name : String) : Prop :=
  ∃ timer ∈ s.timers, timer.goesOver name = true

/-- The condition on the timer that is first. -/
def RegularTimer (s : ArtifactsConfigurator A) : GroupsTimer → Prop
  | .addExisted => ∀ name ∈ initialNames p, name ∉ s.groups.entries.map Prod.fst
  | .recalculation updatedGroupName =>
      ∀ name ∈ s.refreshed updatedGroupName, ∃ searcher ∈ s.searcherOf name,
        s.availableArtifacts p = [] ∨ NothingLost searcher (s.availableArtifacts p)

/-- The artifacts that a group has selected when it is drawn are among those that it offers,
and no other group offers them; what is selected elsewhere is not offered either. -/
def RegularDrawing (name : String) (group : ArtifactsGroup A) : Prop :=
  (∀ artifact ∈ group.initial.getD [], artifact ∈ group.available) ∧
  (∀ entry ∈ s.groups.entries, entry.1 ≠ name → entry.2.searcher ≠ none →
    ∀ artifact ∈ group.initial.getD [],
      artifact ∈ s.selectedArtifacts ∨ artifact ∈ entry.2.selectedArtifacts) ∧
  ∀ artifact ∈ s.selectedInGroups,
    artifact ∈ s.selectedArtifacts ∨ artifact ∈ group.initial.getD []

/-- The new selection is noticed, and what the group drops is selected in no other group. -/
def RegularSelection (name : String) (searcher : ManagedSearcher A) (chosen : List A) : Prop :=
  s.Noticed (s.selectionWith p name chosen) ∧
    (s.Awaits name ∨ ∀ artifact ∈ searcher.values, artifact ∉ chosen →
      ∀ entry ∈ s.groups.entries, entry.1 ≠ name → artifact ∉ entry.2.selectedArtifacts)

/-- The condition on an event and the state before it. -/
def Regular (s : ArtifactsConfigurator A) : GroupsEvent → Prop
  | .add _ => True
  | .drawn name => ∀ group ∈ s.groups.get name, s.RegularDrawing name group
  | .select name indexes => ∀ searcher ∈ s.searcherOf name, s.RegularSelection p name searcher
      (ManagedSearcher.valuesAt p.artifactsSearcher searcher.items indexes)
  | .delete name =>
      s.Noticed ((s.groups.remove name).values.flatMap fun group =>
        p.unique group.selectedArtifacts)
  | .timer => ∀ timer ∈ s.timers.head?, s.RegularTimer p timer

instance : Decidable (NamesDiffer p) :=
  inferInstanceAs (Decidable (∀ artifact ∈ p.projectArtifacts,
    ∀ artifact' ∈ p.projectArtifacts, _ → _))

instance (searcher : ManagedSearcher A) (artifacts : List A) :
    Decidable (NothingLost searcher artifacts) :=
  inferInstanceAs (Decidable (∀ index ∈ searcher.indexes, ∀ artifact ∈ artifacts[index]?, _ ∨ _))

instance (new : List A) : Decidable (s.Noticed new) :=
  inferInstanceAs (Decidable (_ → _))

instance (name : String) : Decidable (s.Awaits name) :=
  inferInstanceAs (Decidable (∃ timer ∈ s.timers, _))

instance (s : ArtifactsConfigurator A) : (timer : GroupsTimer) → Decidable (s.RegularTimer p timer)
  | .addExisted => inferInstanceAs (Decidable (∀ name ∈ initialNames p, _))
  | .recalculation updatedGroupName =>
      inferInstanceAs (Decidable (∀ name ∈ s.refreshed updatedGroupName,
        ∃ searcher ∈ s.searcherOf name, _ ∨ _))

instance (name : String) (group : ArtifactsGroup A) : Decidable (s.RegularDrawing name group) :=
  inferInstanceAs (Decidable (_ ∧ _ ∧ _))

instance (name : String) (searcher : ManagedSearcher A) (chosen : List A) :
    Decidable (s.RegularSelection p name searcher chosen) :=
  inferInstanceAs (Decidable (_ ∧ _))

instance (s : ArtifactsConfigurator A) : (event : GroupsEvent) → Decidable (s.Regular p event)
  | .add _ => .isTrue trivial
  | .drawn name =>
      inferInstanceAs (Decidable (∀ group ∈ s.groups.get name, s.RegularDrawing name group))
  | .select name indexes =>
      inferInstanceAs (Decidable (∀ searcher ∈ s.searcherOf name,
        s.RegularSelection p name searcher
          (ManagedSearcher.valuesAt p.artifactsSearcher searcher.items indexes)))
  | .delete _ => inferInstanceAs (Decidable (s.Noticed _))
  | .timer => inferInstanceAs (Decidable (∀ timer ∈ s.timers.head?, s.RegularTimer p timer))

end ArtifactsConfigurator

/-! ## The merged array -/

namespace ArtifactsGroup

variable {A : Type} {current artifacts values : List A} {selectedIndexes : List Nat}
  {artifact : A}

theorem le_foldl_max (indexes : List Nat) (length : Nat) :
    length ≤ indexes.foldl (fun length index => max length (index + 1)) length ∧
      ∀ index ∈ indexes, index < indexes.foldl (fun length index => max length (index + 1))
        length := by
  induction indexes generalizing length with
  | nil => exact ⟨le_rfl, fun index hindex => absurd hindex List.not_mem_nil⟩
  | cons first indexes ih =>
      obtain ⟨hle, hlt⟩ := ih (max length (first + 1))
      rw [List.foldl_cons]
      refine ⟨(le_max_left ..).trans hle, fun index hindex => ?_⟩
      rcases List.mem_cons.mp hindex with rfl | hindex
      · exact (le_max_right length (index + 1)).trans hle
      · exact hlt index hindex

theorem mem_newAvailable :
    artifact ∈ newAvailable current selectedIndexes artifacts ↔
      ∃ index, newAvailableAt current selectedIndexes artifacts index = some artifact := by
  rw [newAvailable, List.mem_filterMap]
  constructor
  · intro ⟨index, _, h⟩
    exact ⟨index, h⟩
  · intro ⟨index, h⟩
    refine ⟨index, List.mem_range.mpr ?_, h⟩
    obtain ⟨hle, hlt⟩ := le_foldl_max selectedIndexes artifacts.length
    rw [newAvailableAt, Option.or_eq_some_iff] at h
    rcases h with h | ⟨-, h⟩
    · split at h
      next hindex => exact hlt index hindex
      next => cases h
    · exact (List.getElem?_eq_some_iff.mp h).1.trans_le hle

/-- Only what is selected and what is given is put there. -/
theorem mem_or_mem_of_mem_newAvailable (hexactly : Exactly current selectedIndexes values)
    (h : artifact ∈ newAvailable current selectedIndexes artifacts) :
    artifact ∈ values ∨ artifact ∈ artifacts := by
  obtain ⟨index, h⟩ := mem_newAvailable.mp h
  rw [newAvailableAt, Option.or_eq_some_iff] at h
  rcases h with h | ⟨-, h⟩
  · split at h
    next hindex => exact .inl ((ManagedSearcher.mem_of_exactly hexactly).mpr ⟨index, hindex, h⟩)
    next => cases h
  · exact .inr (List.mem_of_getElem? h)

theorem newAvailableAt_selected (hexactly : Exactly current selectedIndexes values) {index : Nat}
    (hindex : index ∈ selectedIndexes) :
    newAvailableAt current selectedIndexes artifacts index = current[index]? := by
  obtain ⟨value, -, hvalue⟩ := ManagedSearcher.getElem?_of_exactly hexactly hindex
  rw [newAvailableAt, if_pos hindex, hvalue]
  rfl

theorem newAvailableAt_not_selected {index : Nat} (hindex : index ∉ selectedIndexes) :
    newAvailableAt current selectedIndexes artifacts index = artifacts[index]? := by
  rw [newAvailableAt, if_neg hindex]
  rfl

theorem mem_newAvailable_of_selected (hexactly : Exactly current selectedIndexes values)
    (h : artifact ∈ values) : artifact ∈ newAvailable current selectedIndexes artifacts := by
  obtain ⟨index, hindex, hartifact⟩ := (ManagedSearcher.mem_of_exactly hexactly).mp h
  rw [mem_newAvailable]
  exact ⟨index, (newAvailableAt_selected hexactly hindex).trans hartifact⟩

end ArtifactsGroup

namespace ArtifactsConfigurator

variable {A : Type} {searcher : ManagedSearcher A} {artifacts : List A} {artifact : A}

theorem mem_availableFor_of_selected (hexactly : searcher.Consistent)
    (h : artifact ∈ searcher.values) :
    artifact ∈ ArtifactsGroup.availableFor searcher artifacts := by
  rw [ArtifactsGroup.availableFor]
  split
  · exact h
  · exact ArtifactsGroup.mem_newAvailable_of_selected hexactly h

theorem mem_or_mem_of_mem_availableFor (hexactly : searcher.Consistent)
    (h : artifact ∈ ArtifactsGroup.availableFor searcher artifacts) :
    artifact ∈ searcher.values ∨ artifact ∈ artifacts := by
  rw [ArtifactsGroup.availableFor] at h
  split at h
  · exact .inl h
  · exact ArtifactsGroup.mem_or_mem_of_mem_newAvailable hexactly h

/-- All artifacts that a group is given are available exactly if none of them stands at the
index of a selected one only. -/
theorem mem_setAvailableArtifacts_iff (hexactly : searcher.Consistent) :
    (∀ artifact ∈ artifacts, artifact ∈ ArtifactsGroup.availableFor searcher artifacts) ↔
      artifacts = [] ∨ NothingLost searcher artifacts := by
  rw [ArtifactsGroup.availableFor]
  split
  next hempty =>
    rw [List.isEmpty_iff] at hempty
    simp [hempty]
  next hempty =>
    rw [List.isEmpty_iff] at hempty
    rw [or_iff_right hempty]
    constructor
    · intro h index hindex artifact hartifact
      obtain ⟨index', hindex'⟩ := ArtifactsGroup.mem_newAvailable.mp
        (h artifact (List.mem_of_getElem? hartifact))
      by_cases hselected : index' ∈ searcher.indexes
      · rw [ArtifactsGroup.newAvailableAt_selected hexactly hselected] at hindex'
        exact .inl ((ManagedSearcher.mem_of_exactly hexactly).mpr ⟨index', hselected, hindex'⟩)
      · rw [ArtifactsGroup.newAvailableAt_not_selected hselected] at hindex'
        exact .inr ⟨index', (List.getElem?_eq_some_iff.mp hindex').1, hselected, hindex'⟩
    · intro h artifact hmem
      obtain ⟨index, hindex⟩ := List.mem_iff_getElem?.mp hmem
      by_cases hselected : index ∈ searcher.indexes
      · rcases h index hselected artifact hindex with hvalue | ⟨index', -, hfree, hindex'⟩
        · exact ArtifactsGroup.mem_newAvailable_of_selected hexactly hvalue
        · exact ArtifactsGroup.mem_newAvailable.mpr
            ⟨index', (ArtifactsGroup.newAvailableAt_not_selected hfree).trans hindex'⟩
      · exact ArtifactsGroup.mem_newAvailable.mpr
          ⟨index, (ArtifactsGroup.newAvailableAt_not_selected hselected).trans hindex⟩

/-! ## The calls -/

variable {p : ArtifactsProperties A} {s t : ArtifactsConfigurator A} {name : String}
  {searcher' : ManagedSearcher A}

theorem setSearcher_setSearcher (s : ArtifactsConfigurator A) :
    (s.setSearcher name searcher).setSearcher name searcher' = s.setSearcher name searcher' := by
  simp [setSearcher, LinkedMap.modify_modify, Function.comp_def]

theorem searcherOf_eq_some_iff :
    s.searcherOf name = some searcher ↔
      ∃ group, (name, group) ∈ s.groups.entries ∧ group.searcher = some searcher := by
  simp [searcherOf, Option.bind_eq_some_iff, LinkedMap.get_eq_some_iff]

theorem searcherOf_setSearcher (h : s.searcherOf name = some searcher)
    (searcher' : ManagedSearcher A) :
    (s.setSearcher name searcher').searcherOf name = some searcher' := by
  obtain ⟨group, hgroup, -⟩ := Option.bind_eq_some_iff.mp h
  rw [searcherOf, setSearcher, LinkedMap.get_modify_self hgroup]
  rfl

variable [DecidableEq A]

theorem crossEquals_iff {left right : List A} :
    crossEquals left right = true ↔
      left.length = right.length ∧ ∀ element ∈ left, element ∈ right := by
  simp [crossEquals]

theorem crossEquals_self (artifacts : List A) : crossEquals artifacts artifacts = true :=
  crossEquals_iff.mpr ⟨rfl, fun _ h => h⟩

/-- A second recalculation finds the selection that the first one has left. -/
theorem recalculate_recalculate (s : ArtifactsConfigurator A) (updatedGroupName : Option String) :
    (s.recalculateAvailableArtifacts p updatedGroupName).recalculateAvailableArtifacts p
      updatedGroupName = s.recalculateAvailableArtifacts p updatedGroupName := by
  by_cases h : crossEquals (s.newSelectedArtifacts p) s.selectedArtifacts = true
  · have hskip : s.recalculateAvailableArtifacts p updatedGroupName = s := if_pos h
    rw [hskip, hskip]
  · have hnew : s.recalculateAvailableArtifacts p updatedGroupName =
        { s with
          selectedArtifacts := s.newSelectedArtifacts p
          timers := s.timers ++ [.recalculation updatedGroupName] } := if_neg h
    rw [hnew]
    exact if_pos (crossEquals_self _)

theorem call_searcher {c : SearcherCall A} {inner : List (SearcherCall A)}
    (hs : s.searcherOf name = some searcher)
    (h : ManagedSearcher.call p.artifactsSearcher searcher c = some (searcher', inner)) :
    call p s (.searcher name c) =
      some (s.setSearcher name searcher', innerCalls name c inner) := by
  simp only [call, hs, h, Option.map_some]

/-- A group as the host of its searcher. -/
def groupHost (p : ArtifactsProperties A) (name : String) :
    SearcherHost p.artifactsSearcher (ArtifactsConfigurator A) (GroupsCall A) where
  call := call p
  Has := fun s searcher => s.searcherOf name = some searcher
  put := fun s searcher => s.setSearcher name searcher
  embed := .searcher name
  tell := fun _ => .recalculate (some name)
  told := fun s _ => s.recalculateAvailableArtifacts p (some name)
  has_put := searcherOf_setSearcher
  put_put := fun s _ _ => setSearcher_setSearcher s
  call_embed := call_searcher
  call_tell := fun _ _ => rfl

theorem foldl_recalculate (s : ArtifactsConfigurator A) {told : List (List A)} (h : told ≠ []) :
    told.foldl (fun s _ => s.recalculateAvailableArtifacts p (some name)) s =
      s.recalculateAvailableArtifacts p (some name) := by
  induction told using List.reverseRecOn with
  | nil => exact absurd rfl h
  | append_singleton told values ih =>
      rw [List.foldl_concat]
      by_cases hnone : told = []
      · rw [hnone, List.foldl_nil]
      · rw [ih hnone, recalculate_recalculate]

/-- The calls of a searcher return among the groups as they do on their own; if they tell
the selection, they recalculate behind the last change. -/
theorem returns_searcher {n : Nat} {c : SearcherCall A}
    (h : Returns (ManagedSearcher.call p.artifactsSearcher) n searcher [c] searcher')
    (hs : s.searcherOf name = some searcher) :
    ∃ m ≤ 2 * n,
      (Returns (call p) m s [.searcher name c] (s.setSearcher name searcher') ∧
        searcher'.selected.value = searcher.selected.value) ∨
      Returns (call p) m s [.searcher name c]
        ((s.setSearcher name searcher').recalculateAvailableArtifacts p (some name)) := by
  obtain ⟨m, hm, told, hcalls, hsame, -⟩ :=
    (groupHost p name).returns (fun _ _ _ _ _ _ => trivial) h trivial hs
  by_cases hnone : told = []
  · subst hnone
    exact ⟨m, hm, .inl ⟨hcalls, hsame rfl⟩⟩
  · have hlast := @foldl_recalculate A p name _ (s.setSearcher name searcher') told hnone
    exact ⟨m, hm, .inr (hlast ▸ hcalls)⟩

/-! ## The invariant -/

/-- A group offers artifacts of the project, and its searcher has selected the ones at its
selected indexes. -/
structure Sound (p : ArtifactsProperties A) (group : ArtifactsGroup A) : Prop where
  offered : ∀ artifact ∈ group.offered, artifact ∈ p.projectArtifacts
  consistent : ∀ searcher, group.searcher = some searcher → searcher.Ready ∧ searcher.Consistent

/-- A group offers its own artifacts and those that are not in `#selectedArtifacts`. -/
def UpToDate (p : ArtifactsProperties A) (s : ArtifactsConfigurator A)
    (group : ArtifactsGroup A) : Prop :=
  ∀ artifact, artifact ∈ group.offered ↔
    artifact ∈ group.selectedArtifacts ∨ artifact ∈ s.availableArtifacts p

/-- `#selectedArtifacts` has selected artifacts only, and what it lacks is selected in every
group that is drawn; a group that does not offer the right artifacts is going to be given
them. -/
structure Kept (p : ArtifactsProperties A) (s : ArtifactsConfigurator A) : Prop where
  sound : ∀ entry ∈ s.groups.entries, Sound p entry.2
  selected : ∀ artifact ∈ s.selectedArtifacts, artifact ∈ s.selectedInGroups
  known : ∀ entry ∈ s.groups.entries, entry.2.searcher ≠ none →
    ∀ artifact ∈ s.selectedInGroups,
      artifact ∈ s.selectedArtifacts ∨ artifact ∈ entry.2.selectedArtifacts
  covered : ∀ entry ∈ s.groups.entries, UpToDate p s entry.2 ∨ s.Awaits entry.1

theorem mem_availableArtifacts :
    artifact ∈ s.availableArtifacts p ↔
      artifact ∈ p.projectArtifacts ∧ artifact ∉ s.selectedArtifacts := by
  simp [availableArtifacts]

omit [DecidableEq A] in
theorem mem_selectedInGroups :
    artifact ∈ s.selectedInGroups ↔
      ∃ entry ∈ s.groups.entries, artifact ∈ entry.2.selectedArtifacts := by
  rw [selectedInGroups, LinkedMap.values, List.flatMap_map, List.mem_flatMap]

omit [DecidableEq A] in
theorem Sound.selected {group : ArtifactsGroup A} (h : Sound p group)
    (hartifact : artifact ∈ group.selectedArtifacts) : artifact ∈ p.projectArtifacts := by
  refine h.offered artifact ?_
  rcases group with ⟨available, initial, searcher⟩
  cases searcher with
  | none => cases hartifact
  | some searcher =>
      exact ManagedSearcher.mem_items_of_consistent (h.consistent searcher rfl).2 hartifact

omit [DecidableEq A] in
theorem mem_unique (hnames : NamesDiffer p) (hproject : ∀ artifact ∈ artifacts,
    artifact ∈ p.projectArtifacts) : artifact ∈ p.unique artifacts ↔ artifact ∈ artifacts :=
  LinkedMap.mem_uniqueBy fun a ha b hb => hnames a (hproject a ha) b (hproject b hb)

omit [DecidableEq A] in
theorem mem_newSelectedArtifacts (hnames : NamesDiffer p)
    (hsound : ∀ entry ∈ s.groups.entries, Sound p entry.2) :
    artifact ∈ s.newSelectedArtifacts p ↔ artifact ∈ s.selectedInGroups := by
  simp only [newSelectedArtifacts, selectedInGroups, LinkedMap.values, List.mem_flatMap,
    List.mem_map]
  constructor
  · rintro ⟨group, ⟨entry, hentry, rfl⟩, hartifact⟩
    exact ⟨entry.2, ⟨entry, hentry, rfl⟩, LinkedMap.mem_of_mem_uniqueBy hartifact⟩
  · rintro ⟨group, ⟨entry, hentry, rfl⟩, hartifact⟩
    exact ⟨entry.2, ⟨entry, hentry, rfl⟩,
      (mem_unique hnames fun _ => (hsound entry hentry).selected).mpr hartifact⟩

/-- A recalculation covers the groups other than the updated one; that one has to offer the
right artifacts already. -/
theorem kept_recalculate (hnames : NamesDiffer p) {updatedGroupName : Option String}
    (hsound : ∀ entry ∈ s.groups.entries, Sound p entry.2)
    (hnoticed : s.Noticed (s.newSelectedArtifacts p))
    (hothers : ∀ entry ∈ s.groups.entries, updatedGroupName ≠ some entry.1 →
      UpToDate p s entry.2 ∨ s.Awaits entry.1)
    (hown : ∀ entry ∈ s.groups.entries, updatedGroupName = some entry.1 →
      s.Awaits entry.1 ∨ ∀ artifact, artifact ∈ entry.2.offered ↔
        artifact ∈ entry.2.selectedArtifacts ∨
          (artifact ∈ p.projectArtifacts ∧ artifact ∉ s.selectedInGroups)) :
    Kept p (s.recalculateAvailableArtifacts p updatedGroupName) := by
  have hnew : ∀ artifact, artifact ∈ s.newSelectedArtifacts p ↔ artifact ∈ s.selectedInGroups :=
    fun artifact => mem_newSelectedArtifacts hnames hsound
  by_cases hequal : crossEquals (s.newSelectedArtifacts p) s.selectedArtifacts = true
  · have hskip : s.recalculateAvailableArtifacts p updatedGroupName = s := if_pos hequal
    have hsame : ∀ artifact, artifact ∈ s.selectedArtifacts ↔ artifact ∈ s.selectedInGroups := by
      intro artifact
      rw [← hnew]
      exact ⟨hnoticed hequal artifact, (crossEquals_iff.mp hequal).2 artifact⟩
    rw [hskip]
    refine ⟨hsound, fun artifact => (hsame artifact).mp,
      fun _ _ _ artifact h => .inl ((hsame artifact).mpr h), fun entry hentry => ?_⟩
    by_cases hupdated : updatedGroupName = some entry.1
    · rcases hown entry hentry hupdated with hawaits | hright
      · exact .inr hawaits
      · refine .inl fun artifact => ?_
        rw [hright, mem_availableArtifacts, hsame]
    · exact hothers entry hentry hupdated
  · have htaken : s.recalculateAvailableArtifacts p updatedGroupName =
        { s with
          selectedArtifacts := s.newSelectedArtifacts p
          timers := s.timers ++ [.recalculation updatedGroupName] } := if_neg hequal
    rw [htaken]
    refine ⟨hsound, fun artifact => (hnew artifact).mp,
      fun _ _ _ artifact h => .inl ((hnew artifact).mpr h), fun entry hentry => ?_⟩
    by_cases hupdated : updatedGroupName = some entry.1
    · rcases hown entry hentry hupdated with ⟨timer, hmem, hover⟩ | hright
      · exact .inr ⟨timer, List.mem_append_left _ hmem, hover⟩
      · refine .inl fun artifact => ?_
        rw [hright, mem_availableArtifacts, hnew]
    · exact .inr ⟨_, List.mem_append_right _ List.mem_cons_self, decide_eq_true hupdated⟩

/-! ## Additions and deletions -/

theorem groups_recalculate (s : ArtifactsConfigurator A)
    (updatedGroupName : Option String) :
    (s.recalculateAvailableArtifacts p updatedGroupName).groups = s.groups := by
  rw [recalculateAvailableArtifacts]
  split <;> rfl

theorem kept_addGroup (hnames : NamesDiffer p) (h : Kept p s)
    (hfresh : name ∉ s.groups.entries.map Prod.fst) {group : ArtifactsGroup A}
    (hsearcher : group.searcher = none) (havailable : group.available = s.availableArtifacts p) :
    Kept p (s.addGroup p name group) := by
  have hoffered : group.offered = s.availableArtifacts p := by
    rw [ArtifactsGroup.offered, hsearcher, havailable]
  have hselected : group.selectedArtifacts = [] := by
    rw [ArtifactsGroup.selectedArtifacts, hsearcher]
  have hentries := @LinkedMap.entries_put_of_fresh _ _ _ _ _ group hfresh
  have hsound : ∀ entry ∈ (s.groups.put name group).entries, Sound p entry.2 := by
    intro entry hentry
    rw [hentries, List.mem_append, List.mem_singleton] at hentry
    rcases hentry with hentry | rfl
    · exact h.sound entry hentry
    · refine ⟨fun artifact hartifact => ?_, fun searcher hsome => ?_⟩
      · rw [hoffered, mem_availableArtifacts] at hartifact
        exact hartifact.1
      · rw [hsearcher] at hsome
        cases hsome
  refine kept_recalculate hnames hsound ?_ ?_ ?_
  · intro _ artifact hartifact
    rw [mem_newSelectedArtifacts hnames hsound, mem_selectedInGroups]
    obtain ⟨entry, hentry, hmem⟩ := mem_selectedInGroups.mp (h.selected artifact hartifact)
    exact ⟨entry, hentries ▸ List.mem_append_left _ hentry, hmem⟩
  · intro entry hentry _
    rw [hentries, List.mem_append, List.mem_singleton] at hentry
    rcases hentry with hentry | rfl
    · exact h.covered entry hentry
    · refine .inl fun artifact => ?_
      rw [hoffered, hselected]
      exact (or_iff_right List.not_mem_nil).symm
  · intro _ _ hupdated
    cases hupdated

theorem kept_addExisted (hnames : NamesDiffer p) (h : Kept p s) {names : List String}
    (hnodup : names.Nodup) (hfresh : ∀ name ∈ names, name ∉ s.groups.entries.map Prod.fst) :
    Kept p (names.foldl (fun s name => s.addExistedGroup p name) s) := by
  induction names generalizing s with
  | nil => exact h
  | cons name names ih =>
      obtain ⟨hnot, hnodup⟩ := List.nodup_cons.mp hnodup
      have hname := hfresh name List.mem_cons_self
      refine ih (kept_addGroup hnames h hname rfl rfl) hnodup fun later hlater => ?_
      change later ∉ (s.addExistedGroup p name).groups.entries.map Prod.fst
      rw [addExistedGroup, addGroup, groups_recalculate, LinkedMap.entries_put_of_fresh hname,
        List.map_append, List.mem_append, not_or]
      refine ⟨hfresh later (List.mem_cons_of_mem name hlater), ?_⟩
      rintro hsame
      rw [List.mem_singleton.mp hsame] at hlater
      exact hnot hlater

theorem kept_onDelete (hnames : NamesDiffer p) (h : Kept p s)
    (hnoticed : s.Noticed ((s.groups.remove name).values.flatMap fun group =>
      p.unique group.selectedArtifacts)) : Kept p (s.onDelete p name) := by
  have hmem : ∀ entry ∈ (s.groups.remove name).entries, entry ∈ s.groups.entries :=
    fun entry hentry => (LinkedMap.mem_entries_remove.mp hentry).1
  refine kept_recalculate hnames (fun entry hentry => h.sound entry (hmem entry hentry)) hnoticed
    (fun entry hentry _ => h.covered entry (hmem entry hentry)) ?_
  intro _ _ hupdated
  cases hupdated

/-! ## The first drawing -/

omit [DecidableEq A] in
theorem mem_entries_setSearcher {group : ArtifactsGroup A}
    (hgroup : (name, group) ∈ s.groups.entries) {entry : String × ArtifactsGroup A} :
    entry ∈ (s.setSearcher name searcher).groups.entries ↔
      (entry ∈ s.groups.entries ∧ entry.1 ≠ name) ∨
        entry = (name, { group with searcher := some searcher }) := by
  rw [setSearcher, LinkedMap.mem_entries_modify]
  refine or_congr Iff.rfl ⟨?_, fun h => ⟨group, hgroup, h⟩⟩
  rintro ⟨group', hgroup', rfl⟩
  rw [← LinkedMap.get_eq_some_iff] at hgroup hgroup'
  cases hgroup.symm.trans hgroup'
  rfl

omit [DecidableEq A] in
theorem mem_selectedInGroups_setSearcher {group : ArtifactsGroup A}
    (hgroup : (name, group) ∈ s.groups.entries) :
    artifact ∈ (s.setSearcher name searcher).selectedInGroups ↔
      (∃ entry ∈ s.groups.entries, entry.1 ≠ name ∧ artifact ∈ entry.2.selectedArtifacts) ∨
        artifact ∈ searcher.values := by
  simp only [mem_selectedInGroups, mem_entries_setSearcher hgroup]
  constructor
  · rintro ⟨entry, ⟨hentry, hne⟩ | rfl, hartifact⟩
    · exact .inl ⟨entry, hentry, hne, hartifact⟩
    · exact .inr hartifact
  · rintro (⟨entry, hentry, hne, hartifact⟩ | hartifact)
    · exact ⟨entry, .inl ⟨hentry, hne⟩, hartifact⟩
    · exact ⟨_, .inr rfl, hartifact⟩

omit [DecidableEq A] in
theorem artifactsSearcher_comparator (hnames : NamesDiffer p) {items : List A}
    (hproject : ∀ item ∈ items, item ∈ p.projectArtifacts) :
    ManagedSearcher.TellsApart p.artifactsSearcher items := by
  intro item hitem value hvalue
  simp only [ArtifactsProperties.artifactsSearcher, decide_eq_true_eq]
  exact ⟨hnames item (hproject item hitem) value (hproject value hvalue), congrArg p.name⟩

theorem kept_drawn (hnames : NamesDiffer p) (h : Kept p s) {group : ArtifactsGroup A}
    (hgroup : s.groups.get name = some group) (hsearcher : group.searcher = none)
    (hregular : s.Regular p (.drawn name)) :
    Kept p (s.setSearcher name
      (.configuration p.artifactsSearcher group.available group.initial)) := by
  obtain ⟨hinitial, hothers, hbefore⟩ := hregular group hgroup
  have hentry := LinkedMap.get_eq_some_iff.mp hgroup
  have hitems : group.available.map p.artifactsSearcher.itemValue = group.available :=
    List.map_id group.available
  have hoffered : group.offered = group.available := by
    rw [ArtifactsGroup.offered, hsearcher]
  have hproject : ∀ artifact ∈ group.available, artifact ∈ p.projectArtifacts := by
    rw [← hoffered]
    exact (h.sound _ hentry).offered
  have hchosen : ∀ artifact, artifact ∈ (s.setSearcher name
      (.configuration p.artifactsSearcher group.available group.initial)).selectedInGroups →
      artifact ∈ s.selectedInGroups ∨ artifact ∈ group.initial.getD [] := by
    intro artifact hartifact
    rw [mem_selectedInGroups_setSearcher hentry] at hartifact
    refine hartifact.imp_left fun ⟨entry, hmem, _, hselected⟩ => ?_
    exact mem_selectedInGroups.mpr ⟨entry, hmem, hselected⟩
  constructor
  · intro entry hmem
    rcases (mem_entries_setSearcher hentry).mp hmem with ⟨hmem, -⟩ | rfl
    · exact h.sound entry hmem
    · refine ⟨fun artifact hartifact => ?_, ?_⟩
      · exact hproject artifact (hitems ▸ hartifact)
      · rintro _ ⟨⟩
        refine ⟨ManagedSearcher.ready_configuration .., ?_⟩
        change Exactly (group.available.map p.artifactsSearcher.itemValue) _ _
        rw [hitems]
        exact ManagedSearcher.exactly_firstIndexes hinitial
          (artifactsSearcher_comparator hnames hproject)
  · intro artifact hartifact
    rw [mem_selectedInGroups_setSearcher hentry]
    obtain ⟨⟨name', group'⟩, hmem, hselected⟩ :=
      mem_selectedInGroups.mp (h.selected artifact hartifact)
    refine .inl ⟨_, hmem, ?_, hselected⟩
    -- the group itself has selected nothing before
    rintro rfl
    cases hgroup.symm.trans (LinkedMap.get_eq_some_iff.mpr hmem)
    rw [ArtifactsGroup.selectedArtifacts, hsearcher] at hselected
    cases hselected
  · intro entry hmem hdrawn artifact hartifact
    rcases (mem_entries_setSearcher hentry).mp hmem with ⟨hmem, hne⟩ | rfl
    · rcases hchosen artifact hartifact with hold | hnew
      · exact h.known entry hmem hdrawn artifact hold
      · exact hothers entry hmem hne hdrawn artifact hnew
    · rcases hchosen artifact hartifact with hold | hnew
      · exact hbefore artifact hold
      · exact .inr hnew
  · intro entry hmem
    rcases (mem_entries_setSearcher hentry).mp hmem with ⟨hmem, -⟩ | rfl
    · exact h.covered entry hmem
    · refine (h.covered _ hentry).imp_left fun hright artifact => ?_
      have hbefore := hright artifact
      rw [hoffered, ArtifactsGroup.selectedArtifacts, hsearcher,
        or_iff_right List.not_mem_nil] at hbefore
      change artifact ∈ group.available.map p.artifactsSearcher.itemValue ↔
        artifact ∈ group.initial.getD [] ∨ artifact ∈ s.availableArtifacts p
      rw [hitems, hbefore]
      refine ⟨.inr, fun h => h.elim (fun hown => ?_) id⟩
      exact hbefore.mp (hinitial artifact hown)

/-! ## Selections -/

/-- The names of the groups, what they have selected and whether they are drawn. -/
def selections (s : ArtifactsConfigurator A) : List (String × List A × Bool) :=
  s.groups.entries.map fun entry =>
    (entry.1, entry.2.selectedArtifacts, entry.2.searcher.isSome)

omit [DecidableEq A] in
theorem selectedInGroups_eq (s : ArtifactsConfigurator A) :
    s.selectedInGroups = s.selections.flatMap fun selection => selection.2.1 := by
  rw [selectedInGroups, LinkedMap.values, List.flatMap_map, selections, List.flatMap_map]

omit [DecidableEq A] in
theorem selections_setSearcher (hs : s.searcherOf name = some searcher)
    (hvalues : searcher'.values = searcher.values) :
    (s.setSearcher name searcher').selections = s.selections := by
  obtain ⟨group, hgroup, hsearcher⟩ := searcherOf_eq_some_iff.mp hs
  rw [selections, setSearcher, LinkedMap.modify, List.map_map]
  refine List.map_congr_left fun entry hentry => ?_
  obtain ⟨name', group'⟩ := entry
  by_cases hname : name' = name
  · subst hname
    rw [← LinkedMap.get_eq_some_iff] at hgroup hentry
    cases hgroup.symm.trans hentry
    simp [ArtifactsGroup.selectedArtifacts, hsearcher, hvalues]
  · simp [hname]

/-- Where no selection changes, only what the groups offer is left to see. -/
theorem kept_of_selections (h : Kept p s) (hselected : t.selectedArtifacts = s.selectedArtifacts)
    (hselections : t.selections = s.selections)
    (hentries : ∀ entry ∈ t.groups.entries,
      Sound p entry.2 ∧ (UpToDate p t entry.2 ∨ t.Awaits entry.1)) : Kept p t := by
  have hchosen : t.selectedInGroups = s.selectedInGroups := by
    rw [selectedInGroups_eq, hselections, ← selectedInGroups_eq]
  refine ⟨fun entry hentry => (hentries entry hentry).1, ?_, ?_,
    fun entry hentry => (hentries entry hentry).2⟩
  · rw [hselected, hchosen]
    exact h.selected
  · intro entry hentry hdrawn artifact hartifact
    have hmem : (entry.1, entry.2.selectedArtifacts, entry.2.searcher.isSome) ∈ s.selections := by
      rw [← hselections]
      exact List.mem_map_of_mem hentry
    obtain ⟨entry', hentry', hsame⟩ := List.mem_map.mp hmem
    simp only [Prod.mk.injEq] at hsame
    obtain ⟨-, hown, hsome⟩ := hsame
    rw [hselected, ← hown]
    refine h.known entry' hentry' (fun hnone => ?_) artifact (hchosen ▸ hartifact)
    rw [hnone] at hsome
    rw [eq_comm, Option.isSome_none, Option.isSome_eq_false_iff, Option.isNone_iff_eq_none]
      at hsome
    exact hdrawn hsome

theorem noticed_of_perm {new new' : List A} (h : s.Noticed new) (hperm : new.Perm new') :
    s.Noticed new' := by
  intro hequal artifact hartifact
  rw [crossEquals_iff, ← hperm.length_eq] at hequal
  refine hperm.subset (h (crossEquals_iff.mpr ⟨hequal.1, ?_⟩) artifact hartifact)
  exact fun element helement => hequal.2 element (hperm.subset helement)

omit [DecidableEq A] in
/-- The recalculation sees the artifacts at the indexes, in any order. -/
theorem selectionWith_perm (hnames : NamesDiffer p) (hsound : Sound p
    { available := [], searcher := some searcher' }) {chosen : List A}
    (hchosen : ∀ artifact, artifact ∈ searcher'.values ↔ artifact ∈ chosen) :
    (s.selectionWith p name chosen).Perm
      ((s.setSearcher name searcher').newSelectedArtifacts p) := by
  rw [newSelectedArtifacts, LinkedMap.values, List.flatMap_map, setSearcher, LinkedMap.modify,
    List.flatMap_map, selectionWith]
  refine List.Perm.flatMap_left _ fun entry _ => ?_
  by_cases hname : entry.1 = name
  · rw [if_pos hname, if_pos hname]
    change (p.unique chosen).Perm (p.unique searcher'.values)
    refine (List.perm_ext_iff_of_nodup (LinkedMap.nodup_uniqueBy ..)
      (LinkedMap.nodup_uniqueBy ..)).mpr fun artifact => ?_
    have hproject : ∀ artifact ∈ searcher'.values, artifact ∈ p.projectArtifacts :=
      fun artifact hartifact => hsound.selected hartifact
    rw [← ArtifactsProperties.unique, ← ArtifactsProperties.unique,
      mem_unique hnames fun artifact hartifact =>
        hproject artifact ((hchosen artifact).mpr hartifact),
      mem_unique hnames hproject, hchosen]
  · rw [if_neg hname, if_neg hname]

omit [DecidableEq A] in
theorem artifactsSearcher_equivalence :
    Equivalence fun a b => p.artifactsSearcher.comparator a b = true := by
  refine ⟨fun a => ?_, fun h => ?_, fun h h' => ?_⟩
  · simp [ArtifactsProperties.artifactsSearcher]
  · simpa [ArtifactsProperties.artifactsSearcher] using (of_decide_eq_true h).symm
  · simpa [ArtifactsProperties.artifactsSearcher] using
      (of_decide_eq_true h).trans (of_decide_eq_true h')

/-- A group that offered the right artifacts still does behind a change of its own selection,
unless one that it drops is selected elsewhere. -/
theorem mem_items_of_select (h : Kept p s) {group : ArtifactsGroup A}
    (hgroup : (name, group) ∈ s.groups.entries) (hsearcher : group.searcher = some searcher)
    (hright : UpToDate p s group) (hitems : searcher'.items = searcher.items)
    (hown : ∀ artifact ∈ searcher'.values, artifact ∈ searcher'.items)
    (hdropped : ∀ artifact ∈ searcher.values, artifact ∉ searcher'.values →
      ∀ entry ∈ s.groups.entries, entry.1 ≠ name → artifact ∉ entry.2.selectedArtifacts) :
    artifact ∈ searcher'.items ↔
      artifact ∈ searcher'.values ∨ (artifact ∈ p.projectArtifacts ∧
        artifact ∉ (s.setSearcher name searcher').selectedInGroups) := by
  have hselected : group.selectedArtifacts = searcher.values := by
    rw [ArtifactsGroup.selectedArtifacts, hsearcher]
  have hoffered : group.offered = searcher'.items := by
    rw [ArtifactsGroup.offered, hsearcher, hitems]
  have hbefore := hright artifact
  rw [hoffered, hselected, mem_availableArtifacts] at hbefore
  rw [mem_selectedInGroups_setSearcher hgroup]
  constructor
  · intro hitem
    refine or_iff_not_imp_left.mpr fun hnot => ⟨?_, ?_⟩
    · exact (h.sound _ hgroup).offered artifact (hoffered ▸ hitem)
    rintro (⟨entry, hentry, hne, hother⟩ | hchosen)
    · -- it is selected elsewhere, so this group has offered it as its own
      have hvalue : artifact ∈ searcher.values := by
        refine (hbefore.mp hitem).elim id fun hfree => ?_
        have hknown := h.known _ hgroup (by rw [hsearcher]; exact Option.some_ne_none _)
          artifact (mem_selectedInGroups.mpr ⟨entry, hentry, hother⟩)
        rwa [hselected, or_iff_right hfree.2] at hknown
      exact hdropped artifact hvalue hnot entry hentry hne hother
    · exact hnot hchosen
  · rintro (hchosen | ⟨hmem, hfree⟩)
    · exact hown artifact hchosen
    rw [not_or] at hfree
    by_cases hold : artifact ∈ s.selectedArtifacts
    · obtain ⟨⟨name', group'⟩, hentry, hother⟩ :=
        mem_selectedInGroups.mp (h.selected artifact hold)
      by_cases hname : name' = name
      · subst hname
        rw [← LinkedMap.get_eq_some_iff] at hgroup hentry
        cases hgroup.symm.trans hentry
        exact hbefore.mpr (.inl (hselected ▸ hother))
      · exact absurd ⟨_, hentry, hname, hother⟩ hfree.1
    · exact hbefore.mpr (.inr ⟨hmem, hold⟩)

/-- Another selection in a group. -/
theorem kept_select (hnames : NamesDiffer p) (h : Kept p s) {indexes : List Nat}
    (hs : s.searcherOf name = some searcher)
    (hrange : ∀ index ∈ indexes, index < searcher.items.length)
    (hregular : s.Regular p (.select name indexes)) :
    ∃ t, exec (call p) 32 s [.searcher name (.setSelectedIndexes indexes)] = some t ∧
      Kept p t := by
  obtain ⟨group, hgroup, hsearcher⟩ := searcherOf_eq_some_iff.mp hs
  obtain ⟨hnoticed, hdropped⟩ := hregular searcher hs
  have hsound := h.sound _ hgroup
  have hoffered : group.offered = searcher.items := by rw [ArtifactsGroup.offered, hsearcher]
  have hselected : group.selectedArtifacts = searcher.values := by
    rw [ArtifactsGroup.selectedArtifacts, hsearcher]
  have hproject : ∀ artifact ∈ searcher.items, artifact ∈ p.projectArtifacts :=
    hoffered ▸ hsound.offered
  obtain ⟨⟨current, values, hholds⟩, hconsistent⟩ := hsound.consistent searcher hsearcher
  obtain ⟨settled, chosen, ⟨n, hn, searcher', hreturns, hholds'⟩, hexactly, hchosen, -⟩ :=
    ManagedSearcher.settles_selectIndexes hholds (fun _ => hholds.consistent_iff.mp hconsistent)
      hrange (fun _ => rfl) artifactsSearcher_equivalence (artifactsSearcher_comparator hnames hproject)
  obtain ⟨hitems', hindexes', hvalues'⟩ := hholds'.eq
  rw [← hvalues'] at hchosen
  have hsound' : Sound p { group with searcher := some searcher' } := by
    refine ⟨fun artifact hartifact => hproject artifact (hitems' ▸ hartifact), ?_⟩
    rintro _ ⟨⟩
    refine ⟨⟨settled, chosen, rfl, hholds'.indexes, hholds'.values⟩, ?_⟩
    rw [ManagedSearcher.Consistent, hitems', hindexes', hvalues']
    exact hexactly
  have hsounds : ∀ entry ∈ (s.setSearcher name searcher').groups.entries, Sound p entry.2 := by
    intro entry hentry
    rcases (mem_entries_setSearcher hgroup).mp hentry with ⟨hentry, -⟩ | rfl
    · exact h.sound entry hentry
    · exact hsound'
  obtain ⟨m, hm, ⟨hcalls, hsame⟩ | hcalls⟩ := returns_searcher hreturns hs
  · -- the selected artifacts are the same as before
    have hvalues : searcher'.values = searcher.values := by
      rw [ManagedSearcher.values, hsame, ManagedSearcher.values]
    refine ⟨_, hcalls.exec (by omega), kept_of_selections h rfl
      (selections_setSearcher hs hvalues) fun entry hentry => ⟨hsounds entry hentry, ?_⟩⟩
    rcases (mem_entries_setSearcher hgroup).mp hentry with ⟨hentry, -⟩ | rfl
    · exact h.covered entry hentry
    · refine (h.covered _ hgroup).imp_left fun hright artifact => ?_
      have hbefore := hright artifact
      rw [hoffered, hselected, ← hitems', ← hvalues] at hbefore
      exact hbefore
  · refine ⟨_, hcalls.exec (by omega), kept_recalculate hnames hsounds ?_ ?_ ?_⟩
    · refine noticed_of_perm hnoticed (selectionWith_perm hnames ⟨?_, ?_⟩ hchosen)
      · exact fun artifact hartifact => hproject artifact (hitems' ▸ hartifact)
      · exact hsound'.consistent
    · intro entry hentry hother
      rcases (mem_entries_setSearcher hgroup).mp hentry with ⟨hentry, -⟩ | rfl
      · exact h.covered entry hentry
      · exact absurd rfl hother
    · intro entry hentry hupdated
      rcases (mem_entries_setSearcher hgroup).mp hentry with ⟨-, hne⟩ | rfl
      · exact absurd (Option.some.inj hupdated).symm hne
      rcases hdropped with hawaits | hdropped
      · exact .inl hawaits
      refine (h.covered _ hgroup).symm.imp_right fun hright artifact => ?_
      refine mem_items_of_select h hgroup hsearcher hright hitems' ?_ ?_
      · intro artifact hartifact
        exact ManagedSearcher.mem_items_of_consistent (hsound'.consistent searcher' rfl).2 hartifact
      · simpa only [hchosen] using hdropped

/-! ## Timers -/

omit [DecidableEq A] in
theorem searcherOf_setSearcher_other {name' : String} (hne : name' ≠ name) :
    (s.setSearcher name searcher').searcherOf name' = s.searcherOf name' := by
  refine Option.ext fun searcher => ?_
  simp only [searcherOf_eq_some_iff, setSearcher, LinkedMap.mem_entries_modify]
  constructor
  · rintro ⟨group, ⟨hgroup, -⟩ | ⟨group', -, heq⟩, hsearcher⟩
    · exact ⟨group, hgroup, hsearcher⟩
    · exact absurd (congrArg Prod.fst heq) hne
  · rintro ⟨group, hgroup, hsearcher⟩
    exact ⟨group, .inl ⟨hgroup, hne⟩, hsearcher⟩

/-- Indexes at which the same artifacts stand tell nothing. -/
theorem ends_setSelectedIndexes {items values : List A} {current indexes : List Nat}
    (hs : s.searcherOf name = some searcher) (h : searcher.Holds items current values)
    (hrange : ∀ index ∈ indexes, index < items.length)
    (hvalues : ManagedSearcher.valuesAt p.artifactsSearcher items indexes = values) :
    Ends (call p) 3 s [.searcher name (.setSelectedIndexes indexes)] fun t =>
      ∃ searcher', t = s.setSearcher name searcher' ∧ searcher'.Holds items indexes values := by
  by_cases hsame : indexes = current
  · subst hsame
    have hcall : ManagedSearcher.call p.artifactsSearcher searcher
        (.setSelectedIndexes indexes) =
        some ({ searcher with
          selectedIndexes := searcher.selectedIndexes.keep (some indexes) }, []) := by
      simp [ManagedSearcher.call, Property.set_same h.indexes]
    exact Ends.mono (ends_leaf (call_searcher hs hcall) ⟨_, rfl, h.items, rfl, h.values⟩)
      (by omega)
  · have hcall : ManagedSearcher.call p.artifactsSearcher searcher
        (.setSelectedIndexes indexes) =
        some ({ searcher with
          selectedIndexes := searcher.selectedIndexes.commit false (some indexes) },
          [.consumeIndexes indexes]) := by
      simp [ManagedSearcher.call, Property.set_other h.indexes hsame]
    have htaken := searcherOf_setSearcher hs { searcher with
      selectedIndexes := searcher.selectedIndexes.commit false (some indexes) }
    have hconsume : ManagedSearcher.call p.artifactsSearcher
        { searcher with
          selectedIndexes := searcher.selectedIndexes.commit false (some indexes) }
        (.consumeIndexes indexes) = some ({ searcher with
          selectedIndexes := searcher.selectedIndexes.commit false (some indexes) },
          [.setSelected values]) := by
      simp only [ManagedSearcher.call, h.items, if_pos hrange, hvalues]
    have hkeep : ManagedSearcher.call p.artifactsSearcher
        { searcher with
          selectedIndexes := searcher.selectedIndexes.commit false (some indexes) }
        (.setSelected values) = some ({ searcher with
          selectedIndexes := searcher.selectedIndexes.commit false (some indexes)
          selected := searcher.selected.keep (some values) }, []) := by
      simp [ManagedSearcher.call, Property.set_same h.values]
    refine ends_of_inner (call_searcher hs hcall)
      (ends_of_inner (call_searcher htaken hconsume) ?_)
    rw [setSearcher_setSearcher]
    exact ends_leaf (call_searcher htaken hkeep)
      ⟨_, setSearcher_setSearcher s, h.items, rfl, rfl⟩

/-- A group takes the artifacts without a change of its selection. -/
theorem ends_setAvailableArtifacts (hnames : NamesDiffer p)
    (hs : s.searcherOf name = some searcher) (hready : searcher.Ready)
    (hconsistent : searcher.Consistent)
    (hproject : ∀ artifact ∈ searcher.items, artifact ∈ p.projectArtifacts) :
    Ends (call p) 5 s [.setAvailableArtifacts name] fun t =>
      ∃ searcher', t = s.setSearcher name searcher' ∧ searcher'.Ready ∧ searcher'.Consistent ∧
        searcher'.values = searcher.values ∧
        searcher'.items = ArtifactsGroup.availableFor searcher (s.availableArtifacts p) := by
  obtain ⟨current, values, hholds⟩ := hready
  obtain ⟨-, -, hvalues⟩ := hholds.eq
  generalize hitems : ArtifactsGroup.availableFor searcher (s.availableArtifacts p) = items
  have hselected : ∀ artifact ∈ values, artifact ∈ items := by
    intro artifact hartifact
    rw [← hitems]
    exact mem_availableFor_of_selected hconsistent (hvalues ▸ hartifact)
  have hallowed : ∀ artifact ∈ items, artifact ∈ p.projectArtifacts := by
    intro artifact hartifact
    rw [← hitems] at hartifact
    rcases mem_or_mem_of_mem_availableFor hconsistent hartifact with hown | hfree
    · exact hproject artifact (ManagedSearcher.mem_items_of_consistent hconsistent hown)
    · exact (mem_availableArtifacts.mp hfree).1
  have hexactly := ManagedSearcher.exactly_firstIndexes hselected
    (artifactsSearcher_comparator hnames hallowed)
  -- the first call sets the indexes of the selected artifacts among the new ones
  have hfirst : call p s (.setAvailableArtifacts name) =
      some (s, [.searcher name (.setAvailableValues items)]) := by
    simp only [call, hs, Option.map_some, hitems]
  have hset : ManagedSearcher.call p.artifactsSearcher searcher (.setAvailableValues items) =
      some ({ searcher with items := items }, [.setSelectedIndexes
        (ManagedSearcher.firstIndexes p.artifactsSearcher items values)]) := by
    have hmap : items.map p.artifactsSearcher.itemValue = items := List.map_id items
    simp only [ManagedSearcher.call, hholds.values, hmap]
  have hnext := searcherOf_setSearcher hs { searcher with items := items }
  have hlast := ends_setSelectedIndexes hnext ⟨rfl, hholds.indexes, hholds.values⟩
    ManagedSearcher.firstIndexes_lt
    (ManagedSearcher.valuesAt_of_exactly (p := p.artifactsSearcher) hexactly fun _ _ => rfl)
  refine ends_of_inner hfirst (ends_of_inner (call_searcher hs hset) (hlast.weaken ?_))
  rintro t ⟨searcher', rfl, hholds'⟩
  obtain ⟨hitems', hindexes', hvalues'⟩ := hholds'.eq
  refine ⟨searcher', setSearcher_setSearcher s, ⟨_, _, rfl, hholds'.indexes, hholds'.values⟩, ?_,
    hvalues'.trans hvalues.symm, hitems'⟩
  rw [ManagedSearcher.Consistent, hitems', hindexes', hvalues']
  exact hexactly

/-- The groups of some names take the artifacts one after the other. -/
theorem ends_refresh (hnames : NamesDiffer p) {names : List String} (hnodup : names.Nodup)
    (hsound : ∀ entry ∈ s.groups.entries, Sound p entry.2)
    (hdrawn : ∀ name ∈ names, ∃ searcher, s.searcherOf name = some searcher ∧
      (s.availableArtifacts p = [] ∨ NothingLost searcher (s.availableArtifacts p))) :
    Ends (call p) (5 * names.length) s (names.map .setAvailableArtifacts) fun t =>
      t.selectedArtifacts = s.selectedArtifacts ∧ t.timers = s.timers ∧
        t.selections = s.selections ∧ ∀ entry ∈ t.groups.entries,
          (entry ∈ s.groups.entries ∧ entry.1 ∉ names) ∨
            (entry.1 ∈ names ∧ Sound p entry.2 ∧ UpToDate p s entry.2) := by
  induction names generalizing s with
  | nil => exact ends_nil ⟨rfl, rfl, rfl, fun entry hentry => .inl ⟨hentry, List.not_mem_nil⟩⟩
  | cons name names ih =>
      obtain ⟨hnot, hnodup⟩ := List.nodup_cons.mp hnodup
      obtain ⟨searcher, hs, hlost⟩ := hdrawn name List.mem_cons_self
      obtain ⟨group, hgroup, hsearcher⟩ := searcherOf_eq_some_iff.mp hs
      obtain ⟨hready, hconsistent⟩ := (hsound _ hgroup).consistent searcher hsearcher
      have hproject : ∀ artifact ∈ searcher.items, artifact ∈ p.projectArtifacts := by
        have hoffered := (hsound _ hgroup).offered
        rwa [ArtifactsGroup.offered, hsearcher] at hoffered
      rw [List.map_cons, List.length_cons, Nat.mul_succ, Nat.add_comm, ← List.singleton_append]
      refine Ends.append (ends_setAvailableArtifacts hnames hs hready hconsistent hproject) ?_
      rintro t ⟨searcher', rfl, hready', hconsistent', hvalues', hitems'⟩
      have hfirst : ∀ entry ∈ (s.setSearcher name searcher').groups.entries,
          (entry ∈ s.groups.entries ∧ entry.1 ≠ name) ∨
            (entry.1 = name ∧ Sound p entry.2 ∧ UpToDate p s entry.2) := by
        intro entry hentry
        refine ((mem_entries_setSearcher hgroup).mp hentry).imp_right ?_
        rintro rfl
        refine ⟨rfl, ⟨fun artifact hartifact => ?_, ?_⟩, fun artifact => ?_⟩
        · change artifact ∈ searcher'.items at hartifact
          rw [hitems'] at hartifact
          rcases mem_or_mem_of_mem_availableFor hconsistent hartifact with hown | hfree
          · exact hproject artifact (ManagedSearcher.mem_items_of_consistent hconsistent hown)
          · exact (mem_availableArtifacts.mp hfree).1
        · rintro _ ⟨⟩
          exact ⟨hready', hconsistent'⟩
        · change artifact ∈ searcher'.items ↔ artifact ∈ searcher'.values ∨ _
          rw [hitems', hvalues']
          refine ⟨mem_or_mem_of_mem_availableFor hconsistent, ?_⟩
          rintro (hown | hfree)
          · exact mem_availableFor_of_selected hconsistent hown
          · exact (mem_setAvailableArtifacts_iff hconsistent).mpr hlost artifact hfree
      refine (ih hnodup ?_ ?_).weaken ?_
      · intro entry hentry
        rcases hfirst entry hentry with ⟨hold, -⟩ | ⟨-, hsound', -⟩
        · exact hsound entry hold
        · exact hsound'
      · intro later hlater
        have hne : later ≠ name := by
          rintro rfl
          exact hnot hlater
        rw [searcherOf_setSearcher_other hne]
        exact hdrawn later (List.mem_cons_of_mem name hlater)
      · intro t ⟨hselected, htimers, hselections, hentries⟩
        refine ⟨hselected, htimers, hselections.trans (selections_setSearcher hs hvalues'), ?_⟩
        intro entry hentry
        rcases hentries entry hentry with ⟨hbefore, hlater⟩ | ⟨hlater, hsound', hright⟩
        · refine (hfirst entry hbefore).imp (fun ⟨hold, hne⟩ => ⟨hold, ?_⟩)
            fun ⟨hname, h⟩ => ⟨hname ▸ List.mem_cons_self, h⟩
          exact List.not_mem_cons_of_ne_of_not_mem hne hlater
        · exact .inr ⟨List.mem_cons_of_mem name hlater, hsound', hright⟩

/-- The timer of a recalculation. -/
theorem kept_recalculation (hnames : NamesDiffer p) (h : Kept p s)
    {updatedGroupName : Option String} {timers : List GroupsTimer}
    (htimers : s.timers = .recalculation updatedGroupName :: timers)
    (hregular : s.Regular p .timer) :
    ∃ t, s.step p .timer = some t ∧ Kept p t ∧ s.KeepsGiven p t .timer := by
  have hhead : s.timers.head? = some (.recalculation updatedGroupName) := by
    rw [htimers, List.head?_cons]
  have hnodup : (s.refreshed updatedGroupName).Nodup := s.groups.nodup.filter _
  have hends : Ends (call p) _ { s with timers := timers } _ _ :=
    ends_refresh hnames hnodup h.sound (hregular _ hhead)
  have hfuel : 5 * (s.refreshed updatedGroupName).length ≤
      32 * (s.refreshed updatedGroupName).length := by
    omega
  obtain ⟨t, hexec, hselected, hleft, hselections, hentries⟩ := hends.exec hfuel
  have hstep : s.step p .timer = some t := by
    simp only [step, htimers]
    exact hexec
  have huptodate : ∀ group, UpToDate p s group → UpToDate p t group := by
    intro group hright artifact
    rw [hright artifact, mem_availableArtifacts, mem_availableArtifacts, hselected]
  refine ⟨t, hstep, kept_of_selections h hselected hselections fun entry hentry => ?_, ?_⟩
  · rcases hentries entry hentry with ⟨hold, hskipped⟩ | ⟨-, hsound, hright⟩
    · refine ⟨h.sound entry hold, (h.covered entry hold).imp (huptodate entry.2) ?_⟩
      -- this timer goes not over the group that it was waiting for
      rintro ⟨timer, hmem, hover⟩
      rw [htimers, List.mem_cons] at hmem
      refine ⟨timer, hleft ▸ hmem.resolve_left fun hsame => ?_, hover⟩
      subst hsame
      exact hskipped (List.mem_filter.mpr ⟨List.mem_map_of_mem hold, hover⟩)
    · exact ⟨hsound, .inl (huptodate entry.2 hright)⟩
  · intro updated hupdated name hname searcher hs
    cases hhead.symm.trans hupdated
    obtain ⟨group, hgroup, hsearcher⟩ := searcherOf_eq_some_iff.mp hs
    have hmem : (name, searcher.values, true) ∈ t.selections := by
      rw [hselections]
      refine List.mem_map.mpr ⟨_, hgroup, ?_⟩
      simp [ArtifactsGroup.selectedArtifacts, hsearcher]
    obtain ⟨⟨name', group'⟩, hentry, hsame⟩ := List.mem_map.mp hmem
    simp only [Prod.mk.injEq, Option.isSome_iff_exists] at hsame
    obtain ⟨rfl, hvalues, searcher', hsearcher'⟩ := hsame
    refine ⟨searcher', searcherOf_eq_some_iff.mpr ⟨group', hentry, hsearcher'⟩, ?_, ?_⟩
    · rwa [ArtifactsGroup.selectedArtifacts, hsearcher'] at hvalues
    · intro artifact hfree
      rcases hentries _ hentry with ⟨-, hskipped⟩ | ⟨-, -, hright⟩
      · exact absurd hname hskipped
      · have hoffered := (hright artifact).mpr (.inr hfree)
        rwa [ArtifactsGroup.offered, hsearcher'] at hoffered

/-! ## Runs -/

theorem kept_initial : Kept p ({} : ArtifactsConfigurator A) := by
  constructor <;> simp [LinkedMap.empty]

/-- The timer of the constructor. -/
theorem kept_initialized (hnames : NamesDiffer p) (h : Kept p s) {timers : List GroupsTimer}
    (htimers : s.timers = .addExisted :: timers)
    (hfresh : ∀ name ∈ initialNames p, name ∉ s.groups.entries.map Prod.fst) :
    Kept p ((initialNames p).foldl (fun s name => s.addExistedGroup p name)
      { s with timers := timers }) := by
  have hbefore : Kept p { s with timers := timers } := by
    refine ⟨h.sound, h.selected, h.known, fun entry hentry => (h.covered entry hentry).imp_right ?_⟩
    rintro ⟨timer, hmem, hover⟩
    rw [htimers, List.mem_cons] at hmem
    refine ⟨timer, hmem.resolve_left fun hsame => ?_, hover⟩
    rw [hsame] at hover
    cases hover
  exact kept_addExisted hnames hbefore (LinkedMap.nodup_map_uniqueBy ..) hfresh

/-- One step, by its event. -/
theorem kept_step (hnames : NamesDiffer p) {event : GroupsEvent} (h : Kept p s)
    (hregular : s.Regular p event) (hstep : s.step p event = some t) :
    Kept p t ∧ s.KeepsGiven p t event := by
  cases event with
  | add name =>
      simp only [step] at hstep
      split at hstep
      next => cases hstep
      next hfresh =>
        cases hstep
        exact ⟨kept_addGroup hnames h hfresh rfl rfl, trivial⟩
  | drawn name =>
      simp only [step] at hstep
      split at hstep
      next => cases hstep
      next group hgroup =>
        split at hstep
        next => cases hstep
        next hsearcher =>
          cases hstep
          exact ⟨kept_drawn hnames h hgroup hsearcher hregular, trivial⟩
  | select name indexes =>
      simp only [step] at hstep
      split at hstep
      next => cases hstep
      next searcher hs =>
        split at hstep
        next hrange =>
          obtain ⟨u, hexec, hkept⟩ := kept_select hnames h hs hrange hregular
          cases hexec.symm.trans hstep
          exact ⟨hkept, trivial⟩
        next => cases hstep
  | delete name =>
      simp only [step] at hstep
      split at hstep
      next =>
        cases hstep
        exact ⟨kept_onDelete hnames h hregular, trivial⟩
      next => cases hstep
  | timer =>
      cases htimers : s.timers with
      | nil =>
          simp only [step, htimers] at hstep
          cases hstep
      | cons timer timers =>
          cases timer with
          | addExisted =>
              simp only [step, htimers] at hstep
              cases hstep
              have hhead : s.timers.head? = some .addExisted := by rw [htimers, List.head?_cons]
              have hfresh : ∀ name ∈ initialNames p, name ∉ s.groups.entries.map Prod.fst :=
                hregular _ hhead
              refine ⟨kept_initialized hnames h htimers hfresh, fun updated hupdated => ?_⟩
              cases hhead.symm.trans hupdated
          | recalculation updatedGroupName =>
              obtain ⟨u, hu, hkept, hgiven⟩ := kept_recalculation hnames h htimers hregular
              cases hu.symm.trans hstep
              exact ⟨hkept, hgiven⟩

theorem Kept.offersFree (h : Kept p s) : s.OffersFree p := by
  intro htimers name searcher hs artifact
  obtain ⟨group, hgroup, hsearcher⟩ := searcherOf_eq_some_iff.mp hs
  have hselected : group.selectedArtifacts = searcher.values := by
    rw [ArtifactsGroup.selectedArtifacts, hsearcher]
  rcases h.covered _ hgroup with hright | ⟨updated, hmem, -⟩
  · have hiff := hright artifact
    rw [ArtifactsGroup.offered, hsearcher, hselected, mem_availableArtifacts] at hiff
    refine hiff.trans (or_congr_right' fun hnot => and_congr_right fun _ => not_congr ?_)
    refine ⟨h.selected artifact, fun hchosen => ?_⟩
    have hknown := h.known _ hgroup (by rw [hsearcher]; exact Option.some_ne_none _)
      artifact hchosen
    rw [hselected] at hknown
    exact hknown.resolve_right hnot
  · rw [htimers] at hmem
    cases hmem

end ArtifactsConfigurator

/-- In every run whose events meet the condition each group offers, whenever no timer is
left, its own artifacts and all project artifacts that are selected in no group; each
recalculation leaves the selections alone and loses none of the artifacts it gives. -/
theorem groups_offer_free {A : Type} [DecidableEq A] (p : ArtifactsProperties A)
    (events : List GroupsEvent) (hnames : ArtifactsConfigurator.NamesDiffer p)
    (hregular : EachStep (ArtifactsConfigurator.step p) {} events
      (ArtifactsConfigurator.Regular p)) :
    Always (ArtifactsConfigurator.step p) {} events (ArtifactsConfigurator.OffersFree p) ∧
      EachStep (ArtifactsConfigurator.step p) {} events fun s event =>
        ∀ t, ArtifactsConfigurator.step p s event = some t →
          ArtifactsConfigurator.KeepsGiven p s t event := by
  have hkept := always_of_eachStep ArtifactsConfigurator.kept_initial hregular
    fun s event t h hevent hstep => (ArtifactsConfigurator.kept_step hnames h hevent hstep).1
  refine ⟨hkept.mono fun s h => h.offersFree, fun earlier event s hearlier hrun t hstep => ?_⟩
  have hbefore := hkept earlier s ((List.prefix_append earlier [event]).trans hearlier) hrun
  exact (ArtifactsConfigurator.kept_step hnames hbefore
    (hregular earlier event s hearlier hrun) hstep).2

/-- A project with three artifacts, which are known by their names. -/
def threeArtifacts : ArtifactsProperties String where
  name := id
  projectArtifacts := ["a", "b", "c"]

/-- Two groups whose selections are behind the artifacts that they are given. -/
theorem groups_offer_free_two_groups :
    Always (ArtifactsConfigurator.step threeArtifacts) {}
        [.timer, .add "1", .drawn "1", .select "1" [2], .timer, .add "2", .drawn "2",
          .select "2" [1], .timer]
        (ArtifactsConfigurator.OffersFree threeArtifacts) ∧
      EachStep (ArtifactsConfigurator.step threeArtifacts) {}
        [.timer, .add "1", .drawn "1", .select "1" [2], .timer, .add "2", .drawn "2",
          .select "2" [1], .timer]
        fun s event => ∀ t, ArtifactsConfigurator.step threeArtifacts s event = some t →
          ArtifactsConfigurator.KeepsGiven threeArtifacts s t event :=
  groups_offer_free threeArtifacts _ (by decide) (eachStep_of_check (by decide))

/-- The first artifact is selected in one group and the second in the other: the third one is
free, is given to the first group at the position of the first, and is not offered there. -/
theorem given_artifact_lost :
    ∃ s, run (ArtifactsConfigurator.step threeArtifacts) {}
        [.timer, .add "1", .drawn "1", .add "2", .drawn "2", .select "1" [0], .timer,
          .select "2" [0], .timer] = some s ∧
      s.timers = [] ∧ s.selectedInGroups = ["a", "b"] ∧
      (s.searcherOf "1").map ManagedSearcher.items = some ["a"] ∧
      ¬ s.OffersFree threeArtifacts := by
  refine ⟨_, rfl, rfl, rfl, rfl, fun h => ?_⟩
  have hoffered := (h rfl "1" _ rfl "c").mpr (.inr ⟨by decide, by decide⟩)
  revert hoffered
  decide

end ArtPlatform.Web
