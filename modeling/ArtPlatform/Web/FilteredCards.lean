import ArtPlatform.Web.ManagedGrid
import Mathlib.Data.List.Nodup
import Mathlib.Data.List.Perm.Basic
import Mathlib.Tactic.Common

/-!
# The cards of the modules and the assemblies page

Every change of a filter, of the project or of an entity asks for the filtered entities once
more.  Whichever answer arrives replaces the entities and the cards.

Main results:

- Theorem `refreshCards_cardsOf`: behind an answer there is one card for each of its entities.
- Theorem `shown_of_cardsOf`: the cards that are drawn, on either page.
- Theorem `shows_lastIssued_iff`: when every request has been answered, the cards are those of
  the answer to the request issued last if and only if the answer that arrived last has the
  same entities, with versions of the project on the modules page.
- Theorem `older_answer_shown`: two answers that arrive in the opposite order.
-/

namespace ArtPlatform.Web

open EventRun

inductive PageKind
  | modules
  | assemblies
deriving DecidableEq, Repr

structure PageProject where
  id : Nat
  versions : List String
deriving DecidableEq, Repr

/-- A module or an assembly, with the version of its artifact or of itself. -/
structure PageEntity where
  id : Nat
  version : String
deriving DecidableEq, Repr

/-- The ids of the entities of an answer are distinct. -/
structure PageAnswer where
  entities : List PageEntity
  nodup : (entities.map PageEntity.id).Nodup

def PageAnswer.ids (answer : PageAnswer) : List Nat :=
  answer.entities.map PageEntity.id

/-- What is selected in the filter. -/
structure FilterValues where
  versions : List String := []
  modules : List Nat := []
  states : List String := []
deriving DecidableEq, Repr

structure FilterRequest where
  projectIds : List Nat
  versions : Option (List String) := none
  ids : Option (List Nat) := none
  states : Option (List String) := none
  count : Option Nat := none
  sorted : Bool := true
deriving DecidableEq, Repr

/-- What the answer to a request is for: the modules of the filter, or the cards. -/
inductive AnswerUse
  | refilter (silent : Bool)
  | refresh (silent : Bool)
deriving DecidableEq, Repr

structure IssuedRequest where
  number : Nat
  request : FilterRequest
  use : AnswerUse
deriving DecidableEq, Repr

/-- A page with the requests that are scheduled and those that are not answered; the requests
are numbered as they are issued. -/
structure CardsPage where
  kind : PageKind
  projects : List PageProject
  selected : Nat := 0
  project : PageProject
  filter : FilterValues := {}
  entities : List PageEntity
  cards : ManagedGrid Nat := {}
  filtering : Bool := true
  scheduled : List (FilterRequest × Bool) := []
  issued : Nat := 0
  pending : List IssuedRequest := []

/-- The searchers of the filter tell their selections again when their available values
change: `told` has these selections. -/
inductive PageEvent
  | filtered (filter : FilterValues)
  | projectSelected (index : Nat) (told : List FilterValues)
  | entityEvent (told : List FilterValues)
  | timer
  | answered (number : Nat) (answer : PageAnswer) (told : List FilterValues)

def maxAssemblies : Nat := 30

namespace CardsPage

def issue (s : CardsPage) (request : FilterRequest) (use : AnswerUse) : CardsPage :=
  { s with
    issued := s.issued + 1
    pending := s.pending ++ [{ number := s.issued, request := request, use := use }] }

/-- The request of `#filterModules` and of `#filterAssemblies`. -/
def filterRequest (s : CardsPage) : FilterRequest :=
  match s.kind with
  | .modules =>
      { projectIds := [s.project.id]
        versions := some s.filter.versions
        ids := some s.filter.modules
        states := some s.filter.states }
  | .assemblies =>
      { projectIds := [s.project.id]
        versions := some s.filter.versions
        count := some maxAssemblies }

/-- `#filterModules`, `#filterAssemblies`: the request is issued by a timer. -/
def filterEntities (s : CardsPage) (silent : Bool) : CardsPage :=
  { s with
    filtering := s.filtering || !silent
    scheduled := s.scheduled ++ [(s.filterRequest, silent)] }

/-- A selection of the filter's searchers. -/
def filterSelected (s : CardsPage) (filter : FilterValues) : CardsPage :=
  { s with filter := filter }.filterEntities false

/-- `#updateFilter`: the modules page asks for the modules of the project first. -/
def updateFilter (s : CardsPage) (silent : Bool) (told : List FilterValues) : CardsPage :=
  let versionsSet := told.foldl filterSelected s
  match s.kind with
  | .modules => versionsSet.issue { projectIds := [s.project.id] } (.refilter silent)
  | .assemblies => versionsSet.filterEntities false

/-- A card is known by the id of its entity. -/
def card (id : Nat) : Widget Nat where
  id := id
  key := id

def refreshCards (s : CardsPage) (answer : PageAnswer) (silent : Bool) : CardsPage :=
  let pushed := answer.entities.foldl (fun cards entity =>
    if entity.id ∈ cards.keys then cards else cards.pushWidget (card entity.id) none) s.cards
  let removed := pushed.keys.foldl (fun cards key =>
    if answer.entities.any fun entity => entity.id = key then cards
    else cards.removeKey key) pushed
  { s with
    entities := answer.entities
    cards := if silent then removed else removed.arrangeWidgets answer.ids
    filtering := s.filtering && silent }

def onAnswer (s : CardsPage) (answer : PageAnswer) (told : List FilterValues) :
    AnswerUse → CardsPage
  | .refilter silent => (told.foldl filterSelected s).filterEntities silent
  | .refresh silent => s.refreshCards answer silent

def step (s : CardsPage) : PageEvent → Option CardsPage
  | .filtered filter => some (s.filterSelected filter)
  | .projectSelected index told =>
      s.projects[index]?.map fun project =>
        if index = s.selected then s
        else { s with selected := index, project := project }.updateFilter false told
  | .entityEvent told =>
      match s.kind with
      | .modules => some (s.updateFilter true told)
      | .assemblies => some (s.filterEntities true)
  | .timer =>
      match s.scheduled with
      | [] => none
      | (request, silent) :: scheduled =>
          some ({ s with scheduled := scheduled }.issue request (.refresh silent))
  | .answered number answer told =>
      (s.pending.find? fun issued => issued.number = number).map fun issued =>
        { s with pending := s.pending.erase issued }.onAnswer answer told issued.use

/-- The page of a context with projects when it is loaded. -/
def loaded (kind : PageKind) (project : PageProject) (projects : List PageProject)
    (entities : List PageEntity) (told : List FilterValues) : CardsPage :=
  CardsPage.updateFilter
    { kind := kind, projects := project :: projects, project := project, entities := entities }
    false told

/-! ## What is drawn -/

/-- `#getVersions` -/
def getVersions (s : CardsPage) : List String :=
  s.project.versions.filter fun version =>
    s.entities.any fun module => module.version = version

/-- `#getModuleCardsByVersion`; the keys are numbers. -/
def getModuleCardsByVersion (s : CardsPage) (version : String) : Option (ManagedGrid Nat) :=
  s.cards.filter (fun key key' => key = key') fun moduleId =>
    s.entities.any fun module => module.id = moduleId ∧ module.version = version

/-- The keys of the cards that are drawn; drawing throws where a key has no card. -/
def shown (s : CardsPage) : Option (List Nat) :=
  if s.filtering then some []
  else if s.entities = [] then some []
  else
    match s.kind with
    | .assemblies => some (s.cards.widgets.map Widget.key)
    | .modules =>
        (s.getVersions.mapM s.getModuleCardsByVersion).map fun panels =>
          panels.flatMap fun cards => cards.widgets.map Widget.key

/-- Every request that was issued or is going to be has been answered. -/
def Settled (s : CardsPage) : Prop :=
  s.scheduled = [] ∧ s.pending = []

end CardsPage

open CardsPage

/-- The answers in the order of their arrival, with the numbers of their requests. -/
def arrivedAnswers (events : List PageEvent) : List (Nat × PageAnswer) :=
  events.filterMap fun
    | .answered number answer _ => some (number, answer)
    | _ => none

/-- The answer to a request. -/
def answerTo (number : Nat) (events : List PageEvent) : Option PageAnswer :=
  ((arrivedAnswers events).find? fun arrived => arrived.1 = number).map Prod.snd

def lastAnswer (events : List PageEvent) : Option PageAnswer :=
  (arrivedAnswers events).getLast?.map Prod.snd

/-- The entities for which a page has a place: those of the versions of the project on the
modules page, all on the assemblies page. -/
def placed (kind : PageKind) (project : PageProject) (answer : PageAnswer) : List PageEntity :=
  match kind with
  | .modules => project.versions.flatMap fun version =>
      answer.entities.filter fun module => module.version = version
  | .assemblies => answer.entities

/-! ## Grids of cards -/

/-- The grid with the cards of these ids. -/
def cardsOf (keys : List Nat) : ManagedGrid Nat where
  items := keys.map fun key => gridItem (card key) (some key)
  keys := keys

section

variable {keys : List Nat}

@[simp]
theorem keys_cardsOf (keys : List Nat) : (cardsOf keys).keys = keys :=
  rfl

theorem cardsOf_pushWidget (keys : List Nat) (id : Nat) :
    (cardsOf keys).pushWidget (card id) none = cardsOf (keys ++ [id]) := by
  simp [cardsOf, ManagedGrid.pushWidget, ManagedGrid.decorated, card]

theorem cardsOf_removeKey (keys : List Nat) (key : Nat) :
    (cardsOf keys).removeKey key = cardsOf (keys.erase key) := by
  have hkeys : (cardsOf keys).keys.findIdx? (· = key) = keys.findIdx? (· == key) := rfl
  rw [ManagedGrid.removeKey, hkeys, List.erase_eq_eraseIdx, List.idxOf?]
  cases keys.findIdx? (· == key) with
  | none => rfl
  | some index => simp [cardsOf, ManagedGrid.removeIndex, List.eraseIdx_map]

@[simp]
theorem widgets_cardsOf (keys : List Nat) : (cardsOf keys).widgets = keys.map card := by
  simp [cardsOf, ManagedGrid.widgets, Function.comp_def, gridItem]

theorem keys_widgets_cardsOf (keys : List Nat) :
    (cardsOf keys).widgets.map Widget.key = keys := by
  simp [Function.comp_def, card]

theorem setWidgets_cards (s : ManagedGrid Nat) (keys : List Nat) :
    s.setWidgets (keys.map card) = cardsOf keys := by
  rw [ManagedGrid.setWidgets, cardsOf, ManagedGrid.mk.injEq, ManagedGrid.items_pushWidgets]
  simp [ManagedGrid.clear, ManagedGrid.pushWidgets, Function.comp_def, card]

theorem find?_key (keys : List Nat) (key : Nat) :
    (keys.find? fun current => decide (current = key)) =
      if key ∈ keys then some key else none := by
  induction keys with
  | nil => rfl
  | cons head keys ih =>
      rw [List.find?_cons, ih]
      by_cases hhead : head = key
      · simp [hhead]
      · simp [hhead, Ne.symm hhead]

theorem cardsOf_arrangeWidgets (keys ids : List Nat) :
    (cardsOf keys).arrangeWidgets ids = cardsOf (ids.filter fun id => id ∈ keys) := by
  have hfind : ∀ id, ((cardsOf keys).widgets.find? fun widget => decide (widget.key = id)) =
      (if id ∈ keys then some id else none).map card := fun id => by
    rw [widgets_cardsOf, List.find?_map, ← find?_key]
    rfl
  have harranged : (ids.filterMap fun id =>
      (cardsOf keys).widgets.find? fun widget => decide (widget.key = id)) =
      (ids.filter fun id => id ∈ keys).map card := by
    simp only [hfind]
    induction ids with
    | nil => rfl
    | cons id ids ih =>
        rw [List.filterMap_cons, ih]
        by_cases hid : id ∈ keys <;> simp [hid]
  rw [ManagedGrid.arrangeWidgets, harranged, setWidgets_cards]

theorem getWidgetByKey_cardsOf {key : Nat} (h : key ∈ keys) :
    (cardsOf keys).getWidgetByKey (fun key key' => key = key') key = some (card key) := by
  have hfind := find?_key keys key
  rw [if_pos h] at hfind
  rw [ManagedGrid.getWidgetByKey, cardsOf, List.find?_map]
  simp only [Function.comp_def, gridItem, Option.getD_some, hfind, Option.map_some]

theorem cardsOf_filter (keys : List Nat) (passes : Nat → Bool) :
    (cardsOf keys).filter (fun key key' => key = key') passes =
      some (cardsOf (keys.filter passes)) := by
  have hcards : ∀ some_keys : List Nat, some_keys ⊆ keys →
      some_keys.mapM ((cardsOf keys).getWidgetByKey fun key key' => key = key') =
        some (some_keys.map card) := by
    intro some_keys hsubset
    induction some_keys with
    | nil => rfl
    | cons key some_keys ih =>
        rw [List.cons_subset] at hsubset
        rw [List.mapM_cons, getWidgetByKey_cardsOf hsubset.1, ih hsubset.2]
        rfl
  rw [ManagedGrid.filter, keys_cardsOf, hcards _ (List.filter_subset_self _), Option.map_some]
  exact congrArg some (setWidgets_cards {} _)

end

/-! ## The cards of an answer -/

section

variable {keys : List Nat} {answer : PageAnswer}

/-- Every entity without a card gets one. -/
theorem foldl_pushWidget_cardsOf (entities : List PageEntity) (hnodup : keys.Nodup) :
    ∃ keys', keys'.Nodup ∧
      (∀ key, key ∈ keys' ↔ key ∈ keys ∨ key ∈ entities.map PageEntity.id) ∧
      entities.foldl (fun cards entity =>
        if entity.id ∈ cards.keys then cards else cards.pushWidget (card entity.id) none)
        (cardsOf keys) = cardsOf keys' := by
  induction entities generalizing keys with
  | nil => exact ⟨keys, hnodup, by simp, rfl⟩
  | cons entity entities ih =>
      rw [List.foldl_cons]
      by_cases hmem : entity.id ∈ keys
      · obtain ⟨keys', hnodup', hkeys', hgrid⟩ := ih hnodup
        refine ⟨keys', hnodup', fun key => ?_, ?_⟩
        · rw [hkeys', List.map_cons, List.mem_cons]
          constructor
          · rintro (hkey | hkey)
            · exact Or.inl hkey
            · exact Or.inr (Or.inr hkey)
          · rintro (hkey | rfl | hkey)
            · exact Or.inl hkey
            · exact Or.inl hmem
            · exact Or.inr hkey
        · rw [← hgrid, keys_cardsOf, if_pos hmem]
      · have hpushed : (keys ++ [entity.id]).Nodup := by
          rw [List.nodup_append]
          refine ⟨hnodup, List.nodup_singleton _, ?_⟩
          rintro key hkey _ hid rfl
          exact hmem (List.mem_singleton.mp hid ▸ hkey)
        obtain ⟨keys', hnodup', hkeys', hgrid⟩ := ih hpushed
        refine ⟨keys', hnodup', fun key => ?_, ?_⟩
        · simp [hkeys', or_assoc]
        · rw [← hgrid, keys_cardsOf, if_neg hmem, cardsOf_pushWidget]

/-- Every card without an entity is removed. -/
theorem foldl_removeKey_cardsOf (keep : Nat → Bool) (removed : List Nat)
    (hnodup : keys.Nodup) :
    ∃ keys', keys'.Nodup ∧
      (∀ key, key ∈ keys' ↔ key ∈ keys ∧ (key ∈ removed → keep key = true)) ∧
      removed.foldl (fun cards key => if keep key then cards else cards.removeKey key)
        (cardsOf keys) = cardsOf keys' := by
  induction removed generalizing keys with
  | nil => exact ⟨keys, hnodup, by simp, rfl⟩
  | cons first removed ih =>
      rw [List.foldl_cons]
      by_cases hkeep : keep first = true
      · obtain ⟨keys', hnodup', hkeys', hgrid⟩ := ih hnodup
        refine ⟨keys', hnodup', fun key => ?_, ?_⟩
        · rw [hkeys', List.mem_cons]
          grind
        · rw [← hgrid, if_pos hkeep]
      · obtain ⟨keys', hnodup', hkeys', hgrid⟩ := ih (hnodup.erase first)
        refine ⟨keys', hnodup', fun key => ?_, ?_⟩
        · rw [hkeys', hnodup.mem_erase_iff, List.mem_cons]
          grind
        · rw [← hgrid, if_neg hkeep, cardsOf_removeKey]

/-- Behind an answer there is one card for each of its entities. -/
theorem refreshCards_cardsOf {s : CardsPage} (answer : PageAnswer) (silent : Bool)
    (hnodup : keys.Nodup) (hcards : s.cards = cardsOf keys) :
    ∃ keys', keys'.Perm answer.ids ∧
      (s.refreshCards answer silent).cards = cardsOf keys' := by
  obtain ⟨pushed, hpushed, hmemPushed, hgrid⟩ :=
    foldl_pushWidget_cardsOf answer.entities hnodup
  obtain ⟨kept, hkept, hmemKept, hgrid'⟩ := foldl_removeKey_cardsOf
    (fun key => answer.entities.any fun entity => entity.id = key) pushed hpushed
  have hmem : ∀ key, key ∈ kept ↔ key ∈ answer.ids := by
    intro key
    have hany : (answer.entities.any fun entity => entity.id = key) = true ↔
        key ∈ answer.ids := by simp [PageAnswer.ids]
    rw [hmemKept, hmemPushed, hany]
    change _ ∧ (_ → key ∈ answer.ids) ↔ key ∈ answer.ids
    rw [show (key ∈ answer.entities.map PageEntity.id) = (key ∈ answer.ids) from rfl]
    tauto
  have hperm : kept.Perm answer.ids := (List.perm_ext_iff_of_nodup hkept answer.nodup).mpr hmem
  have hremoved : (answer.entities.foldl (fun cards entity =>
      if entity.id ∈ cards.keys then cards else cards.pushWidget (card entity.id) none)
      s.cards) = cardsOf pushed := by rw [hcards, hgrid]
  cases silent with
  | true =>
      refine ⟨kept, hperm, ?_⟩
      rw [← hgrid', refreshCards, hremoved]
      rfl
  | false =>
      refine ⟨answer.ids, List.Perm.refl _, ?_⟩
      have hids : (answer.ids.filter fun id => id ∈ kept) = answer.ids :=
        List.filter_eq_self.mpr fun id hid => by simpa using (hmem id).mpr hid
      rw [← hids, ← cardsOf_arrangeWidgets, ← hgrid', refreshCards, hremoved]
      rfl

/-- The cards of one version are those of its modules. -/
theorem moduleCards_perm (hkeys : keys.Perm answer.ids) (version : String) :
    (keys.filter fun key => answer.entities.any fun module =>
        module.id = key ∧ module.version = version).Perm
      ((answer.entities.filter fun module => module.version = version).map PageEntity.id) := by
  have hnodup : keys.Nodup := hkeys.nodup_iff.mpr answer.nodup
  have hnodup' : ((answer.entities.filter fun module => module.version = version).map
      PageEntity.id).Nodup := answer.nodup.sublist (List.filter_sublist.map _)
  refine (List.perm_ext_iff_of_nodup (hnodup.filter _) hnodup').mpr fun key => ?_
  simp only [List.mem_filter, List.mem_map, List.any_eq_true, decide_eq_true_eq]
  constructor
  · rintro ⟨-, module, hmodule, hid, hversion⟩
    exact ⟨module, ⟨hmodule, hversion⟩, hid⟩
  · rintro ⟨module, ⟨hmodule, hversion⟩, hid⟩
    refine ⟨hkeys.mem_iff.mpr ?_, module, hmodule, hid, hversion⟩
    exact List.mem_map.mpr ⟨module, hmodule, hid⟩

/-- A version without modules has no panel, and no modules. -/
theorem flatMap_filter_any (versions : List String) (entities : List PageEntity) :
    ((versions.filter fun version => entities.any fun module => module.version = version).flatMap
        fun version => entities.filter fun module => module.version = version) =
      versions.flatMap fun version => entities.filter fun module => module.version = version := by
  induction versions with
  | nil => rfl
  | cons version versions ih =>
      rw [List.flatMap_cons, ← ih, List.filter_cons]
      split
      · rfl
      · rename_i hnone
        have hempty : (entities.filter fun module => module.version = version) = [] :=
          List.filter_eq_nil_iff.mpr (by simpa using hnone)
        rw [hempty, List.nil_append]

/-- The cards that are drawn when the loader is not. -/
theorem shown_of_cardsOf {s : CardsPage} (hfiltering : s.filtering = false)
    (hcards : s.cards = cardsOf keys) (hkeys : keys.Perm answer.ids)
    (hentities : s.entities = answer.entities) :
    ∃ shown, s.shown = some shown ∧
      shown.Perm ((placed s.kind s.project answer).map PageEntity.id) := by
  rw [CardsPage.shown, hfiltering, hentities]
  by_cases hnil : answer.entities = []
  · refine ⟨[], by simp [hnil], ?_⟩
    unfold placed
    cases s.kind <;> simp [hnil]
  · rw [if_neg (by simp), if_neg hnil]
    cases hkind : s.kind with
    | assemblies => exact ⟨keys, by simp [hcards, Function.comp_def, card], hkeys⟩
    | modules =>
        have hgrids : ∀ versions : List String,
            versions.mapM s.getModuleCardsByVersion = some (versions.map fun version =>
              cardsOf (keys.filter fun key => answer.entities.any fun module =>
                module.id = key ∧ module.version = version)) := by
          intro versions
          induction versions with
          | nil => rfl
          | cons version versions ih =>
              rw [List.mapM_cons, ih, getModuleCardsByVersion, hcards, cardsOf_filter, hentities]
              rfl
        refine ⟨_, by rw [hgrids]; rfl, ?_⟩
        dsimp only
        rw [List.flatMap_map, placed, ← flatMap_filter_any, List.map_flatMap, getVersions,
          hentities]
        refine List.Perm.flatMap_left _ fun version _ => ?_
        rw [keys_widgets_cardsOf]
        exact moduleCards_perm hkeys version

end

/-! ## Runs of a page -/

def AnswerUse.silent : AnswerUse → Bool
  | .refilter silent | .refresh silent => silent

/-- A request that is not silent has still to be answered. -/
def LoudOutstanding (s : CardsPage) : Prop :=
  (∃ scheduled ∈ s.scheduled, scheduled.2 = false) ∨
    ∃ issued ∈ s.pending, issued.use.silent = false

/-- The page shows the entities of the last answer. -/
def Refreshed (s : CardsPage) (events : List PageEvent) : Prop :=
  ∃ answer keys, lastAnswer events = some answer ∧ s.entities = answer.entities ∧
    s.cards = cardsOf keys ∧ keys.Perm answer.ids

/-- There are cards of distinct ids, and every request that was issued is pending or has been
answered. -/
structure PageCounted (s : CardsPage) (events : List PageEvent) : Prop where
  cards : ∃ keys, keys.Nodup ∧ s.cards = cardsOf keys
  answered : ∀ number < s.issued, (∃ issued ∈ s.pending, issued.number = number) ∨
    ∃ arrived ∈ arrivedAnswers events, arrived.1 = number

/-- What holds of the page behind the events of a run. -/
structure PageFollows (s : CardsPage) (events : List PageEvent) : Prop extends
    PageCounted s events where
  loading : s.filtering = true → LoudOutstanding s
  started : 0 < s.issued ∨ s.scheduled ≠ []
  refreshed : s.Settled → Refreshed s events

section

variable {s : CardsPage} {events : List PageEvent}

theorem LoudOutstanding.filterEntities (h : LoudOutstanding s) (silent : Bool) :
    LoudOutstanding (s.filterEntities silent) := by
  rcases h with ⟨scheduled, hmem, hsilent⟩ | hpending
  · exact Or.inl ⟨scheduled, List.mem_append_left _ hmem, hsilent⟩
  · exact Or.inr hpending

theorem loudOutstanding_filterEntities_false (s : CardsPage) :
    LoudOutstanding (s.filterEntities false) :=
  Or.inl ⟨(s.filterRequest, false), by simp [CardsPage.filterEntities], rfl⟩

/-- The loader is drawn only while something loud is outstanding, also behind what is told. -/
theorem loading_told (h : s.filtering = true → LoudOutstanding s) (told : List FilterValues) :
    (told.foldl filterSelected s).filtering = true →
      LoudOutstanding (told.foldl filterSelected s) := by
  induction told generalizing s with
  | nil => exact h
  | cons filter told ih => exact ih fun _ => loudOutstanding_filterEntities_false _

namespace PageCounted

theorem filterEntities (h : PageCounted s events) (silent : Bool) :
    PageCounted (s.filterEntities silent) events :=
  ⟨h.cards, h.answered⟩

theorem told (h : PageCounted s events) (told : List FilterValues) :
    PageCounted (told.foldl filterSelected s) events := by
  induction told generalizing s with
  | nil => exact h
  | cons filter told ih => exact ih ⟨h.cards, h.answered⟩

theorem issue (h : PageCounted s events) (request : FilterRequest) (use : AnswerUse) :
    PageCounted (s.issue request use) events where
  cards := h.cards
  answered number hnumber := by
    rcases Nat.lt_succ_iff_lt_or_eq.mp hnumber with hlt | rfl
    · rcases h.answered number hlt with ⟨issued, hmem, heq⟩ | harrived
      · exact Or.inl ⟨issued, List.mem_append_left _ hmem, heq⟩
      · exact Or.inr harrived
    · exact Or.inl ⟨_, List.mem_append_right _ (List.mem_singleton_self _), rfl⟩

/-- A request that is scheduled has still to be answered. -/
theorem follows_filterEntities (h : PageCounted s events) (silent : Bool)
    (hloading : (s.filterEntities silent).filtering = true →
      LoudOutstanding (s.filterEntities silent)) :
    PageFollows (s.filterEntities silent) events where
  toPageCounted := h.filterEntities silent
  loading := hloading
  started := Or.inr (by simp [CardsPage.filterEntities])
  refreshed hsettled := absurd hsettled.1 (by simp [CardsPage.filterEntities])

/-- A request that is issued has still to be answered. -/
theorem follows_issue (h : PageCounted s events) (request : FilterRequest) (use : AnswerUse)
    (hloading : s.filtering = true → LoudOutstanding (s.issue request use)) :
    PageFollows (s.issue request use) events where
  toPageCounted := h.issue request use
  loading := hloading
  started := Or.inl (Nat.succ_pos _)
  refreshed hsettled := absurd hsettled.2 (by simp [CardsPage.issue])

end PageCounted

namespace PageFollows

theorem filterEntities (h : PageFollows s events) (silent : Bool) :
    PageFollows (s.filterEntities silent) events := by
  refine h.toPageCounted.follows_filterEntities silent fun hfiltering => ?_
  cases silent with
  | false => exact loudOutstanding_filterEntities_false s
  | true =>
      have hbefore : s.filtering = true := by simpa [CardsPage.filterEntities] using hfiltering
      exact (h.loading hbefore).filterEntities true

theorem filterSelected (h : PageFollows s events) (filter : FilterValues) :
    PageFollows (s.filterSelected filter) events := by
  have hcounted : PageCounted { s with filter := filter } events := ⟨h.cards, h.answered⟩
  exact hcounted.follows_filterEntities false fun _ => loudOutstanding_filterEntities_false _

theorem told (h : PageFollows s events) (told : List FilterValues) :
    PageFollows (told.foldl CardsPage.filterSelected s) events := by
  induction told generalizing s with
  | nil => exact h
  | cons filter told ih => exact ih (h.filterSelected filter)

theorem issue (h : PageFollows s events) (request : FilterRequest) (use : AnswerUse) :
    PageFollows (s.issue request use) events := by
  refine h.toPageCounted.follows_issue request use fun hfiltering => ?_
  rcases h.loading hfiltering with hscheduled | ⟨issued, hmem, hsilent⟩
  · exact Or.inl hscheduled
  · exact Or.inr ⟨issued, List.mem_append_left _ hmem, hsilent⟩

theorem updateFilter (h : PageFollows s events) (silent : Bool) (told : List FilterValues) :
    PageFollows (s.updateFilter silent told) events := by
  rw [CardsPage.updateFilter]
  cases s.kind with
  | modules => exact (h.told told).issue _ _
  | assemblies => exact (h.told told).filterEntities false

/-- The timer issues the first of the scheduled requests. -/
theorem timer (h : PageFollows s events) {request : FilterRequest} {silent : Bool}
    {scheduled : List (FilterRequest × Bool)}
    (hscheduled : s.scheduled = (request, silent) :: scheduled) :
    PageFollows ({ s with scheduled := scheduled }.issue request (.refresh silent)) events := by
  have hcounted : PageCounted { s with scheduled := scheduled } events := ⟨h.cards, h.answered⟩
  refine hcounted.follows_issue request _ fun hfiltering => ?_
  rcases h.loading hfiltering with ⟨loud, hmem, hsilent⟩ | ⟨issued, hmem, hsilent⟩
  · rw [hscheduled, List.mem_cons] at hmem
    rcases hmem with rfl | hmem
    · exact Or.inr ⟨_, List.mem_append_right _ (List.mem_singleton_self _), hsilent⟩
    · exact Or.inl ⟨loud, hmem, hsilent⟩
  · exact Or.inr ⟨issued, List.mem_append_left _ hmem, hsilent⟩

/-- The events that are no answers do not count. -/
theorem of_same_answers {events' : List PageEvent} (h : PageFollows s events)
    (hsame : arrivedAnswers events' = arrivedAnswers events) : PageFollows s events' where
  cards := h.cards
  answered := by rw [hsame]; exact h.answered
  loading := h.loading
  started := h.started
  refreshed hsettled := by
    rw [Refreshed, lastAnswer, hsame]
    exact h.refreshed hsettled

end PageFollows

theorem arrivedAnswers_snoc (events : List PageEvent) (event : PageEvent) :
    arrivedAnswers (events ++ [event]) = arrivedAnswers events ++ arrivedAnswers [event] :=
  List.filterMap_append ..

/-- The page behind an answer. -/
theorem follows_answered (h : PageFollows s events) {issued : IssuedRequest}
    (hissued : issued ∈ s.pending) (answer : PageAnswer) (told : List FilterValues) :
    PageFollows ({ s with pending := s.pending.erase issued }.onAnswer answer told issued.use)
      (events ++ [.answered issued.number answer told]) := by
  have harrived := arrivedAnswers_snoc events (.answered issued.number answer told)
  have hcounted : PageCounted { s with pending := s.pending.erase issued }
      (events ++ [.answered issued.number answer told]) := by
    refine ⟨h.cards, fun number hnumber => ?_⟩
    rw [harrived]
    rcases h.answered number hnumber with ⟨other, hmem, heq⟩ | ⟨arrived, hmem, heq⟩
    · by_cases hsame : other = issued
      · subst hsame
        exact Or.inr ⟨_, List.mem_append_right _ (List.mem_singleton_self _), heq⟩
      · exact Or.inl ⟨other, (List.mem_erase_of_ne hsame).mpr hmem, heq⟩
    · exact Or.inr ⟨arrived, List.mem_append_left _ hmem, heq⟩
  -- where the answer is to a silent request, what is loud is still outstanding
  have hloud : issued.use.silent = true → s.filtering = true →
      LoudOutstanding { s with pending := s.pending.erase issued } := by
    intro hsilent hfiltering
    rcases h.loading hfiltering with hscheduled | ⟨other, hmem, hother⟩
    · exact Or.inl hscheduled
    · have hne : other ≠ issued := by
        rintro rfl
        rw [hsilent] at hother
        exact absurd hother (by simp)
      exact Or.inr ⟨other, (List.mem_erase_of_ne hne).mpr hmem, hother⟩
  cases huse : issued.use with
  | refilter silent =>
      refine (hcounted.told told).follows_filterEntities silent fun hfiltering => ?_
      cases silent with
      | false => exact loudOutstanding_filterEntities_false _
      | true =>
          have hbefore : (told.foldl filterSelected
              { s with pending := s.pending.erase issued }).filtering = true := by
            simpa [CardsPage.filterEntities] using hfiltering
          have hsilent : issued.use.silent = true := by rw [huse]; rfl
          exact (loading_told (hloud hsilent) told hbefore).filterEntities true
  | refresh silent =>
      obtain ⟨keys, hnodup, hcards⟩ := hcounted.cards
      obtain ⟨keys', hperm, hcards'⟩ := refreshCards_cardsOf answer silent hnodup hcards
      exact {
        cards := ⟨keys', hperm.nodup_iff.mpr answer.nodup, hcards'⟩
        answered := hcounted.answered
        loading := by
          intro hfiltering
          have hboth : s.filtering = true ∧ silent = true := by
            simpa [onAnswer, refreshCards] using hfiltering
          exact hloud (by rw [huse]; exact hboth.2) hboth.1
        started := h.started
        refreshed := fun _ => ⟨answer, keys', by rw [lastAnswer, harrived]; simp [arrivedAnswers],
          rfl, hcards', hperm⟩ }

/-- A step of the page. -/
theorem PageFollows.step (h : PageFollows s events) {event : PageEvent} {t : CardsPage}
    (hstep : CardsPage.step s event = some t) : PageFollows t (events ++ [event]) := by
  have hsame : arrivedAnswers [event] = [] →
      arrivedAnswers (events ++ [event]) = arrivedAnswers events := fun hnone => by
    rw [arrivedAnswers_snoc, hnone, List.append_nil]
  cases event with
  | filtered filter =>
      cases hstep
      exact (h.filterSelected filter).of_same_answers (hsame rfl)
  | projectSelected index told =>
      refine PageFollows.of_same_answers ?_ (hsame rfl)
      obtain ⟨project, -, rfl⟩ := Option.map_eq_some_iff.mp hstep
      split
      · exact h
      · have hselected : PageFollows { s with selected := index, project := project } events :=
          ⟨⟨h.cards, h.answered⟩, h.loading, h.started, h.refreshed⟩
        exact hselected.updateFilter false told
  | entityEvent told =>
      refine PageFollows.of_same_answers ?_ (hsame rfl)
      rw [CardsPage.step] at hstep
      cases hkind : s.kind with
      | modules =>
          rw [hkind] at hstep
          cases hstep
          exact h.updateFilter true told
      | assemblies =>
          rw [hkind] at hstep
          cases hstep
          exact h.filterEntities true
  | timer =>
      refine PageFollows.of_same_answers ?_ (hsame rfl)
      rw [CardsPage.step] at hstep
      cases hscheduled : s.scheduled with
      | nil =>
          rw [hscheduled] at hstep
          cases hstep
      | cons first scheduled =>
          rw [hscheduled] at hstep
          cases hstep
          exact h.timer hscheduled
  | answered number answer told =>
      obtain ⟨issued, hfind, rfl⟩ := Option.map_eq_some_iff.mp hstep
      have hnumber : issued.number = number := by simpa using List.find?_some hfind
      rw [← hnumber]
      exact follows_answered h (List.mem_of_find?_eq_some hfind) answer told

end

section

variable {kind : PageKind} {project : PageProject} {projects : List PageProject}
  {entities : List PageEntity} {told : List FilterValues} {events : List PageEvent}
  {s : CardsPage}

/-- The page asks for its entities when it is loaded. -/
theorem follows_loaded (kind : PageKind) (project : PageProject) (projects : List PageProject)
    (entities : List PageEntity) (told : List FilterValues) :
    PageFollows (loaded kind project projects entities told) [] := by
  have hcounted (page : CardsPage) (hcards : page.cards = {}) (hissued : page.issued = 0) :
      PageCounted page [] :=
    ⟨⟨[], List.nodup_nil, hcards⟩, fun number hnumber => by omega⟩
  rw [loaded, CardsPage.updateFilter]
  cases kind with
  | modules =>
      refine ((hcounted _ rfl rfl).told told).follows_issue _ _ fun _ => ?_
      exact Or.inr ⟨_, List.mem_append_right _ (List.mem_singleton_self _), rfl⟩
  | assemblies =>
      exact ((hcounted _ rfl rfl).told told).follows_filterEntities false
        fun _ => loudOutstanding_filterEntities_false _

/-- A run of the page. -/
theorem follows_of_run
    (hrun : run step (loaded kind project projects entities told) events = some s) :
    PageFollows s events := by
  induction events using List.reverseRecOn generalizing s with
  | nil =>
      cases hrun
      exact follows_loaded kind project projects entities told
  | append_singleton events event ih =>
      obtain ⟨before, hbefore, hstep⟩ := run_snoc_inv hrun
      exact (ih hbefore).step hstep

/-- When every request has been answered the last one of them was. -/
theorem exists_answerTo_last (h : PageFollows s events) (hsettled : s.Settled) :
    ∃ answer, answerTo (s.issued - 1) events = some answer := by
  have hpos : 0 < s.issued := h.started.resolve_right fun hne => hne hsettled.1
  rcases h.answered (s.issued - 1) (Nat.sub_one_lt hpos.ne') with
    ⟨issued, hmem, -⟩ | ⟨arrived, hmem, hnumber⟩
  · rw [hsettled.2] at hmem
    cases hmem
  · have hsome : ((arrivedAnswers events).find?
        fun arrived => arrived.1 = s.issued - 1).isSome := by
      rw [List.find?_isSome]
      exact ⟨arrived, hmem, by simpa using hnumber⟩
    obtain ⟨found, hfound⟩ := Option.isSome_iff_exists.mp hsome
    exact ⟨found.2, by rw [answerTo, hfound, Option.map_some]⟩

/-- The cards that are drawn are those of the answer to the request issued last. -/
def ShowsLastIssued (s : CardsPage) (events : List PageEvent) : Prop :=
  ∃ answer shown, answerTo (s.issued - 1) events = some answer ∧ s.shown = some shown ∧
    shown.Perm answer.ids

/-- The answer that arrived last has the entities of the answer to the request issued last,
and the page has a place for each of them. -/
def LastAnswerFits (s : CardsPage) (events : List PageEvent) : Prop :=
  ∃ answer arrived, answerTo (s.issued - 1) events = some answer ∧
    lastAnswer events = some arrived ∧
    ((placed s.kind s.project arrived).map PageEntity.id).Perm answer.ids

/-- When every request has been answered, the cards are those of the request issued last
exactly if the answer that arrived last fits. -/
theorem shows_lastIssued_iff
    (hrun : run step (loaded kind project projects entities told) events = some s)
    (hsettled : s.Settled) : ShowsLastIssued s events ↔ LastAnswerFits s events := by
  have hfollows := follows_of_run hrun
  obtain ⟨arrived, keys, harrived, hentities, hcards, hkeys⟩ := hfollows.refreshed hsettled
  have hfiltering : s.filtering = false := by
    cases hloading : s.filtering with
    | false => rfl
    | true =>
        rcases hfollows.loading hloading with ⟨scheduled, hmem, -⟩ | ⟨issued, hmem, -⟩
        · rw [hsettled.1] at hmem
          cases hmem
        · rw [hsettled.2] at hmem
          cases hmem
  obtain ⟨shown, hshown, hplaced⟩ := shown_of_cardsOf hfiltering hcards hkeys hentities
  constructor
  · rintro ⟨answer, shown', hanswer, hshown', hperm⟩
    obtain rfl := Option.some_inj.mp (hshown.symm.trans hshown')
    exact ⟨answer, arrived, hanswer, harrived, hplaced.symm.trans hperm⟩
  · rintro ⟨answer, arrived', hanswer, harrived', hperm⟩
    obtain rfl := Option.some_inj.mp (harrived.symm.trans harrived')
    exact ⟨answer, shown, hanswer, hshown, hplaced.trans hperm⟩

end

/-! ## Two answers -/

def pageAnswer (id : Nat) : PageAnswer where
  entities := [{ id := id, version := "1" }]
  nodup := List.nodup_singleton id

/-- Two versions are selected one after the other, and the older answer arrives last. -/
def olderAnswerLast : List PageEvent :=
  [.timer, .filtered { versions := ["1"] }, .timer, .answered 1 (pageAnswer 7) [],
    .answered 0 (pageAnswer 8) []]

/-- The same answers in the order of their requests. -/
def answersInOrder : List PageEvent :=
  [.timer, .filtered { versions := ["1"] }, .timer, .answered 0 (pageAnswer 8) [],
    .answered 1 (pageAnswer 7) []]

theorem shows_lastIssued_iff_in_order :
    ∃ s, run step (loaded .assemblies ⟨1, ["1"]⟩ [] [] []) answersInOrder = some s ∧
      s.Settled ∧ (ShowsLastIssued s answersInOrder ↔ LastAnswerFits s answersInOrder) :=
  ⟨_, rfl, ⟨rfl, rfl⟩, @shows_lastIssued_iff .assemblies ⟨1, ["1"]⟩ [] [] [] answersInOrder _ rfl
    ⟨rfl, rfl⟩⟩

/-- The cards of the older answer stay. -/
theorem older_answer_shown :
    ¬ ∀ (kind : PageKind) (project : PageProject) (projects : List PageProject)
      (entities : List PageEntity) (told : List FilterValues) (events : List PageEvent)
      (s : CardsPage), run step (loaded kind project projects entities told) events = some s →
      s.Settled → ShowsLastIssued s events := by
  intro hall
  obtain ⟨answer, shown, hanswer, hshown, hperm⟩ :=
    hall .assemblies ⟨1, ["1"]⟩ [] [] [] olderAnswerLast _ rfl ⟨rfl, rfl⟩
  have hnewer : some (pageAnswer 7) = some answer := hanswer
  have holder : some [8] = some shown := hshown
  cases hnewer
  cases holder
  exact absurd hperm.eq_singleton (by decide)

end ArtPlatform.Web
