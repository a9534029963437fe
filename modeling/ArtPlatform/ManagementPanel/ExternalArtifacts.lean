import ArtPlatform.Foundation.LinkedMap
import ArtPlatform.ManagementPanel.PanelAction
import ArtPlatform.ManagementPanel.PanelDatabase

/-!
# External artifacts

A request brings external artifacts together with the resources that they come from.
Each resource is compared with the resources that were stored at the beginning: one
that is stored under its id with the same access is reused, any other is put under a new
id, and under a new name when its name belongs to a stored resource that the comparison
looks at.  The artifacts are checked and put last.  What has been put before a failure
stays.

Main results:

- Theorem `ResourceKind.add_eq`: the branches of the comparison in terms of the name that
  a resource is stored under.
- Theorems `ResourceKind.mapM_add_ok` and `ResourceKind.mapM_add_error`: what a list of
  resources leaves.
- Theorem `externalArtifacts_consistent_iff`: when a request is consistent.
-/

namespace ArtPlatform

open Keyed (key)

structure ArtifactsResource where
  id : Nat
  name : String
  url : String
  userName : String
  password : String
deriving DecidableEq, Repr

instance : Keyed ArtifactsResource Nat := ⟨ArtifactsResource.id⟩

/-- An external artifact as it is stored; it has no resource when the request does not
bring it. -/
structure StoredExternalArtifact where
  name : String
  version : String
  projectId : Nat
  externalId : String
  resourceId : Option ResourceIdentifier
deriving DecidableEq, Repr

structure ExternalArtifactsRequest where
  artifacts : List ExternalArtifact
  openShiftResources : List OpenShiftResource := []
  artifactsResources : List ArtifactsResource := []

structure ResourceDatabase where
  artifactsResources : Space ArtifactsResource
  openShiftResources : Space OpenShiftResource
  externalArtifacts : List StoredExternalArtifact

def RESOURCE_NAME_INDEX_NAME : String := "name"

/-! ## Kinds of resources -/

/-- A kind of resources: the name and the access of a row, which are its address and
credentials, and its copy under another id and another name. -/
structure ResourceKind (ρ : Type) [Keyed ρ Nat] where
  type : ResourceType
  name : ρ → String
  access : ρ → List String
  copy : ρ → Nat → String → ρ
  key_copy : ∀ resource id newName, key (copy resource id newName) = id
  name_copy : ∀ resource id newName, name (copy resource id newName) = newName
  access_copy : ∀ resource id newName, access (copy resource id newName) = access resource

namespace ResourceKind

variable {ρ : Type} [Keyed ρ Nat] (kind : ResourceKind ρ)

def resourceId (id : Nat) (name : String) : ResourceIdentifier :=
  ⟨id, name, kind.type⟩

/-- `putNewArtifactsResource` and `putNewOpenShiftResource`: put a resource under a new
id. -/
def putNew (resource : ρ) (name : String) : PanelAction (Space ρ) ρ := fun s =>
  if s.taken kind.name (kind.copy resource s.freshKey name) then
    .error (.duplicateKey RESOURCE_NAME_INDEX_NAME) s
  else
    .ok (kind.copy resource s.freshKey name) (s.put (kind.copy resource s.freshKey name))

/-- Bring a requested resource in.  `nextInt` is the random number that is drawn for the
resource of an id. -/
def add (nextInt : Nat → Nat) (currentResources : List ρ) (resource : ρ) :
    PanelAction (Space ρ) (Nat × ResourceIdentifier) :=
  match currentResources.find? fun current => kind.access current = kind.access resource with
  | some current =>
      if key current = key resource then
        pure (key resource, kind.resourceId (key resource) (kind.name resource))
      else if kind.name current = kind.name resource then do
        let newResource ← kind.putNew resource
          s!"{kind.name current}-{nextInt (key resource)}"
        pure (key resource, kind.resourceId (key newResource) (kind.name newResource))
      else do
        let newResource ← kind.putNew resource (kind.name resource)
        pure (key resource, kind.resourceId (key newResource) (kind.name newResource))
  | none =>
      if currentResources.any fun current => kind.name current = kind.name resource then do
        let newResource ← kind.putNew resource
          s!"{kind.name resource}-{nextInt (key resource)}"
        pure (key resource, kind.resourceId (key newResource) (kind.name newResource))
      else do
        let newResource ← kind.putNew resource (kind.name resource)
        pure (key resource, kind.resourceId (key newResource) (kind.name newResource))

end ResourceKind

def artifactsKind : ResourceKind ArtifactsResource where
  type := .artifacts
  name resource := resource.name
  access resource := [resource.userName, resource.url, resource.password]
  copy resource id newName := { resource with id := id, name := newName }
  key_copy _ _ _ := rfl
  name_copy _ _ _ := rfl
  access_copy _ _ _ := rfl

def openShiftKind : ResourceKind OpenShiftResource where
  type := .openShift
  name resource := resource.name
  access resource := [resource.userName, resource.apiUrl, resource.applicationsDomain,
    resource.privateRegistryUrl, resource.password]
  copy resource id newName := { resource with id := id, name := newName }
  key_copy _ _ _ := rfl
  name_copy _ _ _ := rfl
  access_copy _ _ _ := rfl

/-! ## The request -/

namespace ResourceDatabase

variable {α : Type}

def onArtifactsResources (action : PanelAction (Space ArtifactsResource) α) :
    PanelAction ResourceDatabase α := fun db =>
  match action db.artifactsResources with
  | .ok a s => .ok a { db with artifactsResources := s }
  | .error e s => .error e { db with artifactsResources := s }

def onOpenShiftResources (action : PanelAction (Space OpenShiftResource) α) :
    PanelAction ResourceDatabase α := fun db =>
  match action db.openShiftResources with
  | .ok a s => .ok a { db with openShiftResources := s }
  | .error e s => .error e { db with openShiftResources := s }

theorem onArtifactsResources_apply (action : PanelAction (Space ArtifactsResource) α)
    (db : ResourceDatabase) :
    onArtifactsResources action db =
      match action db.artifactsResources with
      | .ok a s => .ok a { db with artifactsResources := s }
      | .error e s => .error e { db with artifactsResources := s } :=
  rfl

theorem onOpenShiftResources_apply (action : PanelAction (Space OpenShiftResource) α)
    (db : ResourceDatabase) :
    onOpenShiftResources action db =
      match action db.openShiftResources with
      | .ok a s => .ok a { db with openShiftResources := s }
      | .error e s => .error e { db with openShiftResources := s } :=
  rfl

def putExternalArtifact (artifact : StoredExternalArtifact) :
    PanelAction ResourceDatabase Unit :=
  modify fun db => { db with externalArtifacts := db.externalArtifacts ++ [artifact] }

/-- An artifact with the resource that its type and id lead to. -/
def withResourceId (artifactsResourceIds openShiftResourceIds : LinkedMap Nat ResourceIdentifier)
    (artifact : ExternalArtifact) : PanelAction ResourceDatabase StoredExternalArtifact := do
  let resourceId ←
    match artifact.externalId.resourceId.type with
    | .artifacts => pure (artifactsResourceIds.get artifact.externalId.resourceId.id)
    | .openShift => pure (openShiftResourceIds.get artifact.externalId.resourceId.id)
    | .git | .platform | .proxy => PanelAction.raise .platformError
  pure
    { name := artifact.name
      version := artifact.version
      projectId := artifact.projectId
      externalId := artifact.externalId.id
      resourceId := resourceId }

def addExternalArtifacts (nextArtifactsInt nextOpenShiftInt : Nat → Nat)
    (request : ExternalArtifactsRequest) : PanelAction ResourceDatabase Unit := do
  let currentArtifactsResources := (← get).artifactsResources.selectAll
  let currentOpenShiftResources := (← get).openShiftResources.selectAll
  let artifactsResourceIds ← onArtifactsResources
    (request.artifactsResources.mapM (artifactsKind.add nextArtifactsInt currentArtifactsResources))
  let openShiftResourceIds ← onOpenShiftResources
    (request.openShiftResources.mapM (openShiftKind.add nextOpenShiftInt currentOpenShiftResources))
  let artifacts ← request.artifacts.mapM (withResourceId (.ofEntries artifactsResourceIds)
    (.ofEntries openShiftResourceIds))
  artifacts.forM putExternalArtifact

end ResourceDatabase

/-! ## The name that a resource is stored under -/

namespace ResourceKind

variable {ρ : Type} [Keyed ρ Nat] (kind : ResourceKind ρ)

/-- The stored resource that a requested one is compared with: the first of the same
access. -/
def current (currentResources : List ρ) (resource : ρ) : Option ρ :=
  currentResources.find? fun current => kind.access current = kind.access resource

/-- The requested resource is put. -/
def isPut (currentResources : List ρ) (resource : ρ) : Bool :=
  match kind.current currentResources resource with
  | some current => key current ≠ key resource
  | none => true

/-- The requested resource is put under its own name. -/
def keepsName (currentResources : List ρ) (resource : ρ) : Bool :=
  match kind.current currentResources resource with
  | some current => key current ≠ key resource && kind.name current ≠ kind.name resource
  | none => !currentResources.any fun current => kind.name current = kind.name resource

/-- The name with a random suffix. -/
def suffixed (nextInt : Nat → Nat) (resource : ρ) : String :=
  s!"{kind.name resource}-{nextInt (key resource)}"

/-- The name that a requested resource is put under, if it is put. -/
def storedName (nextInt : Nat → Nat) (currentResources : List ρ) (resource : ρ) :
    Option String :=
  if kind.isPut currentResources resource then
    if kind.keepsName currentResources resource then some (kind.name resource)
    else some (kind.suffixed nextInt resource)
  else none

/-- The names that are put, in order. -/
def storedNames (nextInt : Nat → Nat) (s : Space ρ) (resources : List ρ) : List String :=
  resources.filterMap (kind.storedName nextInt s.rows)

variable {kind} {nextInt : Nat → Nat} {currentResources : List ρ} {resource : ρ}

/-- The branches of the comparison in terms of the stored name. -/
theorem add_eq (kind : ResourceKind ρ) (nextInt : Nat → Nat) (currentResources : List ρ)
    (resource : ρ) :
    kind.add nextInt currentResources resource =
      match kind.storedName nextInt currentResources resource with
      | none => pure (key resource, kind.resourceId (key resource) (kind.name resource))
      | some name => kind.putNew resource name >>= fun newResource =>
          pure (key resource, kind.resourceId (key newResource) (kind.name newResource)) := by
  unfold add storedName isPut keepsName suffixed
  change (match kind.current currentResources resource with | some _ => _ | none => _) = _
  cases kind.current currentResources resource with
  | some current =>
      by_cases hkey : key current = key resource
      · simp [hkey]
      · by_cases hname : kind.name current = kind.name resource
        · simp [hkey, hname]
        · simp [hkey, hname]
  | none =>
      by_cases hany : (currentResources.any fun current =>
          kind.name current = kind.name resource) = true
      · simp [hany]
      · simp [hany]

/-! ## What a list of resources leaves -/

/-- A stored resource has the name. -/
def Named (kind : ResourceKind ρ) (s : Space ρ) (name : String) : Prop :=
  ∃ row ∈ s.rows, kind.name row = name

/-- The names are distinct, and no stored resource has one of them. -/
def FreeNames (kind : ResourceKind ρ) (s : Space ρ) (names : List String) : Prop :=
  names.Nodup ∧ ∀ name ∈ names, ¬ kind.Named s name

/-- The entry leads from a requested resource to a stored one of the same access. -/
structure Brings (kind : ResourceKind ρ) (s : Space ρ) (resource : ρ)
    (entry : Nat × ResourceIdentifier) : Prop where
  id : entry.1 = key resource
  type : entry.2.type = kind.type
  stored : ∃ row ∈ s.rows, key row = entry.2.id ∧ kind.access row = kind.access resource

variable {s : Space ρ} {name : String} {names : List String}

/-- The database rejects a new resource exactly when its name is taken. -/
theorem taken_copy_iff :
    s.taken kind.name (kind.copy resource s.freshKey name) = true ↔ kind.Named s name := by
  rw [Space.taken_eq_true_iff, kind.name_copy, kind.key_copy]
  constructor
  · rintro ⟨row, hrow, hname, -⟩
    exact ⟨row, hrow, hname⟩
  · rintro ⟨row, hrow, hname⟩
    exact ⟨row, hrow, hname, Nat.ne_of_lt (s.key_lt_freshKey hrow)⟩

/-- The space after a resource is put under a new id. -/
def withNew (kind : ResourceKind ρ) (s : Space ρ) (resource : ρ) (name : String) : Space ρ :=
  s.put (kind.copy resource s.freshKey name)

theorem putNew_of_free (h : ¬ kind.Named s name) :
    kind.putNew resource name s =
      .ok (kind.copy resource s.freshKey name) (kind.withNew s resource name) := by
  unfold putNew
  rw [if_neg (taken_copy_iff.not.mpr h)]
  rfl

theorem putNew_of_named (h : kind.Named s name) :
    kind.putNew resource name s = .error (.duplicateKey RESOURCE_NAME_INDEX_NAME) s := by
  unfold putNew
  rw [if_pos (taken_copy_iff.mpr h)]

theorem rows_withNew :
    (kind.withNew s resource name).rows = kind.copy resource s.freshKey name :: s.rows := by
  apply Space.rows_put_of_get_eq_none
  rw [kind.key_copy]
  exact s.get_freshKey

theorem distinct_withNew (hs : s.Distinct kind.name) (h : ¬ kind.Named s name) :
    (kind.withNew s resource name).Distinct kind.name := by
  refine (Space.distinct_put_iff hs).mpr ?_
  rw [← Bool.not_eq_true, taken_copy_iff]
  exact h

theorem named_withNew_iff {other : String} :
    kind.Named (kind.withNew s resource name) other ↔ name = other ∨ kind.Named s other := by
  unfold Named
  rw [rows_withNew]
  simp [kind.name_copy]

/-- The names of a list are free when the first is free and the others are after it. -/
theorem freeNames_cons_iff (resource : ρ) :
    kind.FreeNames s (name :: names) ↔
      ¬ kind.Named s name ∧ kind.FreeNames (kind.withNew s resource name) names := by
  unfold FreeNames
  simp only [List.nodup_cons, List.forall_mem_cons, named_withNew_iff, not_or]
  constructor
  · rintro ⟨⟨hnot, hnodup⟩, hname, hnames⟩
    refine ⟨hname, hnodup, fun other hother => ⟨?_, hnames other hother⟩⟩
    rintro rfl
    exact hnot hother
  · rintro ⟨hname, hnodup, hnames⟩
    refine ⟨⟨fun hmem => (hnames name hmem).1 rfl, hnodup⟩, hname, ?_⟩
    intro other hother
    exact (hnames other hother).2

theorem Brings.mono {s' : Space ρ} {entry : Nat × ResourceIdentifier}
    (h : kind.Brings s resource entry) (hrows : ∀ row ∈ s.rows, row ∈ s'.rows) :
    kind.Brings s' resource entry := by
  obtain ⟨row, hrow, hkey, haccess⟩ := h.stored
  exact ⟨h.id, h.type, row, hrows row hrow, hkey, haccess⟩

/-- A resource that is not put is one of the current ones. -/
theorem brings_current (h : kind.storedName nextInt currentResources resource = none)
    (hcurrent : ∀ row ∈ currentResources, row ∈ s.rows) :
    kind.Brings s resource
      (key resource, kind.resourceId (key resource) (kind.name resource)) := by
  refine ⟨rfl, rfl, ?_⟩
  unfold storedName isPut at h
  cases hfind : kind.current currentResources resource with
  | none =>
      rw [hfind] at h
      simp at h
      split at h <;> cases h
  | some current =>
      rw [hfind] at h
      have haccess : kind.access current = kind.access resource := by
        simpa using List.find?_some hfind
      refine ⟨current, hcurrent current (List.mem_of_find?_eq_some hfind), ?_, haccess⟩
      by_contra hkey
      simp [show key current ≠ key resource from hkey] at h
      split at h <;> cases h

/-- A space after resources are put under the given names. -/
structure Added (kind : ResourceKind ρ) (s s' : Space ρ) (names : List String) : Prop where
  distinct : s'.Distinct kind.name
  kept : ∀ row ∈ s.rows, row ∈ s'.rows
  length : s'.rows.length = s.rows.length + names.length
  same : names = [] → s' = s

theorem Added.same_iff {s' : Space ρ} (h : kind.Added s s' names) : s' = s ↔ names = [] := by
  constructor
  · rintro rfl
    have hlength := h.length
    rw [← List.length_eq_zero_iff]
    omega
  · exact h.same

/-- Of free names the first is not taken. -/
theorem FreeNames.not_head (h : kind.FreeNames s names) :
    ¬ ∃ name, names.head? = some name ∧ kind.Named s name := by
  rintro ⟨name, hhead, hnamed⟩
  exact h.2 name (List.mem_of_mem_head? hhead) hnamed

/-- Without names there is nothing to reject. -/
theorem ne_nil_of_not_freeNames (h : ¬ kind.FreeNames s names) : names ≠ [] := by
  rintro rfl
  exact h ⟨List.nodup_nil, by simp⟩

/-- With free names every resource is brought in, and nothing stored is changed. -/
theorem mapM_add_ok {resources : List ρ} (hs : s.Distinct kind.name)
    (hcurrent : ∀ row ∈ currentResources, row ∈ s.rows)
    (hfree : kind.FreeNames s
      (resources.filterMap (kind.storedName nextInt currentResources))) :
    ∃ entries s', resources.mapM (kind.add nextInt currentResources) s = .ok entries s' ∧
      kind.Added s s' (resources.filterMap (kind.storedName nextInt currentResources)) ∧
      List.Forall₂ (kind.Brings s') resources entries := by
  induction resources generalizing s with
  | nil => exact ⟨[], s, rfl, ⟨hs, fun _ hrow => hrow, rfl, fun _ => rfl⟩, .nil⟩
  | cons resource resources ih =>
      rw [PanelAction.mapM_cons_apply, add_eq]
      cases hname : kind.storedName nextInt currentResources resource with
      | none =>
          rw [List.filterMap_cons_none hname] at hfree ⊢
          obtain ⟨entries, s', hrun, hadded, hbrings⟩ := ih hs hcurrent hfree
          refine ⟨(key resource, kind.resourceId (key resource) (kind.name resource)) :: entries,
            s', ?_, hadded, .cons ?_ hbrings⟩
          · simp only [PanelAction.pure_apply, hrun]
          · exact (brings_current hname hcurrent).mono hadded.kept
      | some name =>
          rw [List.filterMap_cons_some hname] at hfree ⊢
          obtain ⟨hnew, hrest⟩ := (freeNames_cons_iff resource).mp hfree
          have hkept : ∀ row ∈ s.rows, row ∈ (kind.withNew s resource name).rows := by
            intro row hrow
            rw [rows_withNew]
            exact List.mem_cons_of_mem _ hrow
          obtain ⟨entries, s', hrun, hadded, hbrings⟩ :=
            ih (distinct_withNew hs hnew) (fun row hrow => hkept row (hcurrent row hrow)) hrest
          have hlength := hadded.length
          rw [rows_withNew, List.length_cons] at hlength
          have hkey := kind.key_copy resource s.freshKey name
          refine ⟨(key resource, kind.resourceId s.freshKey name) :: entries, s', ?_,
            ⟨hadded.distinct, fun row hrow => hadded.kept row (hkept row hrow), ?_, ?_⟩,
            .cons ?_ hbrings⟩
          · simp only [PanelAction.bind_apply, putNew_of_free hnew, PanelAction.pure_apply, hrun,
              hkey, kind.name_copy]
          · rw [List.length_cons]
            omega
          · intro hnil
            cases hnil
          · refine ⟨rfl, rfl, kind.copy resource s.freshKey name, ?_, hkey,
              kind.access_copy _ _ _⟩
            apply hadded.kept
            rw [rows_withNew]
            exact List.mem_cons_self

/-- Without free names the database rejects a resource, and what was put before it stays:
nothing exactly when it is the first. -/
theorem mapM_add_error {resources : List ρ}
    (hfree : ¬ kind.FreeNames s
      (resources.filterMap (kind.storedName nextInt currentResources))) :
    ∃ s', resources.mapM (kind.add nextInt currentResources) s =
        .error (.duplicateKey RESOURCE_NAME_INDEX_NAME) s' ∧
      s.rows.length ≤ s'.rows.length ∧
      (s' = s ↔ ∃ name,
        (resources.filterMap (kind.storedName nextInt currentResources)).head? = some name ∧
          kind.Named s name) := by
  induction resources generalizing s with
  | nil => exact absurd ⟨List.nodup_nil, by simp⟩ hfree
  | cons resource resources ih =>
      rw [PanelAction.mapM_cons_apply, add_eq]
      cases hname : kind.storedName nextInt currentResources resource with
      | none =>
          rw [List.filterMap_cons_none hname] at hfree ⊢
          obtain ⟨s', hrun, hlength, hsame⟩ := ih hfree
          exact ⟨s', by simp only [PanelAction.pure_apply, hrun], hlength, hsame⟩
      | some name =>
          rw [List.filterMap_cons_some hname] at hfree ⊢
          by_cases hnamed : kind.Named s name
          · refine ⟨s, ?_, Nat.le_refl _, ?_⟩
            · simp only [PanelAction.bind_apply, putNew_of_named hnamed]
            · simp [hnamed]
          · rw [freeNames_cons_iff resource, not_and] at hfree
            obtain ⟨s', hrun, hlength, -⟩ := ih (hfree hnamed)
            rw [rows_withNew, List.length_cons] at hlength
            refine ⟨s', ?_, by omega, ?_⟩
            · simp only [PanelAction.bind_apply, putNew_of_free hnamed, PanelAction.pure_apply,
                hrun]
            · constructor
              · rintro rfl
                omega
              · rintro ⟨other, hhead, hother⟩
                rw [List.head?_cons, Option.some.injEq] at hhead
                exact absurd (hhead ▸ hother) hnamed

/-! ## Names that the request gives -/

/-- The names with random suffixes are distinct, and neither stored nor requested. -/
structure FreshSuffixes (kind : ResourceKind ρ) (nextInt : Nat → Nat) (s : Space ρ)
    (resources : List ρ) : Prop where
  nodup : (resources.map (kind.suffixed nextInt)).Nodup
  notStored : ∀ resource ∈ resources, ¬ kind.Named s (kind.suffixed nextInt resource)
  notRequested : ∀ resource ∈ resources, ∀ other ∈ resources,
    kind.name other ≠ kind.suffixed nextInt resource

/-- The resources that are put under their own names have distinct names that no stored
resource has. -/
def OwnNamesFree (kind : ResourceKind ρ) (s : Space ρ) (resources : List ρ) : Prop :=
  ((resources.filter (kind.keepsName s.rows)).map kind.name).Nodup ∧
    ∀ resource ∈ resources, kind.keepsName s.rows resource = true →
      ¬ kind.Named s (kind.name resource)

/-- No requested resource is put. -/
def NothingPut (kind : ResourceKind ρ) (s : Space ρ) (resources : List ρ) : Prop :=
  ∀ resource ∈ resources, kind.isPut s.rows resource = false

/-- The first resource that is put is put under its own name, which a stored one has. -/
def FirstRejected (kind : ResourceKind ρ) (s : Space ρ) (resources : List ρ) : Prop :=
  ∃ resource, resources.find? (kind.isPut s.rows) = some resource ∧
    kind.keepsName s.rows resource = true ∧ kind.Named s (kind.name resource)

theorem isPut_of_keepsName (h : kind.keepsName currentResources resource = true) :
    kind.isPut currentResources resource = true := by
  unfold keepsName at h
  unfold isPut
  cases hcurrent : kind.current currentResources resource with
  | none => rfl
  | some current =>
      rw [hcurrent] at h
      exact (Bool.and_eq_true_iff.mp h).1

theorem storedName_of_keepsName (h : kind.keepsName currentResources resource = true) :
    kind.storedName nextInt currentResources resource = some (kind.name resource) := by
  simp [storedName, h, isPut_of_keepsName h]

theorem storedName_of_isPut (hput : kind.isPut currentResources resource = true)
    (hname : ¬ kind.keepsName currentResources resource = true) :
    kind.storedName nextInt currentResources resource =
      some (kind.suffixed nextInt resource) := by
  simp [storedName, hput, hname]

theorem storedName_of_not_isPut (h : ¬ kind.isPut currentResources resource = true) :
    kind.storedName nextInt currentResources resource = none := by
  simp [storedName, h]

/-- A name that a resource is put under is its own, or has a suffix. -/
theorem eq_of_storedName (h : kind.storedName nextInt currentResources resource = some name) :
    (kind.keepsName currentResources resource = true ∧ kind.name resource = name) ∨
      kind.suffixed nextInt resource = name := by
  unfold storedName at h
  split at h
  · split at h
    · rename_i hkeeps
      exact .inl ⟨hkeeps, Option.some.inj h⟩
    · exact .inr (Option.some.inj h)
  · cases h

/-- With fresh suffixes only the names that are kept can meet. -/
theorem nodup_storedNames_iff {resources : List ρ}
    (hnodup : (resources.map (kind.suffixed nextInt)).Nodup)
    (hnames : ∀ resource ∈ resources, ∀ other ∈ resources,
      kind.name other ≠ kind.suffixed nextInt resource) :
    (resources.filterMap (kind.storedName nextInt currentResources)).Nodup ↔
      ((resources.filter (kind.keepsName currentResources)).map kind.name).Nodup := by
  induction resources with
  | nil => simp
  | cons resource resources ih =>
      rw [List.map_cons, List.nodup_cons] at hnodup
      have hrest := ih hnodup.2 fun r hr other hother =>
        hnames r (List.mem_cons_of_mem _ hr) other (List.mem_cons_of_mem _ hother)
      by_cases hkeeps : kind.keepsName currentResources resource = true
      · rw [List.filterMap_cons_some (storedName_of_keepsName hkeeps),
          List.filter_cons_of_pos hkeeps, List.map_cons, List.nodup_cons, List.nodup_cons, hrest]
        refine and_congr_left fun _ => not_congr ?_
        rw [List.mem_filterMap, List.mem_map]
        constructor
        · rintro ⟨other, hother, hname⟩
          rcases eq_of_storedName hname with ⟨hkeepsOther, heq⟩ | hsuffix
          · exact ⟨other, List.mem_filter.mpr ⟨hother, hkeepsOther⟩, heq⟩
          · exact absurd hsuffix.symm
              (hnames other (List.mem_cons_of_mem _ hother) resource List.mem_cons_self)
        · rintro ⟨other, hother, heq⟩
          obtain ⟨hmem, hkeepsOther⟩ := List.mem_filter.mp hother
          exact ⟨other, hmem, heq ▸ storedName_of_keepsName hkeepsOther⟩
      · rw [List.filter_cons_of_neg hkeeps, ← hrest]
        by_cases hput : kind.isPut currentResources resource = true
        · rw [List.filterMap_cons_some (storedName_of_isPut hput hkeeps), List.nodup_cons]
          refine and_iff_right fun hmem => ?_
          obtain ⟨other, hother, hname⟩ := List.mem_filterMap.mp hmem
          rcases eq_of_storedName hname with ⟨-, heq⟩ | hsuffix
          · exact hnames resource List.mem_cons_self other (List.mem_cons_of_mem _ hother) heq
          · exact hnodup.1 (hsuffix ▸ List.mem_map_of_mem hother)
        · rw [List.filterMap_cons_none (storedName_of_not_isPut hput)]

theorem freeNames_iff {resources : List ρ}
    (hfresh : kind.FreshSuffixes nextInt s resources) :
    kind.FreeNames s (kind.storedNames nextInt s resources) ↔
      kind.OwnNamesFree s resources := by
  unfold FreeNames OwnNamesFree storedNames
  rw [nodup_storedNames_iff hfresh.nodup hfresh.notRequested]
  apply and_congr_right
  intro _
  constructor
  · intro h resource hresource hkeeps
    apply h
    exact List.mem_filterMap.mpr ⟨resource, hresource, storedName_of_keepsName hkeeps⟩
  · intro h name hname
    obtain ⟨resource, hresource, hstored⟩ := List.mem_filterMap.mp hname
    rcases eq_of_storedName hstored with ⟨hkeeps, rfl⟩ | rfl
    · exact h resource hresource hkeeps
    · exact hfresh.notStored resource hresource

theorem storedNames_eq_nil_iff (nextInt : Nat → Nat) (s : Space ρ) (resources : List ρ) :
    kind.storedNames nextInt s resources = [] ↔ kind.NothingPut s resources := by
  unfold storedNames
  rw [List.filterMap_eq_nil_iff]
  refine forall₂_congr fun resource _ => ?_
  rw [← Bool.not_eq_true]
  constructor
  · intro hnone hput
    by_cases hkeeps : kind.keepsName s.rows resource = true
    · rw [storedName_of_keepsName hkeeps] at hnone
      cases hnone
    · rw [storedName_of_isPut hput hkeeps] at hnone
      cases hnone
  · exact storedName_of_not_isPut

theorem head_storedNames_iff {resources : List ρ}
    (hfresh : ∀ resource ∈ resources, ¬ kind.Named s (kind.suffixed nextInt resource)) :
    (∃ name, (kind.storedNames nextInt s resources).head? = some name ∧
        kind.Named s name) ↔
      kind.FirstRejected s resources := by
  unfold FirstRejected storedNames
  induction resources with
  | nil => simp
  | cons resource resources ih =>
      by_cases hput : kind.isPut s.rows resource = true
      · rw [List.find?_cons_of_pos hput]
        by_cases hkeeps : kind.keepsName s.rows resource = true
        · simp [List.filterMap_cons_some (storedName_of_keepsName hkeeps), hkeeps]
        · simp [List.filterMap_cons_some (storedName_of_isPut hput hkeeps), hkeeps,
            hfresh resource List.mem_cons_self]
      · rw [List.find?_cons_of_neg hput,
          List.filterMap_cons_none (storedName_of_not_isPut hput)]
        exact ih fun r hr => hfresh r (List.mem_cons_of_mem _ hr)

end ResourceKind

/-! ## The artifacts -/

/-- Every artifact is of a type that the panel has resources for. -/
def ExternalArtifactsRequest.KnownTypes (request : ExternalArtifactsRequest) : Prop :=
  ∀ artifact ∈ request.artifacts, artifact.externalId.resourceId.type = .artifacts ∨
    artifact.externalId.resourceId.type = .openShift

/-- Every artifact of a known type refers to a resource of the request. -/
structure ExternalArtifactsRequest.RefersToResources (request : ExternalArtifactsRequest) :
    Prop where
  artifacts : ∀ artifact ∈ request.artifacts,
    artifact.externalId.resourceId.type = .artifacts →
      ∃ resource ∈ request.artifactsResources,
        resource.id = artifact.externalId.resourceId.id
  openShift : ∀ artifact ∈ request.artifacts,
    artifact.externalId.resourceId.type = .openShift →
      ∃ resource ∈ request.openShiftResources,
        resource.id = artifact.externalId.resourceId.id

namespace ResourceDatabase

variable {artifactsIds openShiftIds : LinkedMap Nat ResourceIdentifier}
  {request : ExternalArtifactsRequest} {db db' : ResourceDatabase}

/-- The stored form of an artifact of a known type. -/
def storedArtifact (artifactsIds openShiftIds : LinkedMap Nat ResourceIdentifier)
    (artifact : ExternalArtifact) : StoredExternalArtifact where
  name := artifact.name
  version := artifact.version
  projectId := artifact.projectId
  externalId := artifact.externalId.id
  resourceId :=
    if artifact.externalId.resourceId.type = .artifacts then
      artifactsIds.get artifact.externalId.resourceId.id
    else openShiftIds.get artifact.externalId.resourceId.id

theorem withResourceId_of_known {artifact : ExternalArtifact}
    (h : artifact.externalId.resourceId.type = .artifacts ∨
      artifact.externalId.resourceId.type = .openShift) :
    withResourceId artifactsIds openShiftIds artifact db =
      .ok (storedArtifact artifactsIds openShiftIds artifact) db := by
  unfold withResourceId storedArtifact
  rcases h with h | h
  · rw [h]
    rfl
  · rw [h]
    rfl

theorem withResourceId_of_unknown {artifact : ExternalArtifact}
    (h : ¬ (artifact.externalId.resourceId.type = .artifacts ∨
      artifact.externalId.resourceId.type = .openShift)) :
    withResourceId artifactsIds openShiftIds artifact db =
      .error (.raised { code := .platformError }) db := by
  unfold withResourceId
  cases htype : artifact.externalId.resourceId.type with
  | artifacts => exact absurd (.inl htype) h
  | openShift => exact absurd (.inr htype) h
  | git => rfl
  | platform => rfl
  | proxy => rfl

theorem mapM_withResourceId_ok {artifacts : List ExternalArtifact}
    (h : ∀ artifact ∈ artifacts, artifact.externalId.resourceId.type = .artifacts ∨
      artifact.externalId.resourceId.type = .openShift) :
    artifacts.mapM (withResourceId artifactsIds openShiftIds) db =
      .ok (artifacts.map (storedArtifact artifactsIds openShiftIds)) db := by
  induction artifacts with
  | nil => rfl
  | cons artifact artifacts ih =>
      rw [List.forall_mem_cons] at h
      rw [PanelAction.mapM_cons_apply, withResourceId_of_known h.1]
      simp only [ih h.2, List.map_cons]

/-- The first artifact of an unknown type ends the request. -/
theorem mapM_withResourceId_error {artifacts : List ExternalArtifact}
    (h : ¬ ∀ artifact ∈ artifacts, artifact.externalId.resourceId.type = .artifacts ∨
      artifact.externalId.resourceId.type = .openShift) :
    artifacts.mapM (withResourceId artifactsIds openShiftIds) db =
      .error (.raised { code := .platformError }) db := by
  induction artifacts with
  | nil => exact absurd (by simp) h
  | cons artifact artifacts ih =>
      rw [List.forall_mem_cons, not_and] at h
      rw [PanelAction.mapM_cons_apply]
      by_cases hknown : artifact.externalId.resourceId.type = .artifacts ∨
          artifact.externalId.resourceId.type = .openShift
      · rw [withResourceId_of_known hknown]
        simp only [ih (h hknown)]
      · rw [withResourceId_of_unknown hknown]

theorem forM_putExternalArtifact (artifacts : List StoredExternalArtifact)
    (db : ResourceDatabase) :
    artifacts.forM putExternalArtifact db =
      .ok () { db with externalArtifacts := db.externalArtifacts ++ artifacts } := by
  induction artifacts generalizing db with
  | nil =>
      rw [List.append_nil]
      rfl
  | cons artifact artifacts ih =>
      have hput : putExternalArtifact artifact db =
          .ok () { db with externalArtifacts := db.externalArtifacts ++ [artifact] } := rfl
      change (putExternalArtifact artifact >>= fun _ => artifacts.forM putExternalArtifact) db = _
      rw [PanelAction.bind_apply, hput]
      simp only [ih, List.append_assoc, List.singleton_append]

/-- The parts of a request one after the other. -/
theorem addExternalArtifacts_eq (nextArtifactsInt nextOpenShiftInt : Nat → Nat)
    (request : ExternalArtifactsRequest) (db : ResourceDatabase) :
    addExternalArtifacts nextArtifactsInt nextOpenShiftInt request db =
      match request.artifactsResources.mapM
          (artifactsKind.add nextArtifactsInt db.artifactsResources.rows)
          db.artifactsResources with
      | .error e s => .error e { db with artifactsResources := s }
      | .ok artifactsEntries s =>
          match request.openShiftResources.mapM
              (openShiftKind.add nextOpenShiftInt db.openShiftResources.rows)
              db.openShiftResources with
          | .error e s' => .error e
              { db with artifactsResources := s, openShiftResources := s' }
          | .ok openShiftEntries s' =>
              match request.artifacts.mapM (withResourceId (.ofEntries artifactsEntries)
                  (.ofEntries openShiftEntries))
                  { db with artifactsResources := s, openShiftResources := s' } with
              | .error e db' => .error e db'
              | .ok artifacts db' => artifacts.forM putExternalArtifact db' := by
  simp only [addExternalArtifacts, PanelAction.bind_apply, PanelAction.get_apply,
    onArtifactsResources_apply, Space.selectAll]
  cases request.artifactsResources.mapM
      (artifactsKind.add nextArtifactsInt db.artifactsResources.rows)
      db.artifactsResources with
  | error e s => rfl
  | ok artifactsEntries s =>
      simp only [onOpenShiftResources_apply]
      cases request.openShiftResources.mapM
          (openShiftKind.add nextOpenShiftInt db.openShiftResources.rows)
          db.openShiftResources with
      | error e s' => rfl
      | ok openShiftEntries s' =>
          simp only
          cases request.artifacts.mapM (withResourceId (.ofEntries artifactsEntries)
              (.ofEntries openShiftEntries))
              { db with artifactsResources := s, openShiftResources := s' } with
          | error e db' => rfl
          | ok artifacts db' => rfl

end ResourceDatabase

/-! ## Consistent requests -/

namespace ResourceKind

variable {ρ : Type} [Keyed ρ Nat] {kind : ResourceKind ρ} {s : Space ρ} {resources : List ρ}
  {entries : List (Nat × ResourceIdentifier)}

/-- An identifier leads to a stored resource with the access that the request gives for an
id. -/
def Resolves (kind : ResourceKind ρ) (resources : List ρ) (s : Space ρ) (id : Nat)
    (resourceId : ResourceIdentifier) : Prop :=
  resourceId.type = kind.type ∧ ∃ resource ∈ resources, key resource = id ∧
    ∃ row ∈ s.rows, key row = resourceId.id ∧ kind.access row = kind.access resource

theorem exists_brings (h : List.Forall₂ (kind.Brings s) resources entries)
    {entry : Nat × ResourceIdentifier} (hentry : entry ∈ entries) :
    ∃ resource ∈ resources, kind.Brings s resource entry := by
  induction h with
  | nil => cases hentry
  | cons hbrings _ ih =>
      rcases List.mem_cons.mp hentry with rfl | hentry
      · exact ⟨_, List.mem_cons_self, hbrings⟩
      · obtain ⟨resource, hresource, hbrings⟩ := ih hentry
        exact ⟨resource, List.mem_cons_of_mem _ hresource, hbrings⟩

theorem keys_of_brings (h : List.Forall₂ (kind.Brings s) resources entries) :
    entries.map Prod.fst = resources.map key := by
  induction h with
  | nil => rfl
  | cons hbrings _ ih => rw [List.map_cons, List.map_cons, hbrings.id, ih]

/-- The map of the brought resources resolves the ids of the request. -/
theorem resolves_of_brings (h : List.Forall₂ (kind.Brings s) resources entries) {id : Nat}
    (hid : ∃ resource ∈ resources, key resource = id) :
    ∃ resourceId, (LinkedMap.ofEntries entries).get id = some resourceId ∧
      kind.Resolves resources s id resourceId := by
  have hlisted : id ∈ entries.map Prod.fst := by
    rw [keys_of_brings h]
    exact List.mem_map.mpr hid
  obtain ⟨resourceId, hget, hentry⟩ := LinkedMap.exists_get_ofEntries hlisted
  obtain ⟨resource, hresource, hbrings⟩ := exists_brings h hentry
  exact ⟨resourceId, hget, hbrings.type, resource, hresource, hbrings.id.symm,
    hbrings.stored⟩

end ResourceKind

namespace ResourceDatabase

variable {request : ExternalArtifactsRequest} {db db' : ResourceDatabase}
  {nextArtifactsInt nextOpenShiftInt : Nat → Nat}

/-- An artifact of the request as it is stored, with a stored resource of its type. -/
structure Refers (request : ExternalArtifactsRequest) (db' : ResourceDatabase)
    (artifact : ExternalArtifact) (stored : StoredExternalArtifact) : Prop where
  name : stored.name = artifact.name
  version : stored.version = artifact.version
  projectId : stored.projectId = artifact.projectId
  externalId : stored.externalId = artifact.externalId.id
  resource : ∃ resourceId, stored.resourceId = some resourceId ∧
    (artifact.externalId.resourceId.type = .artifacts ∧
        artifactsKind.Resolves request.artifactsResources db'.artifactsResources
          artifact.externalId.resourceId.id resourceId ∨
      artifact.externalId.resourceId.type = .openShift ∧
        openShiftKind.Resolves request.openShiftResources db'.openShiftResources
          artifact.externalId.resourceId.id resourceId)

/-- What an accepted request leaves. -/
structure Accepted (request : ExternalArtifactsRequest) (db db' : ResourceDatabase) :
    Prop where
  artifactsNames : db'.artifactsResources.Distinct artifactsKind.name
  openShiftNames : db'.openShiftResources.Distinct openShiftKind.name
  artifactsKept : ∀ row ∈ db.artifactsResources.rows, row ∈ db'.artifactsResources.rows
  openShiftKept : ∀ row ∈ db.openShiftResources.rows, row ∈ db'.openShiftResources.rows
  refers : ∃ stored, db'.externalArtifacts = db.externalArtifacts ++ stored ∧
    List.Forall₂ (Refers request db') request.artifacts stored

/-- A request that succeeds keeps resources and artifacts consistent, and one that fails
stores nothing. -/
structure Consistent (nextArtifactsInt nextOpenShiftInt : Nat → Nat)
    (request : ExternalArtifactsRequest) (db : ResourceDatabase) : Prop where
  success : ∀ db', addExternalArtifacts nextArtifactsInt nextOpenShiftInt request db =
    .ok () db' → Accepted request db db'
  failure : ∀ e db', addExternalArtifacts nextArtifactsInt nextOpenShiftInt request db =
    .error e db' → db' = db

/-- A request with one result is consistent when the result is. -/
theorem consistent_iff_of_ok
    (h : addExternalArtifacts nextArtifactsInt nextOpenShiftInt request db = .ok () db') :
    Consistent nextArtifactsInt nextOpenShiftInt request db ↔ Accepted request db db' := by
  constructor
  · intro hconsistent
    exact hconsistent.success db' h
  · intro haccepted
    constructor
    · intro db'' h'
      rw [h] at h'
      cases h'
      exact haccepted
    · intro e db'' h'
      rw [h] at h'
      cases h'

theorem consistent_iff_of_error {e : PanelFailure}
    (h : addExternalArtifacts nextArtifactsInt nextOpenShiftInt request db = .error e db') :
    Consistent nextArtifactsInt nextOpenShiftInt request db ↔ db' = db := by
  constructor
  · intro hconsistent
    exact hconsistent.failure e db' h
  · intro hsame
    constructor
    · intro db'' h'
      rw [h] at h'
      cases h'
    · intro e' db'' h'
      rw [h] at h'
      cases h'
      exact hsame

/-- The artifacts of a request refer to the resources that were brought in. -/
theorem refers_storedArtifact
    {artifactsEntries openShiftEntries : List (Nat × ResourceIdentifier)}
    (hrefers : request.RefersToResources) (hknown : request.KnownTypes)
    (hartifacts : List.Forall₂ (artifactsKind.Brings db'.artifactsResources)
      request.artifactsResources artifactsEntries)
    (hopenShift : List.Forall₂ (openShiftKind.Brings db'.openShiftResources)
      request.openShiftResources openShiftEntries) :
    List.Forall₂ (Refers request db') request.artifacts
      (request.artifacts.map (storedArtifact (.ofEntries artifactsEntries)
        (.ofEntries openShiftEntries))) := by
  rw [List.forall₂_map_right_iff, List.forall₂_same]
  intro artifact hartifact
  refine ⟨rfl, rfl, rfl, rfl, ?_⟩
  rcases hknown artifact hartifact with htype | htype
  · obtain ⟨resourceId, hget, hresolves⟩ :=
      ResourceKind.resolves_of_brings hartifacts (hrefers.artifacts artifact hartifact htype)
    refine ⟨resourceId, ?_, .inl ⟨htype, hresolves⟩⟩
    simp [storedArtifact, htype, hget]
  · obtain ⟨resourceId, hget, hresolves⟩ :=
      ResourceKind.resolves_of_brings hopenShift (hrefers.openShift artifact hartifact htype)
    refine ⟨resourceId, ?_, .inr ⟨htype, hresolves⟩⟩
    simp [storedArtifact, htype, hget]

section Cases

variable (hartifacts : db.artifactsResources.Distinct artifactsKind.name)
  (hopenShift : db.openShiftResources.Distinct openShiftKind.name)

/-- The database rejects an artifacts resource. -/
theorem consistent_iff_of_artifacts_rejected
    (hnot : ¬ artifactsKind.FreeNames db.artifactsResources
      (artifactsKind.storedNames nextArtifactsInt db.artifactsResources
        request.artifactsResources)) :
    Consistent nextArtifactsInt nextOpenShiftInt request db ↔
      ∃ name, (artifactsKind.storedNames nextArtifactsInt db.artifactsResources
          request.artifactsResources).head? = some name ∧
        artifactsKind.Named db.artifactsResources name := by
  obtain ⟨s, hrun, -, hsame⟩ := ResourceKind.mapM_add_error hnot
  have hresult := addExternalArtifacts_eq nextArtifactsInt nextOpenShiftInt request db
  rw [hrun] at hresult
  refine (consistent_iff_of_error hresult).trans (Iff.trans ?_ hsame)
  constructor
  · intro h
    exact congrArg ResourceDatabase.artifactsResources h
  · rintro rfl
    rfl

include hartifacts in
/-- The database rejects an OpenShift resource after the artifacts resources. -/
theorem consistent_iff_of_openShift_rejected
    (hfree : artifactsKind.FreeNames db.artifactsResources
      (artifactsKind.storedNames nextArtifactsInt db.artifactsResources
        request.artifactsResources))
    (hnot : ¬ openShiftKind.FreeNames db.openShiftResources
      (openShiftKind.storedNames nextOpenShiftInt db.openShiftResources
        request.openShiftResources)) :
    Consistent nextArtifactsInt nextOpenShiftInt request db ↔
      artifactsKind.storedNames nextArtifactsInt db.artifactsResources
          request.artifactsResources = [] ∧
        ∃ name, (openShiftKind.storedNames nextOpenShiftInt db.openShiftResources
            request.openShiftResources).head? = some name ∧
          openShiftKind.Named db.openShiftResources name := by
  obtain ⟨entries, s, hrun, hadded, -⟩ :=
    ResourceKind.mapM_add_ok hartifacts (fun _ hrow => hrow) hfree
  obtain ⟨s', hrun', -, hsame'⟩ := ResourceKind.mapM_add_error hnot
  have hresult := addExternalArtifacts_eq nextArtifactsInt nextOpenShiftInt request db
  rw [hrun] at hresult
  simp only [hrun'] at hresult
  refine (consistent_iff_of_error hresult).trans
    (Iff.trans ?_ (and_congr hadded.same_iff hsame'))
  constructor
  · intro h
    exact ⟨congrArg ResourceDatabase.artifactsResources h,
      congrArg ResourceDatabase.openShiftResources h⟩
  · rintro ⟨rfl, rfl⟩
    rfl

include hartifacts hopenShift in
/-- All resources are brought in, and the types of the artifacts decide. -/
theorem consistent_iff_of_added (hrefers : request.RefersToResources)
    (hfree : artifactsKind.FreeNames db.artifactsResources
      (artifactsKind.storedNames nextArtifactsInt db.artifactsResources
        request.artifactsResources))
    (hfree' : openShiftKind.FreeNames db.openShiftResources
      (openShiftKind.storedNames nextOpenShiftInt db.openShiftResources
        request.openShiftResources)) :
    Consistent nextArtifactsInt nextOpenShiftInt request db ↔
      request.KnownTypes ∨
        (artifactsKind.storedNames nextArtifactsInt db.artifactsResources
            request.artifactsResources = [] ∧
          openShiftKind.storedNames nextOpenShiftInt db.openShiftResources
            request.openShiftResources = []) := by
  obtain ⟨entries, s, hrun, hadded, hbrings⟩ :=
    ResourceKind.mapM_add_ok hartifacts (fun _ hrow => hrow) hfree
  obtain ⟨entries', s', hrun', hadded', hbrings'⟩ :=
    ResourceKind.mapM_add_ok hopenShift (fun _ hrow => hrow) hfree'
  have hresult := addExternalArtifacts_eq nextArtifactsInt nextOpenShiftInt request db
  rw [hrun] at hresult
  simp only [hrun'] at hresult
  by_cases hknown : request.KnownTypes
  · rw [mapM_withResourceId_ok hknown] at hresult
    simp only [forM_putExternalArtifact] at hresult
    rw [consistent_iff_of_ok hresult]
    refine iff_of_true ?_ (.inl hknown)
    exact
      { artifactsNames := hadded.distinct
        openShiftNames := hadded'.distinct
        artifactsKept := hadded.kept
        openShiftKept := hadded'.kept
        refers := ⟨_, rfl, refers_storedArtifact hrefers hknown hbrings hbrings'⟩ }
  · rw [mapM_withResourceId_error hknown] at hresult
    rw [or_iff_right hknown]
    refine (consistent_iff_of_error hresult).trans
      (Iff.trans ?_ (and_congr hadded.same_iff hadded'.same_iff))
    constructor
    · intro h
      exact ⟨congrArg ResourceDatabase.artifactsResources h,
        congrArg ResourceDatabase.openShiftResources h⟩
    · rintro ⟨rfl, rfl⟩
      rfl

end Cases

/-- A request keeps resources and artifacts consistent exactly when every type is known and
the resources that are put under their own names have free names, or nothing is put, or
the database rejects the first resource that is put. -/
theorem externalArtifacts_consistent_iff (nextArtifactsInt nextOpenShiftInt : Nat → Nat)
    (request : ExternalArtifactsRequest) (db : ResourceDatabase)
    (hartifacts : db.artifactsResources.Distinct artifactsKind.name)
    (hopenShift : db.openShiftResources.Distinct openShiftKind.name)
    (hrefers : request.RefersToResources)
    (hfreshArtifacts : artifactsKind.FreshSuffixes nextArtifactsInt db.artifactsResources
      request.artifactsResources)
    (hfreshOpenShift : openShiftKind.FreshSuffixes nextOpenShiftInt db.openShiftResources
      request.openShiftResources) :
    Consistent nextArtifactsInt nextOpenShiftInt request db ↔
      (request.KnownTypes ∧
          artifactsKind.OwnNamesFree db.artifactsResources request.artifactsResources ∧
          openShiftKind.OwnNamesFree db.openShiftResources request.openShiftResources) ∨
        (artifactsKind.NothingPut db.artifactsResources request.artifactsResources ∧
          openShiftKind.NothingPut db.openShiftResources request.openShiftResources) ∨
        artifactsKind.FirstRejected db.artifactsResources request.artifactsResources ∨
        (artifactsKind.NothingPut db.artifactsResources request.artifactsResources ∧
          openShiftKind.FirstRejected db.openShiftResources request.openShiftResources) := by
  rw [← ResourceKind.freeNames_iff hfreshArtifacts, ← ResourceKind.freeNames_iff hfreshOpenShift,
    ← ResourceKind.head_storedNames_iff hfreshArtifacts.notStored,
    ← ResourceKind.head_storedNames_iff hfreshOpenShift.notStored,
    ← ResourceKind.storedNames_eq_nil_iff nextArtifactsInt,
    ← ResourceKind.storedNames_eq_nil_iff nextOpenShiftInt]
  by_cases hfree : artifactsKind.FreeNames db.artifactsResources
      (artifactsKind.storedNames nextArtifactsInt db.artifactsResources
        request.artifactsResources)
  · have hnoHead := hfree.not_head
    by_cases hfree' : openShiftKind.FreeNames db.openShiftResources
        (openShiftKind.storedNames nextOpenShiftInt db.openShiftResources
          request.openShiftResources)
    · have hnoHead' := hfree'.not_head
      rw [consistent_iff_of_added hartifacts hopenShift hrefers hfree hfree']
      simp only [hfree, hfree', hnoHead, hnoHead', and_true, and_false, or_false]
    · have hput := ResourceKind.ne_nil_of_not_freeNames hfree'
      rw [consistent_iff_of_openShift_rejected hartifacts hfree hfree']
      simp only [hfree', hput, hnoHead, and_false, false_or]
  · have hput := ResourceKind.ne_nil_of_not_freeNames hfree
    rw [consistent_iff_of_artifacts_rejected hfree]
    simp only [hfree, hput, and_false, false_and, false_or, or_false]

/-! ## An unknown type -/

private def emptyResources : ResourceDatabase :=
  ⟨.empty, .empty, []⟩

private def nexus : ArtifactsResource :=
  ⟨5, "nexus", "http://nexus", "admin", "secret"⟩

/-- An artifact of a type, with a resource that its id names. -/
private def nexusRequest (type : ResourceType) : ExternalArtifactsRequest where
  artifacts := [⟨"shop", "1.0", 1, "group:shop", 5, "nexus", type⟩]
  artifactsResources := [nexus]

private theorem freshSuffixes_nexus :
    artifactsKind.FreshSuffixes (fun _ => 7) emptyResources.artifactsResources [nexus] where
  nodup := List.nodup_singleton _
  notStored := by
    rintro resource - ⟨row, hrow, -⟩
    cases hrow
  notRequested := by decide

/-- A request with one new resource is consistent. -/
theorem externalArtifacts_consistent_nexus :
    Consistent (fun _ => 7) (fun _ => 7) (nexusRequest .artifacts) emptyResources := by
  refine (externalArtifacts_consistent_iff _ _ _ _ Space.distinct_empty Space.distinct_empty
    ?_ freshSuffixes_nexus ?_).mpr (.inl ⟨?_, ?_, ?_⟩)
  · constructor
    · decide
    · decide
  · exact ⟨List.nodup_nil, by simp [nexusRequest], by simp [nexusRequest]⟩
  · unfold ExternalArtifactsRequest.KnownTypes
    decide
  · refine ⟨by decide, ?_⟩
    rintro resource - - ⟨row, hrow, -⟩
    cases hrow
  · exact ⟨List.nodup_nil, by simp [nexusRequest]⟩

/-- An artifact of a type without resources ends the request, and the resource that was put
before stays. -/
theorem resource_stored_on_failure :
    addExternalArtifacts (fun _ => 7) (fun _ => 7) (nexusRequest .git) emptyResources =
        .error (.raised { code := .platformError })
          ⟨Space.empty.put { nexus with id := 1 }, .empty, []⟩ ∧
      ¬ Consistent (fun _ => 7) (fun _ => 7) (nexusRequest .git) emptyResources := by
  have hresult : addExternalArtifacts (fun _ => 7) (fun _ => 7) (nexusRequest .git)
      emptyResources =
        .error (.raised { code := .platformError })
          ⟨Space.empty.put { nexus with id := 1 }, .empty, []⟩ := rfl
  refine ⟨hresult, ?_⟩
  rw [consistent_iff_of_error hresult]
  intro hsame
  have hlength := congrArg (fun db => db.artifactsResources.rows.length) hsame
  exact absurd hlength (by decide)

end ResourceDatabase

end ArtPlatform
