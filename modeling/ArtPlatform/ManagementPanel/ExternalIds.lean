import ArtPlatform.ManagementPanel.ModuleService
import ArtPlatform.ManagementPanel.ProjectService

/-!
# External ids

Projects and modules are named in OpenShift by their external ids.  The services
compare raw names, and only in some operations, while the ids are normalized
names.  This file says which sequences of additions and updates keep the ids
apart.

Main results:

- Theorem `unique_apply_iff`: a single operation keeps the ids apart if and only
  if what it stores is free.
- Theorem `externalIds_unique_iff`: from the empty store, the ids are unique in
  every store reached if and only if every operation stored free ids.
- Theorem `externalIds_collide`: two projects whose names differ in a dot share
  their namespace.
-/

namespace ArtPlatform

/-! ## Uniqueness -/

/-- Two modules of one project on one resource, which must be told apart there. -/
def Module.SharesNamespace (m n : Module) : Prop :=
  m.projectId = n.projectId ∧ m.resourceId.id = n.resourceId.id ∧
    m.resourceId.type = n.resourceId.type

/-- Distinct projects have distinct external ids, and distinct modules of a project on
a resource have distinct names and distinct external ids. -/
structure UniqueIds (s : PanelStore) : Prop where
  projects : ∀ p ∈ s.projects.rows, ∀ q ∈ s.projects.rows,
    p.externalId.id = q.externalId.id → p = q
  moduleNames : ∀ m ∈ s.modules.rows, ∀ n ∈ s.modules.rows,
    m.SharesNamespace n → m.name = n.name → m = n
  moduleIds : ∀ m ∈ s.modules.rows, ∀ n ∈ s.modules.rows,
    m.SharesNamespace n → m.externalId.id = n.externalId.id → m = n

/-! ## Operations -/

/-- The operations that store a name or an external id. -/
inductive NamingOperation
  | addProject (request : ProjectRequest) (now : Nat)
  | updateProject (request : ProjectUpdateRequest)
  | installModule (request : ModuleInstallationRequest) (now : Nat)
  | updateModule (request : ModuleUpdateRequest)

def NamingOperation.run (naming : Naming) :
    NamingOperation → PanelStore → Except PlatformException PanelStore
  | .addProject request now, s => s.addProject naming request now
  | .updateProject request, s => s.updateProject request
  | .installModule request now, s => s.installModule naming.toLowerCase request now
  | .updateModule request, s => s.updateModule request

/-- An exception leaves the store as it is. -/
def NamingOperation.apply (naming : Naming) (o : NamingOperation) (s : PanelStore) :
    PanelStore :=
  match o.run naming s with
  | .ok s' => s'
  | .error _ => s

/-- No other stored module in the module's namespace has its name or external id. -/
def FreeModule (s : PanelStore) (m : Module) : Prop :=
  ∀ n ∈ s.modules.rows, n.id ≠ m.id → m.SharesNamespace n →
    m.name ≠ n.name ∧ m.externalId.id ≠ n.externalId.id

/-- What the operation is about to store is free. -/
def NamingOperation.Fresh (naming : Naming) (s : PanelStore) : NamingOperation → Prop
  | .addProject request _ => ∀ p ∈ s.projects.rows,
      normalizeNameToId naming.toLowerCase request.name ≠ p.externalId.id
  | .updateProject _ => True
  | .installModule request now =>
      FreeModule s (createModule naming.toLowerCase request s.modules.freshKey now)
  | .updateModule request => ∀ m, s.tryGetModule request.moduleId = some m →
      FreeModule s (createUpdatedModule m request.newModuleConfiguration m.portMappings)

/-! ## One operation -/

variable {naming : Naming} {s s' : PanelStore}

theorem Module.SharesNamespace.symm {m n : Module} (h : m.SharesNamespace n) :
    n.SharesNamespace m :=
  ⟨h.1.symm, h.2.1.symm, h.2.2.symm⟩

/-- A put of a project keeps the ids apart when no other project has its id. -/
theorem uniqueIds_putProject_iff (h : UniqueIds s) (p : Project) :
    UniqueIds (s.putProject p) ↔
      ∀ q ∈ s.projects.rows, q.id ≠ p.id → p.externalId.id ≠ q.externalId.id := by
  have happart := Space.apart_put_iff
    (R := fun p q : Project => p.externalId.id = q.externalId.id)
    (fun _ _ heq => heq.symm) h.projects p
  constructor
  · intro hunique
    exact happart.mp hunique.projects
  · intro hfree
    exact ⟨happart.mpr hfree, h.moduleNames, h.moduleIds⟩

/-- A put of a module keeps the ids apart when the module is free. -/
theorem uniqueIds_putModule_iff (h : UniqueIds s) (m : Module) :
    UniqueIds (s.putModule m) ↔ FreeModule s m := by
  have hnames := Space.apart_put_iff
    (R := fun m n : Module => m.SharesNamespace n ∧ m.name = n.name)
    (fun _ _ hR => ⟨hR.1.symm, hR.2.symm⟩)
    (fun m hm n hn hR => h.moduleNames m hm n hn hR.1 hR.2) m
  have hids := Space.apart_put_iff
    (R := fun m n : Module => m.SharesNamespace n ∧ m.externalId.id = n.externalId.id)
    (fun _ _ hR => ⟨hR.1.symm, hR.2.symm⟩)
    (fun m hm n hn hR => h.moduleIds m hm n hn hR.1 hR.2) m
  constructor
  · intro hunique n hn hne hshares
    constructor
    · intro hname
      exact hnames.mp (fun a ha b hb hR => hunique.moduleNames a ha b hb hR.1 hR.2)
        n hn hne ⟨hshares, hname⟩
    · intro hid
      exact hids.mp (fun a ha b hb hR => hunique.moduleIds a ha b hb hR.1 hR.2)
        n hn hne ⟨hshares, hid⟩
  · intro hfree
    refine ⟨h.projects, ?_, ?_⟩
    · intro a ha b hb hshares hname
      exact hnames.mpr (fun n hn hne hR => (hfree n hn hne hR.1).1 hR.2)
        a ha b hb ⟨hshares, hname⟩
    · intro a ha b hb hshares hid
      exact hids.mpr (fun n hn hne hR => (hfree n hn hne hR.1).2 hR.2)
        a ha b hb ⟨hshares, hid⟩

theorem UniqueIds.of_rows (h : UniqueIds s) (hprojects : s'.projects.rows = s.projects.rows)
    (hmodules : s'.modules.rows = s.modules.rows) : UniqueIds s' := by
  constructor
  · rw [hprojects]
    exact h.projects
  · rw [hmodules]
    exact h.moduleNames
  · rw [hmodules]
    exact h.moduleIds

/-- The state that is put again does not matter for the ids. -/
theorem uniqueIds_putModule_twice_iff (h : UniqueIds s) (m : Module) (state : ModuleState) :
    UniqueIds ((s.putModule m).putModule { m with state := state }) ↔ FreeModule s m := by
  have hrows : ((s.putModule m).putModule { m with state := state }).modules.rows =
      (s.putModule { m with state := state }).modules.rows :=
    s.modules.rows_put_put rfl
  have hput := uniqueIds_putModule_iff h { m with state := state }
  constructor
  · intro hunique
    exact hput.mp (hunique.of_rows rfl hrows.symm)
  · intro hfree
    exact (hput.mpr hfree).of_rows rfl hrows

/-- A project added under a fresh id is compared with all stored ones. -/
theorem id_ne_freshKey {p : Project} (hp : p ∈ s.projects.rows) :
    p.id ≠ s.projects.freshKey := by
  have hlt : p.id < s.projects.freshKey := s.projects.key_lt_freshKey hp
  omega

/-- An operation that succeeds keeps the ids apart if and only if what it stores is
free; one that fails changes nothing. -/
theorem unique_apply_iff (h : UniqueIds s) (o : NamingOperation) :
    UniqueIds (o.apply naming s) ↔
      ∀ s', o.run naming s = .ok s' → o.Fresh naming s := by
  unfold NamingOperation.apply
  cases hrun : o.run naming s with
  | error e => simp [h]
  | ok s' =>
      simp only [Except.ok.injEq, forall_eq']
      cases o with
      | addProject request now =>
          simp only [NamingOperation.run, PanelStore.addProject] at hrun
          split at hrun
          · cases hrun
          · split at hrun
            · cases hrun
            · obtain rfl := Except.ok.inj hrun
              rw [uniqueIds_putProject_iff h]
              constructor
              · intro hfree p hp
                exact hfree p hp (id_ne_freshKey hp)
              · intro hfree p hp _
                exact hfree p hp
      | updateProject request =>
          simp only [NamingOperation.run, PanelStore.updateProject] at hrun
          split at hrun
          · cases hrun
          · rename_i project hget
            split at hrun
            · cases hrun
            · obtain rfl := Except.ok.inj hrun
              rw [uniqueIds_putProject_iff h]
              simp only [NamingOperation.Fresh, iff_true]
              -- The edited project keeps its external id, which was unique before.
              intro q hq hne heq
              have hrow : project ∈ s.projects.rows :=
                Space.mem_rows_of_get (PanelStore.getProject_eq_ok.mp hget)
              have hsame : q = project := (h.projects project hrow q hq heq).symm
              have hid : q.id = project.id := congrArg Project.id hsame
              exact hne hid
      | installModule request now =>
          simp only [NamingOperation.run, PanelStore.installModule] at hrun
          split at hrun
          · cases hrun
          · obtain rfl := Except.ok.inj hrun
            exact uniqueIds_putModule_twice_iff h _ _
      | updateModule request =>
          simp only [NamingOperation.run, PanelStore.updateModule] at hrun
          split at hrun
          · cases hrun
          · rename_i m hget
            obtain rfl := Except.ok.inj hrun
            rw [uniqueIds_putModule_twice_iff h]
            have hstored : s.tryGetModule request.moduleId = some m :=
              PanelStore.getModule_eq_ok.mp hget
            constructor
            · intro hfree n hn
              rw [hstored] at hn
              rw [← Option.some.inj hn]
              exact hfree
            · intro hfresh
              exact hfresh m hstored

/-! ## Sequences of operations -/

/-- The ids are unique in every store that the operations reach. -/
def UniqueAlong (naming : Naming) : PanelStore → List NamingOperation → Prop
  | s, [] => UniqueIds s
  | s, o :: os => UniqueIds s ∧ UniqueAlong naming (o.apply naming s) os

/-- Every operation that succeeds stores free ids. -/
def FreshAlong (naming : Naming) : PanelStore → List NamingOperation → Prop
  | _, [] => True
  | s, o :: os => (∀ s', o.run naming s = .ok s' → o.Fresh naming s) ∧
      FreshAlong naming (o.apply naming s) os

theorem uniqueIds_empty : UniqueIds .empty :=
  ⟨fun _ hp => absurd hp List.not_mem_nil, fun _ hm => absurd hm List.not_mem_nil,
    fun _ hm => absurd hm List.not_mem_nil⟩

theorem uniqueAlong_head {os : List NamingOperation} (h : UniqueAlong naming s os) :
    UniqueIds s := by
  cases os with
  | nil => exact h
  | cons o os => exact h.1

theorem uniqueAlong_iff (h : UniqueIds s) (os : List NamingOperation) :
    UniqueAlong naming s os ↔ FreshAlong naming s os := by
  induction os generalizing s with
  | nil => exact ⟨fun _ => trivial, fun _ => h⟩
  | cons o os ih =>
      constructor
      · rintro ⟨-, hrest⟩
        have hnext : UniqueIds (o.apply naming s) := uniqueAlong_head hrest
        exact ⟨(unique_apply_iff h o).mp hnext, (ih hnext).mp hrest⟩
      · rintro ⟨hfresh, hrest⟩
        have hnext : UniqueIds (o.apply naming s) := (unique_apply_iff h o).mpr hfresh
        exact ⟨h, (ih hnext).mpr hrest⟩

/-- From the empty store, the ids are unique in every store reached if and only if
every operation that succeeded stored free ids. -/
theorem externalIds_unique_iff (naming : Naming) (os : List NamingOperation) :
    UniqueAlong naming .empty os ↔ FreshAlong naming .empty os :=
  uniqueAlong_iff uniqueIds_empty os

/-! ## Two names of one id -/

/-- Every sequence of operations keeps the ids unique. -/
def ExternalIdsAreUnique : Prop :=
  ∀ naming os, UniqueAlong naming .empty os

open SampleProject (requestNamed projectNamed)

private def dotted : Project :=
  projectNamed "my.app" 1

private def dashed : Project :=
  projectNamed "my-app" 2

private def addBoth : PanelStore :=
  (NamingOperation.addProject (requestNamed "my-app") 0).apply SampleProject.naming
    ((NamingOperation.addProject (requestNamed "my.app") 0).apply SampleProject.naming .empty)

private theorem addBoth_rows : addBoth.projects.rows = [dashed, dotted] := by
  decide

/-- Two projects whose names differ in a dot get the same namespace. -/
theorem externalIds_collide : ¬ ExternalIdsAreUnique := by
  intro h
  have hall := h SampleProject.naming
    [.addProject (requestNamed "my.app") 0, .addProject (requestNamed "my-app") 0]
  have hunique : UniqueIds addBoth := hall.2.2
  have hdotted : dotted ∈ addBoth.projects.rows := by
    rw [addBoth_rows]
    exact List.mem_cons_of_mem _ List.mem_cons_self
  have hdashed : dashed ∈ addBoth.projects.rows := by
    rw [addBoth_rows]
    exact List.mem_cons_self
  have hids : dotted.externalId.id = dashed.externalId.id := by decide +kernel
  have hsame := hunique.projects _ hdotted _ hdashed hids
  have hne : dotted.id ≠ dashed.id := by decide
  exact hne (congrArg Project.id hsame)

end ArtPlatform
