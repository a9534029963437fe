import ArtPlatform.Foundation.Interleaving
import ArtPlatform.ManagementPanel.PanelState
import ArtPlatform.ManagementPanel.ProjectService

/-!
# Project edits and the streams of a project

A project's initialization and its reload work on snapshots: the reload puts the
snapshot that its request has stored, every event puts the project that was sent
to the agent, with what the agent has found, and the ends of the stream put what
they have read.  An edit puts the stored project with new settings.

The panel counts the edits of every project beside the store, and a snapshot
carries the count at which it was taken; no action depends on them.

Main results:

- Theorem `snapshots_of_step`: a snapshot is one that the task held before, or is
  taken from the store.
- Theorem `latest_edit_stored`: the settings of the latest edit stay stored as long
  as no snapshot from before it is put.
- Theorem `edit_overwritten`: otherwise they are lost.
-/

namespace ArtPlatform

open Interleaving
open Function (update)

/-! ## Settings and snapshots -/

/-- What an edit sets. -/
structure ProjectSettings where
  name : String
  openShiftConfiguration : Option ProjectOpenShiftConfiguration
  notificationsConfiguration : Option ProjectNotificationsConfiguration
deriving DecidableEq

def Project.settings (p : Project) : ProjectSettings :=
  ⟨p.name, p.openShiftConfiguration, p.notificationsConfiguration⟩

def ProjectUpdateRequest.settings (request : ProjectUpdateRequest) : ProjectSettings :=
  ⟨request.name, request.openShiftConfiguration, request.notificationsConfiguration⟩

/-- What the agent has found in the repository so far. -/
structure ProjectReport where
  technologies : List String
  versions : List ProjectVersion
  artifacts : List ProjectArtifact

/-- A project in a local variable, with the number of edits it has seen. -/
structure ProjectSnapshot where
  project : Project
  seen : Nat

namespace ProjectSnapshot

def withState (a : ProjectSnapshot) (state : ProjectState) : ProjectSnapshot :=
  { a with project := { a.project with state := state } }

/-- `toBuilder().clearArtifacts().clearVersions().clearTechnologies()`, to be reloaded. -/
def reloadStarted (a : ProjectSnapshot) : ProjectSnapshot :=
  { a with project :=
      { a.project with
        state := .reloadStarted, artifacts := [], versions := [], technologies := [] } }

/-- The project of an event: the one that was sent, with what has been found. -/
def reported (a : ProjectSnapshot) (report : ProjectReport) : ProjectSnapshot :=
  { a with project :=
      { a.project with
        technologies := report.technologies
        versions := report.versions
        artifacts := report.artifacts } }

/-- The snapshots are of one project and of one moment, with the same settings. -/
def SameMoment (a b : ProjectSnapshot) : Prop :=
  a.project.id = b.project.id ∧ a.seen = b.seen ∧ a.project.settings = b.project.settings

theorem sameMoment_refl (a : ProjectSnapshot) : a.SameMoment a :=
  ⟨rfl, rfl, rfl⟩

end ProjectSnapshot

/-! ## Tasks -/

inductive StreamKind
  | initialization
  | reload
deriving DecidableEq

/-- The parameters of `initializeProject` and `reloadProject`. -/
structure ProjectStream where
  kind : StreamKind
  project : ProjectSnapshot

/-- Positions of the asynchronous body and of the stream's handlers.  A position
before a put carries the snapshot that is put. -/
inductive ProjectPosition
  | start
  | read
  | gitResource (receiver : ProjectSnapshot)
  | announcePut (request : ProjectSnapshot)
  | connect (request : ProjectSnapshot)
  | idle (request : ProjectSnapshot)
  | eventRead (request : ProjectSnapshot) (report : ProjectReport)
  | eventPut (request : ProjectSnapshot) (report : ProjectReport)
  | completeRead
  | completePut (stored : ProjectSnapshot)
  | errorRead
  | errorPut (stored : ProjectSnapshot)

inductive ProjectTask
  | addRead (request : ProjectRequest)
  | addPut (request : ProjectRequest) (gitName : String)
  | reloadRead (id : Nat)
  | reloadPut (snapshot : ProjectSnapshot)
  | updateRead (request : ProjectUpdateRequest)
  | updateName (request : ProjectUpdateRequest) (project : Project)
  | updatePut (request : ProjectUpdateRequest) (project : Project)
  | stream (st : ProjectStream) (position : ProjectPosition)

structure ProjectPanel where
  store : PanelStore
  edits : Nat → Nat := fun _ => 0

namespace ProjectPanel

def putProject (s : ProjectPanel) (p : Project) : ProjectPanel :=
  { s with store := s.store.putProject p }

/-- Put an edited project and count the edit. -/
def putEdited (s : ProjectPanel) (p : Project) : ProjectPanel :=
  { store := s.store.putProject p
    edits := update s.edits p.id (s.edits p.id + 1) }

/-- The project as it is taken from the store, or put into it, now. -/
def snapshot (s : ProjectPanel) (p : Project) : ProjectSnapshot :=
  ⟨p, s.edits p.id⟩

end ProjectPanel

/-! ## Actions -/

/-- One action of the body or of the stream.  The body reads its receiver outside of
the part whose exceptions are caught, and the receiver's id is the parameter's. -/
def projectStreamStep (st : ProjectStream) :
    ProjectPosition → Signal ProjectReport → ProjectPanel →
    Option (ProjectPanel × List ProjectTask)
  | .start, .go _, s => some (s, [.stream st .read])
  | .start, .fail _, s => some (s, [])
  | .read, .go _, s =>
      match s.store.getProject st.project.project.id with
      | .error _ => some (s, [])
      | .ok p => some (s, [.stream st (.gitResource (s.snapshot p))])
  | .gitResource receiver, .go _, s =>
      match st.kind with
      | .initialization => some (s, [.stream st (.connect receiver)])
      | .reload => some (s, [.stream st (.announcePut (st.project.withState .reloading))])
  | .gitResource _, .fail _, s => some (s, [.stream st .errorRead])
  | .announcePut request, .go _, s =>
      some (s.putProject request.project, [.stream st (.connect request)])
  | .connect request, .go _, s => some (s, [.stream st (.idle request)])
  | .connect _, .fail _, s => some (s, [.stream st .errorRead])
  | .idle request, .next report, s => some (s, [.stream st (.eventRead request report)])
  | .idle _, .complete, s => some (s, [.stream st .completeRead])
  | .idle _, .error _, s => some (s, [.stream st .errorRead])
  | .eventRead request report, .go _, s =>
      match s.store.tryGetProject request.project.id with
      | none => some (s, [.stream st (.idle request)])
      | some _ => some (s, [.stream st (.eventPut request report)])
  | .eventPut request report, .go _, s =>
      some (s.putProject (request.reported report).project, [.stream st (.idle request)])
  | .completeRead, .go _, s =>
      match s.store.tryGetProject st.project.project.id with
      | none => some (s, [])
      | some p => some (s, [.stream st (.completePut ((s.snapshot p).withState .initialized))])
  | .completePut stored, .go _, s => some (s.putProject stored.project, [])
  | .errorRead, .go _, s =>
      match s.store.tryGetProject st.project.project.id with
      | none => some (s, [])
      | some p =>
          some (s, [.stream st (.errorPut ((s.snapshot p).withState .initializationFailed))])
  | .errorPut stored, .go _, s => some (s.putProject stored.project, [])
  | _, _, _ => none

/-- One atomic action of a project's requests and streams. -/
def ProjectTask.step (naming : Naming) : Actions ProjectPanel ProjectTask (Signal ProjectReport)
  | .addRead request, .go _, s =>
      match s.store.getProjectByName request.name with
      | some _ => some (s, [])
      | none =>
          match naming.gitResourceName request.gitResourceId with
          | .error _ => some (s, [])
          | .ok gitName => some (s, [.addPut request gitName])
  | .addPut request gitName, .go now, s =>
      let p := createProject naming request gitName s.store.projects.freshKey now
      some (s.putProject p, [.stream ⟨.initialization, s.snapshot p⟩ .start])
  | .reloadRead id, .go _, s =>
      match s.store.getProject id with
      | .error _ => some (s, [])
      | .ok p => some (s, [.reloadPut (s.snapshot p).reloadStarted])
  | .reloadPut a, .go _, s =>
      some (s.putProject a.project, [.stream ⟨.reload, a⟩ .start])
  | .updateRead request, .go _, s =>
      match s.store.getProject request.id with
      | .error _ => some (s, [])
      | .ok p =>
          if request.name ≠ p.name then some (s, [.updateName request p])
          else some (s, [.updatePut request p])
  | .updateName request p, .go _, s =>
      match s.store.getProjectByName request.name with
      | some _ => some (s, [])
      | none => some (s, [.updatePut request p])
  | .updatePut request p, .go _, s => some (s.putEdited (editedProject p request), [])
  | .stream st position, x, s => projectStreamStep st position x s
  | _, _, _ => none

/-! ## Snapshots of a task -/

/-- The snapshots in the local variables of a position. -/
def ProjectPosition.snapshots : ProjectPosition → List ProjectSnapshot
  | .gitResource a | .announcePut a | .connect a | .idle a | .eventRead a _ | .eventPut a _
  | .completePut a | .errorPut a => [a]
  | _ => []

def ProjectTask.snapshots : ProjectTask → List ProjectSnapshot
  | .reloadPut a => [a]
  | .stream st position => st.project :: position.snapshots
  | _ => []

/-- The snapshot that the next action of a task puts, unless it is an edit's. -/
def ProjectTask.written : ProjectTask → Option ProjectSnapshot
  | .reloadPut a => some a
  | .stream _ (.announcePut a) => some a
  | .stream _ (.eventPut a report) => some (a.reported report)
  | .stream _ (.completePut a) => some a
  | .stream _ (.errorPut a) => some a
  | _ => none

variable {naming : Naming} {t : ProjectTask} {x : Signal ProjectReport}
  {s s' : ProjectPanel} {ts : List ProjectTask} {st : ProjectStream} {id : Nat}

/-- What is put is a snapshot of the task, up to what an event reports. -/
theorem written_sameMoment {b : ProjectSnapshot} (h : b ∈ t.written) :
    ∃ a ∈ t.snapshots, a.SameMoment b := by
  revert h
  fun_cases ProjectTask.written t <;> intro h
  case case6 => cases h
  all_goals
    rw [← Option.some.inj h]
    simp [ProjectTask.snapshots, ProjectPosition.snapshots, ProjectSnapshot.sameMoment_refl]
  -- An event changes none of the settings.
  exact .inr ⟨rfl, rfl, rfl⟩

/-- The snapshot is one of the task's, or the project is in the store now, or its key
is free. -/
def TakenFrom (s : ProjectPanel) (t : ProjectTask) (b : ProjectSnapshot) : Prop :=
  (∃ a ∈ t.snapshots, a.SameMoment b) ∨
    (∃ p, s.store.tryGetProject b.project.id = some p ∧ (s.snapshot p).SameMoment b) ∨
    s.store.tryGetProject b.project.id = none ∧ b.seen = s.edits b.project.id

theorem takenFrom_getProject {p : Project} {b : ProjectSnapshot}
    (h : s.store.tryGetProject id = some p) (hsame : (s.snapshot p).SameMoment b) :
    TakenFrom s t b := by
  refine .inr (.inl ⟨p, ?_, hsame⟩)
  have hid : p.id = id := Space.key_of_get h
  rw [← hsame.1]
  show s.store.tryGetProject p.id = some p
  rw [hid, h]

/-- A stream takes its snapshots from its own or from the store. -/
theorem snapshots_of_projectStreamStep {q : ProjectPosition}
    (h : projectStreamStep st q x s = some (s', ts)) :
    ∀ u ∈ ts, ∀ b ∈ u.snapshots, TakenFrom s (.stream st q) b := by
  have hown : ∀ a ∈ (ProjectTask.stream st q).snapshots, TakenFrom s (.stream st q) a :=
    fun a ha => .inl ⟨a, ha, a.sameMoment_refl⟩
  revert h hown
  fun_cases projectStreamStep st q x s <;> intro h hown <;>
    simp only [Option.some.injEq, Prod.mk.injEq, reduceCtorEq] at h <;>
    rcases h with ⟨rfl, rfl⟩ <;> intro u hu b hb
  all_goals first
    | (cases hu; done)
    | rw [List.mem_singleton.mp hu] at hb
  all_goals
    rcases List.mem_cons.mp hb with rfl | hb
    · exact hown _ List.mem_cons_self
  all_goals first
    | (cases hb; done)
    | rw [List.mem_singleton.mp hb]
  -- The receiver, and the projects that the ends of the stream put, are read now.
  case case4 p hget _ =>
      exact takenFrom_getProject (PanelStore.getProject_eq_ok.mp hget)
        (ProjectSnapshot.sameMoment_refl _)
  case case18 p hget _ => exact takenFrom_getProject hget ⟨rfl, rfl, rfl⟩
  case case21 p hget _ => exact takenFrom_getProject hget ⟨rfl, rfl, rfl⟩
  case case6 => exact .inl ⟨st.project, List.mem_cons_self, rfl, rfl, rfl⟩
  all_goals exact hown _ (List.mem_cons_of_mem _ List.mem_cons_self)

/-- A snapshot of a task is one that it held before, or is taken from the store. -/
theorem snapshots_of_step (h : t.step naming x s = some (s', ts)) :
    ∀ u ∈ ts, ∀ b ∈ u.snapshots, TakenFrom s t b := by
  revert h
  fun_cases ProjectTask.step naming t x s <;> intro h
  case case14 => exact snapshots_of_projectStreamStep h
  all_goals
    simp only [Option.some.injEq, Prod.mk.injEq, reduceCtorEq] at h
  all_goals
    rcases h with ⟨rfl, rfl⟩
    intro u hu b hb
  all_goals first
    | (cases hu; done)
    | rw [List.mem_singleton.mp hu] at hb
  all_goals first
    | (cases hb; done)
    | rw [List.mem_singleton.mp hb]
  -- A new project, a project read to be reloaded, and one that has been put to be.
  · exact .inr (.inr ⟨s.store.projects.get_freshKey, rfl⟩)
  · rename_i hget
    exact takenFrom_getProject (PanelStore.getProject_eq_ok.mp hget) ⟨rfl, rfl, rfl⟩
  · exact .inl ⟨_, List.mem_cons_self, rfl, rfl, rfl⟩

/-! ## What a step puts -/

theorem panel_of_projectStreamStep {q : ProjectPosition}
    (h : projectStreamStep st q x s = some (s', ts)) :
    s' = s ∨ ∃ a ∈ (ProjectTask.stream st q).written, s' = s.putProject a.project := by
  revert h
  fun_cases projectStreamStep st q x s <;> intro h <;>
    simp only [Option.some.injEq, Prod.mk.injEq, reduceCtorEq] at h <;>
    rcases h with ⟨rfl, rfl⟩
  all_goals first
    | exact .inl rfl
    | exact .inr ⟨_, rfl, rfl⟩

/-- A step puts the snapshot that its task was about to put, a new project, or an
edit. -/
theorem panel_of_step (h : t.step naming x s = some (s', ts)) :
    s' = s ∨ (∃ a ∈ t.written, s' = s.putProject a.project) ∨
      (∃ p, s.store.tryGetProject p.id = none ∧ s' = s.putProject p) ∨
      ∃ request p, t = .updatePut request p ∧ s' = s.putEdited (editedProject p request) := by
  revert h
  fun_cases ProjectTask.step naming t x s <;> intro h
  case case14 =>
      rcases panel_of_projectStreamStep h with hsame | hput
      · exact .inl hsame
      · exact .inr (.inl hput)
  all_goals
    simp only [Option.some.injEq, Prod.mk.injEq, reduceCtorEq] at h
  all_goals
    rcases h with ⟨rfl, rfl⟩
  case case4 =>
      refine .inr (.inr (.inl ⟨_, ?_, rfl⟩))
      exact s.store.projects.get_freshKey
  case case7 => exact .inr (.inl ⟨_, rfl, rfl⟩)
  case case13 => exact .inr (.inr (.inr ⟨_, _, rfl, rfl⟩))
  all_goals exact .inl rfl

theorem edits_putEdited (s : ProjectPanel) (p : Project) (id : Nat) :
    (s.putEdited p).edits id = if id = p.id then s.edits p.id + 1 else s.edits id :=
  Function.update_apply s.edits p.id (s.edits p.id + 1) id

theorem edits_le_of_step (h : t.step naming x s = some (s', ts)) (id : Nat) :
    s.edits id ≤ s'.edits id := by
  rcases panel_of_step h with rfl | ⟨a, -, rfl⟩ | ⟨p, -, rfl⟩ | ⟨request, p, -, rfl⟩
  · exact Nat.le_refl _
  · exact Nat.le_refl _
  · exact Nat.le_refl _
  · rw [edits_putEdited]
    by_cases hid : id = (editedProject p request).id
    · rw [if_pos hid, hid]
      omega
    · exact Nat.le_of_eq (if_neg hid).symm

/-! ## No snapshot has seen an edit to come -/

abbrev ProjectConfig := Config ProjectPanel ProjectTask

/-- What the panel's users may call. -/
def ProjectTask.isRequest : ProjectTask → Bool
  | .addRead _ | .reloadRead _ | .updateRead _ => true
  | _ => false

/-- Only requests are called. -/
def projectRequestsOnly : Label ProjectTask (Signal ProjectReport) → Bool
  | .call t => t.isRequest
  | .act _ _ => true

theorem snapshots_of_isRequest (h : t.isRequest = true) : t.snapshots = [] := by
  cases t <;> first | rfl | cases h

variable {c c' d : ProjectConfig} {l : Label ProjectTask (Signal ProjectReport)}
  {ls ls' : List (Label ProjectTask (Signal ProjectReport))} {settings : ProjectSettings}

/-- The snapshots have seen stored edits only. -/
def SeenStored (s : ProjectPanel) (t : ProjectTask) : Prop :=
  ∀ a ∈ t.snapshots, a.seen ≤ s.edits a.project.id

theorem seen_le_of_takenFrom {b : ProjectSnapshot} (ht : SeenStored s t)
    (h : TakenFrom s t b) : b.seen ≤ s.edits b.project.id := by
  rcases h with ⟨a, ha, hid, hseen, -⟩ | ⟨p, -, hid, hseen, -⟩ | ⟨-, hseen⟩
  · rw [← hid, ← hseen]
    exact ht a ha
  · rw [← hid, ← hseen]
    exact Nat.le_refl _
  · exact Nat.le_of_eq hseen

theorem seenStored_step (h : ∀ t ∈ c.tasks, SeenStored c.shared t)
    (hok : projectRequestsOnly l = true) (hstep : Step (ProjectTask.step naming) c l c') :
    ∀ t ∈ c'.tasks, SeenStored c'.shared t := by
  cases l with
  | call t =>
      cases hstep
      intro u hu
      rcases List.mem_cons.mp hu with rfl | hu
      · intro a ha
        rw [snapshots_of_isRequest hok] at ha
        cases ha
      · exact h u hu
  | act t x =>
      obtain ⟨ts₀, -, -, hact₀, -⟩ := hstep.act_inv
      refine hstep.forall_tasks h ?_ ?_
      · intro ts hact u hu b hb
        have hbefore := seen_le_of_takenFrom (h t hstep.mem_tasks)
          (snapshots_of_step hact u hu b hb)
        exact Nat.le_trans hbefore (edits_le_of_step hact _)
      · intro u _ hseen a ha
        exact Nat.le_trans (hseen a ha) (edits_le_of_step hact₀ _)

/-! ## The latest edit stays -/

/-- The stored project has the settings. -/
def ProjectPanel.StoresSettings (s : ProjectPanel) (id : Nat) (settings : ProjectSettings) :
    Prop :=
  ∃ p, s.store.tryGetProject id = some p ∧ p.settings = settings

/-- A snapshot from after the latest edit of the project has its settings. -/
def SnapshotsAgree (id : Nat) (settings : ProjectSettings) (s : ProjectPanel)
    (t : ProjectTask) : Prop :=
  ∀ a ∈ t.snapshots, a.project.id = id → a.seen = s.edits id → a.project.settings = settings

structure KeepsSettings (id : Nat) (settings : ProjectSettings) (c : ProjectConfig) : Prop where
  stored : c.shared.StoresSettings id settings
  agree : ∀ t ∈ c.tasks, SnapshotsAgree id settings c.shared t

/-- No snapshot of the project that the step puts is from before the latest edit, and
the step is no edit of the project itself. -/
def putsSeen (id : Nat) (c : ProjectConfig) : Label ProjectTask (Signal ProjectReport) → Bool
  | .call t => t.isRequest
  | .act (.updatePut _ p) _ => p.id ≠ id
  | .act t _ => t.written.all fun a => a.project.id ≠ id || a.seen = c.shared.edits id

theorem agree_of_takenFrom {b : ProjectSnapshot} (hstored : s.StoresSettings id settings)
    (ht : SnapshotsAgree id settings s t) (h : TakenFrom s t b) (hid : b.project.id = id)
    (hseen : b.seen = s.edits id) : b.project.settings = settings := by
  rcases h with ⟨a, ha, haid, haseen, hsame⟩ | ⟨p, hget, -, -, hsame⟩ | ⟨hnone, -⟩
  · rw [← hsame]
    exact ht a ha (haid.trans hid) (haseen.trans hseen)
  · obtain ⟨p', hget', hsettings⟩ := hstored
    rw [hid, hget'] at hget
    rw [← hsame, ← hsettings, Option.some.inj hget]
    rfl
  · obtain ⟨p', hget', -⟩ := hstored
    rw [hid, hget'] at hnone
    cases hnone

theorem storesSettings_putProject {p : Project} (h : s.StoresSettings id settings)
    (hp : p.id = id → p.settings = settings) : (s.putProject p).StoresSettings id settings := by
  by_cases hid : p.id = id
  · refine ⟨p, ?_, hp hid⟩
    rw [← hid]
    exact s.store.projects.get_put_self p
  · obtain ⟨q, hget, hsettings⟩ := h
    refine ⟨q, ?_, hsettings⟩
    exact (s.store.projects.get_put_of_ne p fun heq => hid heq.symm).trans hget

/-- What the condition says of the put of a snapshot. -/
theorem seen_of_putsSeen {a : ProjectSnapshot} (hok : putsSeen id c (.act t x) = true)
    (ha : a ∈ t.written) (hid : a.project.id = id) : a.seen = c.shared.edits id := by
  have hall : (t.written.all fun a => a.project.id ≠ id || a.seen = c.shared.edits id) = true := by
    cases t with
    | updatePut request p => cases ha
    | _ => exact hok
  rw [Option.mem_def.mp ha] at hall
  simpa [hid] using hall

/-- What one action may put keeps the settings stored, and edits another project if
any. -/
theorem storesSettings_of_step (h : t.step naming x c.shared = some (s', ts))
    (hkeeps : KeepsSettings id settings c) (ht : t ∈ c.tasks)
    (hok : putsSeen id c (.act t x) = true) :
    s'.StoresSettings id settings ∧ s'.edits id = c.shared.edits id := by
  rcases panel_of_step h with rfl | ⟨b, hb, rfl⟩ | ⟨p, hnone, rfl⟩ | ⟨request, p, rfl, rfl⟩
  · exact ⟨hkeeps.stored, rfl⟩
  · refine ⟨storesSettings_putProject hkeeps.stored ?_, rfl⟩
    intro hid
    obtain ⟨a, ha, haid, haseen, hsame⟩ := written_sameMoment hb
    have hseen := seen_of_putsSeen hok hb hid
    rw [← hsame]
    exact hkeeps.agree t ht a ha (haid.trans hid) (haseen.trans hseen)
  · refine ⟨storesSettings_putProject hkeeps.stored ?_, rfl⟩
    intro hid
    obtain ⟨q, hget, -⟩ := hkeeps.stored
    rw [hid, hget] at hnone
    cases hnone
  · have hid : p.id ≠ id := by simpa [putsSeen] using hok
    refine ⟨storesSettings_putProject hkeeps.stored fun heq => absurd heq hid, ?_⟩
    rw [edits_putEdited]
    exact if_neg fun heq => hid heq.symm

theorem KeepsSettings.step (h : KeepsSettings id settings c) (hok : putsSeen id c l = true)
    (hstep : Step (ProjectTask.step naming) c l c') : KeepsSettings id settings c' := by
  cases l with
  | call t =>
      cases hstep
      refine ⟨h.stored, ?_⟩
      intro u hu
      rcases List.mem_cons.mp hu with rfl | hu
      · intro a ha
        rw [snapshots_of_isRequest hok] at ha
        cases ha
      · exact h.agree u hu
  | act t x =>
      have ht := hstep.mem_tasks
      obtain ⟨ts₀, -, -, hact₀, -⟩ := hstep.act_inv
      obtain ⟨hstored, hedits⟩ := storesSettings_of_step hact₀ h ht hok
      refine ⟨hstored, hstep.forall_tasks h.agree ?_ ?_⟩
      · intro ts hact u hu b hb hid hseen
        rw [hedits] at hseen
        exact agree_of_takenFrom h.stored (h.agree t ht) (snapshots_of_step hact u hu b hb)
          hid hseen
      · intro u _ hagree a ha hid hseen
        rw [hedits] at hseen
        exact hagree a ha hid hseen

/-- The edit's put: from then on no snapshot of the pool is from after the latest edit. -/
theorem keepsSettings_of_edit {request : ProjectUpdateRequest} {p : Project}
    (hseen : ∀ t ∈ c.tasks, SeenStored c.shared t)
    (hstep : Step (ProjectTask.step naming) c (.act (.updatePut request p) x) c') :
    KeepsSettings p.id request.settings c' := by
  obtain ⟨ts, others, hpool, hact, htasks⟩ := hstep.act_inv
  cases x with
  | go now =>
      obtain ⟨hshared, rfl⟩ := Prod.mk.inj (Option.some.inj hact)
      constructor
      · rw [← hshared]
        refine ⟨editedProject p request, ?_, rfl⟩
        exact c.shared.store.projects.get_put_self (editedProject p request)
      · intro t ht a ha hid hnow
        rw [htasks] at ht
        have hmem : t ∈ c.tasks := hpool.mem_iff.mpr (List.mem_cons_of_mem _ ht)
        have hbefore := hseen t hmem a ha
        rw [← hshared, edits_putEdited, if_pos (by rfl)] at hnow
        rw [hid] at hbefore
        have hsucc : a.seen = c.shared.edits p.id + 1 := hnow
        omega
  | _ => cases hact

/-- The settings of the latest edit stay stored, in every interleaving of the requests
and the streams in which no snapshot from before the edit is put after it. -/
theorem latest_edit_stored {store : PanelStore} {request : ProjectUpdateRequest}
    {p : Project}
    (hbefore : Run (ProjectTask.step naming) (fun _ k => projectRequestsOnly k = true)
      ⟨{ store := store }, []⟩ ls c)
    (hedit : Step (ProjectTask.step naming) c (.act (.updatePut request p) x) c')
    (hafter : Run (ProjectTask.step naming) (fun e k => putsSeen p.id e k = true) c' ls' d) :
    d.shared.StoresSettings p.id request.settings := by
  have hseen : ∀ t ∈ c.tasks, SeenStored c.shared t := by
    refine hbefore.invariant (I := fun e => ∀ t ∈ e.tasks, SeenStored e.shared t) ?_ ?_
    · exact fun t ht => absurd ht List.not_mem_nil
    · exact fun _ _ _ h hok hstep => seenStored_step h hok hstep
  have hkeeps : KeepsSettings p.id request.settings d :=
    hafter.invariant (keepsSettings_of_edit hseen hedit)
      fun _ _ _ h hok hstep => h.step hok hstep
  exact hkeeps.stored

/-! ## An edit during a reload -/

open SampleProject (projectNamed)

private def shop : Project :=
  projectNamed "shop" 1

private def shopConfig : ProjectConfig :=
  ⟨{ store := PanelStore.empty.putProject shop }, []⟩

private def newName : ProjectUpdateRequest where
  id := 1
  name := "store"
  openShiftConfiguration := none
  notificationsConfiguration := none

/-- Reload the project up to its stream, then rename it up to the put. -/
private def renamingMoves : List (Move ProjectTask (Signal ProjectReport)) :=
  .call (.reloadRead 1) :: List.replicate 7 (.act 0 (.go 0)) ++
    .call (.updateRead newName) :: List.replicate 2 (.act 0 (.go 0))

private def nothingFound : ProjectReport :=
  ⟨[], [], []⟩

/-- The stream completes after the edit, or after one more event. -/
private def completion : List (Move ProjectTask (Signal ProjectReport)) :=
  [.act 0 .complete, .act 0 (.go 0), .act 0 (.go 0)]

private def lastEventMoves : List (Move ProjectTask (Signal ProjectReport)) :=
  [.act 0 (.next nothingFound), .act 0 (.go 0), .act 0 (.go 0)] ++ completion

private def isEdit : Label ProjectTask (Signal ProjectReport) → Bool
  | .act (.updatePut request p) _ => request.settings = newName.settings && p.id = 1
  | _ => false

private theorem isEdit_inv {l : Label ProjectTask (Signal ProjectReport)}
    (h : isEdit l = true) :
    ∃ request p x, l = .act (.updatePut request p) x ∧
      request.settings = newName.settings ∧ p.id = 1 := by
  revert h
  fun_cases isEdit l <;> intro h
  · rename_i request p x
    simp only [Bool.and_eq_true, decide_eq_true_eq] at h
    exact ⟨request, p, x, rfl, h⟩
  · cases h

/-- The next step is the edit, and after it the schedule goes through. -/
private def editThen (ok : ProjectConfig → Label ProjectTask (Signal ProjectReport) → Bool)
    (ms : List (Move ProjectTask (Signal ProjectReport))) (p : ProjectConfig → Bool)
    (l : Label ProjectTask (Signal ProjectReport)) (c : ProjectConfig) : Bool :=
  isEdit l && (c.exec (ProjectTask.step SampleProject.naming) ok ms).any fun e => p e.2

/-- Run the sample up to the edit, and after the edit with the rest of a schedule. -/
private theorem exists_edit
    (ok : ProjectConfig → Label ProjectTask (Signal ProjectReport) → Bool)
    (ms : List (Move ProjectTask (Signal ProjectReport))) (q : ProjectConfig → Bool)
    (h : ((shopConfig.exec (ProjectTask.step SampleProject.naming)
      (fun _ => projectRequestsOnly) renamingMoves).any fun e =>
        (e.2.move (ProjectTask.step SampleProject.naming) (.act 0 (.go 0))).any fun m =>
          editThen ok ms q m.1 m.2) = true) :
    ∃ ls c request p x c' ls' d,
      Run (ProjectTask.step SampleProject.naming) (fun _ k => projectRequestsOnly k = true)
        shopConfig ls c ∧
      Step (ProjectTask.step SampleProject.naming) c (.act (.updatePut request p) x) c' ∧
      Run (ProjectTask.step SampleProject.naming) (fun e k => ok e k = true) c' ls' d ∧
      request.settings = newName.settings ∧ p.id = 1 ∧ q d = true := by
  obtain ⟨ls, c, hrun, hc⟩ := exists_run_of_exec _ _ _ _ (fun _ e =>
    (e.move (ProjectTask.step SampleProject.naming) (.act 0 (.go 0))).any fun m =>
      editThen ok ms q m.1 m.2) h
  obtain ⟨l, c', hstep, hl⟩ := exists_step_of_move _ (editThen ok ms q) hc
  obtain ⟨hedit, hrest⟩ := Bool.and_eq_true_iff.mp hl
  obtain ⟨request, p, x, rfl, hsettings, hid⟩ := isEdit_inv hedit
  obtain ⟨ls', d, hafter, hd⟩ := exists_run_of_exec _ ok c' ms (fun _ => q) hrest
  exact ⟨ls, c, request, p, x, c', ls', d, hrun, hstep, hafter, hsettings, hid, hd⟩

/-- An edit between the last event and the completion stays. -/
theorem latest_edit_stored_before_completion :
    ∃ d : ProjectConfig, d.tasks = [] ∧ d.shared.StoresSettings 1 newName.settings := by
  obtain ⟨ls, c, request, p, x, c', ls', d, hbefore, hedit, hafter, hsettings, hid, hd⟩ :=
    exists_edit (putsSeen 1) completion (fun d => d.tasks.isEmpty) (by decide)
  have hstored := latest_edit_stored hbefore hedit (hid ▸ hafter)
  rw [hid, hsettings] at hstored
  exact ⟨d, List.isEmpty_iff.mp hd, hstored⟩

/-- No step is an edit of the project. -/
def withoutEdit (id : Nat) : Label ProjectTask (Signal ProjectReport) → Bool
  | .call t => t.isRequest
  | .act (.updatePut _ p) _ => p.id ≠ id
  | .act _ _ => true

/-- The task works for a stream of the project. -/
def ProjectTask.streams (id : Nat) : ProjectTask → Bool
  | .stream st _ => st.project.project.id = id
  | .reloadPut a => a.project.id = id
  | _ => false

/-- When the streams of a project have ended, the settings of the latest edit are
stored. -/
def EditsAreKept (naming : Naming) : Prop :=
  ∀ store ls c request p x c' ls' d,
    Run (ProjectTask.step naming) (fun _ k => projectRequestsOnly k = true)
      ⟨{ store := store }, []⟩ ls c →
    Step (ProjectTask.step naming) c (.act (.updatePut request p) x) c' →
    Run (ProjectTask.step naming) (fun _ k => withoutEdit p.id k = true) c' ls' d →
    (∀ t ∈ d.tasks, t.streams p.id = false) →
    d.shared.StoresSettings p.id request.settings

private def storesOldName (c : ProjectConfig) : Bool :=
  c.tasks.isEmpty && (c.shared.store.tryGetProject 1).any fun p => p.name == "shop"

/-- An event after the edit puts the project that was sent to the agent before it. -/
theorem edit_overwritten : ¬ ∀ naming, EditsAreKept naming := by
  intro h
  obtain ⟨ls, c, request, p, x, c', ls', d, hbefore, hedit, hafter, hnew, hid, hd⟩ :=
    exists_edit (fun _ => withoutEdit 1) lastEventMoves storesOldName (by decide)
  obtain ⟨hempty, hold⟩ := Bool.and_eq_true_iff.mp hd
  have hended : ∀ t ∈ d.tasks, t.streams p.id = false := by
    rw [List.isEmpty_iff.mp hempty]
    exact fun t ht => absurd ht List.not_mem_nil
  obtain ⟨q, hget, hsettings⟩ :=
    h SampleProject.naming _ ls c request p x c' ls' d hbefore hedit (hid ▸ hafter) hended
  rw [hid] at hget
  rw [hget, Option.any_some, beq_iff_eq] at hold
  have hname : q.name = "store" := congrArg ProjectSettings.name (hsettings.trans hnew)
  rw [hold] at hname
  exact absurd hname (by decide)

end ArtPlatform
