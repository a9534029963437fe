import ArtPlatform.Web.ModuleFiles

/-!
# Installing modules

`install` starts the installation of every configuration of a dialog; each goes its own way
while the server answers.  The identifiers of a configuration are kept in the order in which
they arrive, and its contents are uploaded to them in the order of the configuration.

Main results:

- Theorem `installsOwnFiles_iff`: each file is uploaded to its own identifier exactly if the
  contents in the order of the allocated names are those in the configured order.
- Theorem `install_own_files_iff`: the same for all configurations of one `install`.
- Theorem `files_exchanged`: two files whose identifiers arrive the other way round.
-/

namespace ArtPlatform.Web

open EventRun

variable {C M : Type}

/-- An empty name is no name. -/
def createModuleName (configuration : ModuleConfigurationDraft C) : String :=
  let artifactName := configuration.artifact.name ++ "-" ++ configuration.artifact.version
  match configuration.name with
  | none => artifactName
  | some name => if name = "" then artifactName else name

/-- The installation of one configuration: contents and identifiers are paired by their
positions. -/
def installationFlow (projectId : Nat) (configuration : ModuleConfigurationDraft C) :
    ModuleFilesFlow (ModuleInstallationRequest C) where
  additionalFiles := []
  newFiles := configuration.files.map ModuleFile.name
  allAllocated := fun additionalFiles _ => additionalFiles.length = configuration.files.length
  request := fun additionalFiles =>
    { projectId := projectId
      name := some (createModuleName configuration)
      configuration := configuration.withFiles additionalFiles }
  calls := fun additionalFiles =>
    configuration.files.zipIdx.map fun (file, index) => .upload additionalFiles[index]? file.bytes
  expectedFilesCount := fun _ => configuration.files.length
  allAllocated_iff := fun ids => by simp
  calls_le := fun ids => by simp

/-- A module operation with its own callbacks. -/
structure ModuleOperation (R M : Type) where
  flow : ModuleFilesFlow R
  run : ModuleFilesRun R M

def ModuleOperation.step {R : Type} (operation : ModuleOperation R M)
    (event : ModuleFilesEvent M) : Option (ModuleOperation R M) :=
  (operation.flow.step operation.run event).map fun run => { operation with run := run }

/-- The installations that `install` starts, side by side. -/
def install (projectId : Nat) (configurations : List (ModuleConfigurationDraft C)) :
    List (ModuleOperation (ModuleInstallationRequest C) M) :=
  configurations.map fun configuration =>
    { flow := installationFlow projectId configuration
      run := (installationFlow projectId configuration).begin }

/-- Each file is uploaded to the identifier that was allocated for its name, and the module
is processed once, when all uploads have completed. -/
structure InstallsOwnFiles (configuration : ModuleConfigurationDraft C)
    (signals : List (ModuleFilesSignal (ModuleInstallationRequest C) M)) : Prop where
  uploads : (callsMade signals).Perm (configuration.files.map fun file =>
    .upload (allocatedFor signals file.name) file.bytes)
  processed : ProcessedOnce signals

/-- The contents of the files, in the order in which their identifiers arrive, are the
contents in the order of the configuration. -/
def ContentsInOrder (configuration : ModuleConfigurationDraft C)
    (events : List (ModuleFilesEvent M)) : Prop :=
  (allocatedIds events).map (fun id => bytesOf configuration.files id.name) =
    configuration.files.map fun file => some file.bytes

/-! ## Contents and identifiers -/

section

variable {files : List ModuleFile} {ids : List PlatformFileIdentifier}

/-- Contents and identifiers, paired by their positions. -/
def uploadsByPosition (ids : List PlatformFileIdentifier) (files : List ModuleFile) :
    List ModuleFileCall :=
  files.zipIdx.map fun (file, index) => .upload ids[index]? file.bytes

/-- Contents and identifiers, paired by their names. -/
def uploadsByName (ids : List PlatformFileIdentifier) (files : List ModuleFile) :
    List ModuleFileCall :=
  files.map fun file => .upload (ids.find? fun id => id.name = file.name) file.bytes

theorem uploadsByPosition_fill : ∀ call ∈ uploadsByPosition ids files, call.fails = false := by
  intro call hcall
  obtain ⟨⟨file, index⟩, -, rfl⟩ := List.mem_map.mp hcall
  rfl

theorem getElem?_uploadsByPosition (index : Nat) :
    (uploadsByPosition ids files)[index]? =
      files[index]?.map fun file => .upload ids[index]? file.bytes := by
  simp [uploadsByPosition, List.getElem?_map, List.getElem?_zipIdx, Function.comp_def]

/-- Both pairings upload the same exactly if the contents by the names of the identifiers are
the contents in order. -/
theorem uploadsByPosition_perm_iff (hfiles : (files.map ModuleFile.name).Nodup)
    (hids : (ids.map PlatformFileIdentifier.name).Perm (files.map ModuleFile.name)) :
    (uploadsByPosition ids files).Perm (uploadsByName ids files) ↔
      ids.map (fun id => bytesOf files id.name) = files.map fun file => some file.bytes := by
  have hlength : ids.length = files.length := by
    simpa using hids.length_eq
  have hnodup : (ids.map PlatformFileIdentifier.name).Nodup := hids.nodup_iff.mpr hfiles
  constructor
  · intro hperm
    refine List.ext_getElem (by simpa using hlength) fun index hid hfile => ?_
    rw [List.length_map] at hid hfile
    -- the upload at the position is one by name
    have hmem : ModuleFileCall.upload (some ids[index]) files[index].bytes ∈
        uploadsByName ids files := by
      refine hperm.subset (List.mem_of_getElem? (i := index) ?_)
      rw [getElem?_uploadsByPosition, List.getElem?_eq_getElem hfile, List.getElem?_eq_getElem hid]
      rfl
    obtain ⟨file, hmemFile, hupload⟩ := List.mem_map.mp hmem
    simp only [ModuleFileCall.upload.injEq] at hupload
    obtain ⟨hfind, hbytes⟩ := hupload
    have hname : ids[index].name = file.name := by simpa using List.find?_some hfind
    rw [List.getElem_map, List.getElem_map, hname, bytesOf_of_nodup hfiles hmemFile, hbytes]
  · intro horder
    have hposition : uploadsByPosition ids files =
        (ids.map PlatformFileIdentifier.name).map fun name =>
          .upload (ids.find? fun id => id.name = name) ((bytesOf files name).getD []) := by
      refine List.ext_getElem? fun index => ?_
      rw [getElem?_uploadsByPosition, List.map_map, List.getElem?_map]
      by_cases hlt : index < ids.length
      · have hfile : index < files.length := hlength ▸ hlt
        have hbytes := congrArg (·[index]?) horder
        simp only [List.getElem?_map, List.getElem?_eq_getElem hlt,
          List.getElem?_eq_getElem hfile, Option.map_some, Option.some.injEq] at hbytes
        rw [List.getElem?_eq_getElem hfile, List.getElem?_eq_getElem hlt]
        simp [hbytes, find?_of_nodup hnodup (List.getElem_mem hlt)]
      · have hfile : ¬ index < files.length := hlength ▸ hlt
        rw [List.getElem?_eq_none (Nat.not_lt.mp hlt), List.getElem?_eq_none (Nat.not_lt.mp hfile)]
        rfl
    have hname : uploadsByName ids files =
        (files.map ModuleFile.name).map fun name =>
          .upload (ids.find? fun id => id.name = name) ((bytesOf files name).getD []) := by
      rw [uploadsByName, List.map_map]
      refine List.map_congr_left fun file hfile => ?_
      simp [bytesOf_of_nodup hfiles hfile]
    rw [hposition, hname]
    exact hids.map _

end

/-! ## One configuration -/

/-- When every request is answered, a configuration with distinct file names has been installed
with its own files exactly if its contents were in the order of the identifiers. -/
theorem installsOwnFiles_iff {projectId : Nat} {configuration : ModuleConfigurationDraft C}
    (hfiles : (configuration.files.map ModuleFile.name).Nodup)
    {events : List (ModuleFilesEvent M)}
    {s : ModuleFilesRun (ModuleInstallationRequest C) M}
    (hrun : run (installationFlow projectId configuration).step
      (installationFlow projectId configuration).begin events = some s) (hanswered : s.Answered) :
    InstallsOwnFiles configuration s.signals ↔ ContentsInOrder configuration events := by
  obtain ⟨hids, module, answers, hanswers, hsignals⟩ :=
    ModuleFilesFlow.signals_of_answered hrun hanswered
  have hcalls : (installationFlow projectId configuration).callsFor (allocatedIds events) =
      uploadsByPosition (allocatedIds events) configuration.files := rfl
  have hfilled : filledCount answers =
      (installationFlow projectId configuration).expectedFor (allocatedIds events) := by
    rw [hcalls] at hanswers
    rw [filledCount_of_perm hanswers uploadsByPosition_fill, uploadsByPosition, List.length_map,
      List.length_zipIdx]
    rfl
  have hnamed : (configuration.files.map fun file =>
      ModuleFileCall.upload (allocatedFor s.signals file.name) file.bytes) =
        uploadsByName (allocatedIds events) configuration.files := by
    rw [hsignals]
    simp only [allocatedFor, ModuleFilesFlow.idsAllocated_callingSignals]
    rfl
  rw [ContentsInOrder, ← uploadsByPosition_perm_iff hfiles hids]
  constructor
  · intro h
    have huploads := h.uploads
    rwa [hnamed, hsignals, ModuleFilesFlow.callsMade_callingSignals, hcalls] at huploads
  · intro hperm
    refine ⟨?_, ?_⟩
    · rwa [hnamed, hsignals, ModuleFilesFlow.callsMade_callingSignals, hcalls]
    · rw [hsignals]
      exact (ModuleFilesFlow.processedOnce_iff hanswers).mpr hfilled

/-! ## All configurations -/

theorem ModuleOperation.run_inv {R : Type} {operation operation' : ModuleOperation R M}
    {events : List (ModuleFilesEvent M)}
    (h : EventRun.run ModuleOperation.step operation events = some operation') :
    operation'.flow = operation.flow ∧
      EventRun.run operation.flow.step operation.run events = some operation'.run := by
  induction events generalizing operation with
  | nil =>
      cases h
      exact ⟨rfl, rfl⟩
  | cons event events ih =>
      simp only [EventRun.run, ModuleOperation.step] at h ⊢
      cases hstep : operation.flow.step operation.run event with
      | none => simp [hstep] at h
      | some run =>
          rw [hstep] at h
          exact ih h

/-- Of all configurations that are installed together, each with distinct file names, each one
is installed with its own files exactly if its contents were in the order of its
identifiers. -/
theorem install_own_files_iff (projectId : Nat)
    (configurations : List (ModuleConfigurationDraft C))
    (hfiles : ∀ configuration ∈ configurations, (configuration.files.map ModuleFile.name).Nodup)
    (events : List (Nat × ModuleFilesEvent M))
    {operations : List (ModuleOperation (ModuleInstallationRequest C) M)}
    (hrun : run (stepAt ModuleOperation.step) (install projectId configurations) events =
      some operations)
    (hanswered : ∀ operation ∈ operations, operation.run.Answered) {index : Nat}
    {configuration : ModuleConfigurationDraft C}
    (hconfiguration : configurations[index]? = some configuration) :
    ∃ operation, operations[index]? = some operation ∧
      (InstallsOwnFiles configuration operation.run.signals ↔
        ContentsInOrder configuration (eventsAt index events)) := by
  have hstart : (install projectId configurations : List (ModuleOperation _ M))[index]? =
      some { flow := installationFlow projectId configuration
             run := (installationFlow projectId configuration).begin } := by
    rw [install, List.getElem?_map, hconfiguration, Option.map_some]
  obtain ⟨operation, hoperation, hown⟩ := run_stepAt hrun hstart
  obtain ⟨-, hown⟩ := ModuleOperation.run_inv hown
  refine ⟨operation, hoperation, ?_⟩
  exact installsOwnFiles_iff (hfiles configuration (List.mem_of_getElem? hconfiguration)) hown
    (hanswered operation (List.mem_of_getElem? hoperation))

/-- A configuration with two files. -/
def twoFiles : ModuleConfigurationDraft Unit where
  artifact :=
    { name := "app", version := "1", externalId := ⟨"app", ⟨1, "registry", .artifacts⟩⟩ }
  others := ()
  additionalFiles := some [⟨"a", [1]⟩, ⟨"b", [2]⟩]

/-- The server answers everything, with the identifiers in an order of its own. -/
def twoFilesAnswers (first second : PlatformFileIdentifier) : List (ModuleFilesEvent Nat) :=
  [.allocated first.name first.id, .allocated second.name second.id, .started 5,
    .answered (.upload (some second) [2]), .answered (.upload (some first) [1])]

/-- Two installations of one configuration, the first with its identifiers in order. -/
theorem install_own_files_iff_in_order :
    ∃ operations : List (ModuleOperation (ModuleInstallationRequest Unit) Nat),
      run (stepAt ModuleOperation.step) (install 3 [twoFiles, twoFiles])
          ((twoFilesAnswers ⟨7, "a"⟩ ⟨8, "b"⟩).map (0, ·) ++
            (twoFilesAnswers ⟨10, "b"⟩ ⟨9, "a"⟩).map (1, ·)) = some operations ∧
        ∃ operation, operations[0]? = some operation ∧
          (InstallsOwnFiles twoFiles operation.run.signals ↔
            ContentsInOrder twoFiles (eventsAt 0
              ((twoFilesAnswers ⟨7, "a"⟩ ⟨8, "b"⟩).map (0, ·) ++
                (twoFilesAnswers ⟨10, "b"⟩ ⟨9, "a"⟩).map (1, ·)))) := by
  refine ⟨_, rfl, install_own_files_iff 3 [twoFiles, twoFiles] ?_ _ rfl ?_ rfl⟩
  · intro configuration hconfiguration
    simp only [List.mem_cons, List.not_mem_nil, or_false, or_self] at hconfiguration
    rw [hconfiguration]
    decide
  · intro operation hoperation
    have hall : ∀ operations : List (ModuleOperation (ModuleInstallationRequest Unit) Nat),
        (operations.all fun operation => operation.run.Answered) = true →
          operation ∈ operations → operation.run.Answered := fun operations hall hmem =>
      of_decide_eq_true (List.all_eq_true.mp hall operation hmem)
    exact hall _ rfl hoperation

/-- The identifiers arrive the other way round: each content is uploaded to the identifier of
the other file. -/
theorem files_exchanged :
    ∃ s, run (installationFlow 3 twoFiles).step (installationFlow 3 twoFiles).begin
        (twoFilesAnswers ⟨8, "b"⟩ ⟨7, "a"⟩) = some s ∧ s.Answered ∧
      callsMade s.signals = [.upload (some ⟨8, "b"⟩) [1], .upload (some ⟨7, "a"⟩) [2]] ∧
      ¬ InstallsOwnFiles twoFiles s.signals := by
  refine ⟨_, rfl, by decide, rfl, fun h => ?_⟩
  have huploads := h.uploads
  revert huploads
  decide

end ArtPlatform.Web
