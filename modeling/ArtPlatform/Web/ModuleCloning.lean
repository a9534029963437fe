import ArtPlatform.Web.ModuleFiles

/-!
# Cloning a module

`clone` allocates an identifier for every configured file.  A file with contents is uploaded;
the others are copied from the files of the base module.

Main results:

- Theorem `fillCalls_eq_map`: every file is filled if the base module has the empty ones.
- Theorem `clone_iff`: a complete clone is right exactly if it goes to the project of the base
  module, which has all files that are configured without content.
- Theorem `missing_file_not_filled`: a file that the base module does not have.
-/

namespace ArtPlatform.Web

open EventRun

variable {C M : Type}

/-- The files that are configured. -/
def filesToFill (files : List AllocatedModuleFile) : List AllocatedModuleFile :=
  files.filter fun file => file.bytes.isSome

/-- An empty file is looked for in the base module.  A base module without files is an error
that ends the loop. -/
def fillCalls (baseModule : BaseModule) : List AllocatedModuleFile → List ModuleFileCall
  | [] => []
  | newFile :: rest =>
      if newFile.bytes.getD [] = [] then
        match baseModule.additionalFiles with
        | none => []
        | some additionalFiles =>
            .clone (additionalFiles.find? fun file => file.name = newFile.id.name) newFile.id ::
              fillCalls baseModule rest
      else .upload (some newFile.id) (newFile.bytes.getD []) :: fillCalls baseModule rest

theorem length_fillCalls_le (baseModule : BaseModule) (files : List AllocatedModuleFile) :
    (fillCalls baseModule files).length ≤ files.length := by
  induction files with
  | nil => exact Nat.le_refl 0
  | cons newFile rest ih =>
      rw [fillCalls]
      split
      · split
        · exact Nat.zero_le _
        · exact Nat.succ_le_succ ih
      · exact Nat.succ_le_succ ih

/-- `clone`; the identifier of the target project is not read. -/
def cloningFlow (_projectId : Nat) (baseModule : BaseModule)
    (configuration : ModuleConfigurationDraft C) :
    ModuleFilesFlow (ModuleInstallationRequest C) where
  additionalFiles := []
  newFiles := configuration.files.map ModuleFile.name
  allAllocated := fun _ allocatedFilesCount => allocatedFilesCount = configuration.files.length
  request := fun additionalFiles =>
    { projectId := baseModule.projectId
      configuration := configuration.withFiles additionalFiles }
  calls := fun additionalFiles =>
    fillCalls baseModule (filesToFill (allocatedFiles configuration.files additionalFiles))
  expectedFilesCount := fun additionalFiles =>
    (filesToFill (allocatedFiles configuration.files additionalFiles)).length
  allAllocated_iff := fun ids => by simp
  calls_le := fun ids => length_fillCalls_le baseModule _

/-- What fills the file with a new identifier: its configured content, or the file of its
name in the base module. -/
def fillFor (baseModule : BaseModule) (files : List ModuleFile) (id : PlatformFileIdentifier) :
    ModuleFileCall :=
  let bytes := (bytesOf files id.name).getD []
  if bytes = [] then .clone (baseModule.files.find? fun file => file.name = id.name) id
  else .upload (some id) bytes

/-- One installation in the project, with one new identifier for each configured file.  Each
is filled once and without an error, and the module is processed once, when all are. -/
structure ClonesModule (projectId : Nat) (baseModule : BaseModule)
    (configuration : ModuleConfigurationDraft C)
    (signals : List (ModuleFilesSignal (ModuleInstallationRequest C) M)) : Prop where
  started : startRequests signals =
    [{ projectId := projectId, configuration := configuration.withFiles (idsAllocated signals) }]
  allocated : ((idsAllocated signals).map PlatformFileIdentifier.name).Perm
    (configuration.files.map ModuleFile.name)
  filled : (callsMade signals).Perm
    ((idsAllocated signals).map (fillFor baseModule configuration.files))
  neverFails : callsFailed signals = []
  processed : ProcessedOnce signals

/-- The base module has the files that are configured without content. -/
def EmptyFilesInBase (baseModule : BaseModule) (files : List ModuleFile) : Prop :=
  ∀ file ∈ files, file.bytes = [] → file.name ∈ baseModule.files.map PlatformFileIdentifier.name

/-! ## Filling the files -/

section

variable {baseModule : BaseModule} {files : List ModuleFile} {ids : List PlatformFileIdentifier}

/-- The identifiers have the names of configured files. -/
theorem filesToFill_of_names
    (hids : ∀ id ∈ ids, id.name ∈ files.map ModuleFile.name) :
    filesToFill (allocatedFiles files ids) = allocatedFiles files ids := by
  rw [filesToFill, List.filter_eq_self]
  intro newFile hnewFile
  obtain ⟨id, hid, rfl⟩ := List.mem_map.mp hnewFile
  obtain ⟨file, hfile, hname⟩ := List.mem_map.mp (hids id hid)
  rw [bytesOf, Option.isSome_map, List.find?_isSome]
  exact ⟨file, hfile, decide_eq_true hname⟩

/-- A file of the base module is found by its name. -/
theorem find?_isSome_of_base {name : String}
    (h : name ∈ baseModule.files.map PlatformFileIdentifier.name) :
    ∃ current, baseModule.files.find? (fun file => file.name = name) = some current := by
  obtain ⟨current, hcurrent, hname⟩ := List.mem_map.mp h
  rw [← Option.isSome_iff_exists, List.find?_isSome]
  exact ⟨current, hcurrent, decide_eq_true hname⟩

/-- Every identifier is filled if the base module has the empty files. -/
theorem fillCalls_eq_map
    (hids : ∀ id ∈ ids, (bytesOf files id.name).getD [] = [] →
      id.name ∈ baseModule.files.map PlatformFileIdentifier.name) :
    fillCalls baseModule (allocatedFiles files ids) = ids.map (fillFor baseModule files) := by
  induction ids with
  | nil => rfl
  | cons id ids ih =>
      have hrest := ih fun id' hid' => hids id' (List.mem_cons_of_mem id hid')
      rw [allocatedFiles, List.map_cons, ← allocatedFiles, fillCalls, List.map_cons, fillFor]
      by_cases hempty : (bytesOf files id.name).getD [] = []
      · have hbase := hids id List.mem_cons_self hempty
        cases hfiles : baseModule.additionalFiles with
        | none => simp [BaseModule.files, hfiles] at hbase
        | some additionalFiles =>
            have hall : baseModule.files = additionalFiles := by simp [BaseModule.files, hfiles]
            rw [if_pos hempty, if_pos hempty, hall, hrest]
      · rw [if_neg hempty, if_neg hempty, hrest]

theorem fillFor_fails_iff (hfiles : (files.map ModuleFile.name).Nodup) {file : ModuleFile}
    (hfile : file ∈ files) {id : PlatformFileIdentifier} (hname : id.name = file.name) :
    (fillFor baseModule files id).fails = true ↔
      file.bytes = [] ∧ file.name ∉ baseModule.files.map PlatformFileIdentifier.name := by
  have hbytes := bytesOf_of_nodup hfiles hfile
  rw [fillFor, hname, hbytes, Option.getD_some]
  by_cases hempty : file.bytes = []
  · rw [if_pos hempty, and_iff_right hempty]
    cases hfind : baseModule.files.find? fun current => current.name = file.name with
    | none =>
        refine iff_of_true rfl fun hmem => ?_
        obtain ⟨current, hcurrent⟩ := find?_isSome_of_base hmem
        rw [hfind] at hcurrent
        cases hcurrent
    | some current =>
        refine iff_of_false (by simp [ModuleFileCall.fails]) fun hnot => hnot ?_
        have hsame : current.name = file.name := by simpa using List.find?_some hfind
        exact hsame ▸ List.mem_map_of_mem (List.mem_of_find?_eq_some hfind)
  · rw [if_neg hempty]
    exact iff_of_false (by simp [ModuleFileCall.fails]) fun h => hempty h.1

/-- No file is filled by a call that is an error exactly if the base module has the empty
files. -/
theorem fillFor_never_fails_iff (hfiles : (files.map ModuleFile.name).Nodup)
    (hids : (ids.map PlatformFileIdentifier.name).Perm (files.map ModuleFile.name)) :
    (∀ call ∈ ids.map (fillFor baseModule files), call.fails = false) ↔
      EmptyFilesInBase baseModule files := by
  constructor
  · intro hfills file hfile hempty
    by_contra hmissing
    obtain ⟨id, hid, hname⟩ := List.mem_map.mp
      (hids.symm.subset (List.mem_map_of_mem (f := ModuleFile.name) hfile))
    have hfails := (fillFor_fails_iff hfiles hfile hname).mpr ⟨hempty, hmissing⟩
    rw [hfills _ (List.mem_map_of_mem hid)] at hfails
    cases hfails
  · intro hbase call hcall
    obtain ⟨id, hid, rfl⟩ := List.mem_map.mp hcall
    obtain ⟨file, hfile, hname⟩ := List.mem_map.mp (hids.subset (List.mem_map_of_mem hid))
    rw [Bool.eq_false_iff, Ne, fillFor_fails_iff hfiles hfile hname.symm]
    exact fun ⟨hempty, hmissing⟩ => hmissing (hbase file hfile hempty)

end

/-! ## A complete clone -/

section

variable {projectId : Nat} {baseModule : BaseModule} {configuration : ModuleConfigurationDraft C}
  {ids : List PlatformFileIdentifier}

/-- Every new file is waited for. -/
theorem expectedFor_cloningFlow
    (hids : (ids.map PlatformFileIdentifier.name).Perm (configuration.files.map ModuleFile.name)) :
    (cloningFlow projectId baseModule configuration).expectedFor ids = ids.length := by
  have hexpected : (cloningFlow projectId baseModule configuration).expectedFor ids =
      (filesToFill (allocatedFiles configuration.files ids)).length := rfl
  rw [hexpected, filesToFill_of_names fun id hid => hids.subset (List.mem_map_of_mem hid),
    allocatedFiles, List.length_map]

/-- Every new file is filled if the base module has the empty ones. -/
theorem callsFor_cloningFlow (hfiles : (configuration.files.map ModuleFile.name).Nodup)
    (hids : (ids.map PlatformFileIdentifier.name).Perm (configuration.files.map ModuleFile.name))
    (hbase : EmptyFilesInBase baseModule configuration.files) :
    (cloningFlow projectId baseModule configuration).callsFor ids =
      ids.map (fillFor baseModule configuration.files) := by
  have hcalls : (cloningFlow projectId baseModule configuration).callsFor ids =
      fillCalls baseModule (filesToFill (allocatedFiles configuration.files ids)) := rfl
  rw [hcalls, filesToFill_of_names fun id hid => hids.subset (List.mem_map_of_mem hid)]
  refine fillCalls_eq_map fun id hid hempty => ?_
  obtain ⟨file, hfile, hname⟩ := List.mem_map.mp (hids.subset (List.mem_map_of_mem hid))
  rw [← hname, bytesOf_of_nodup hfiles hfile] at hempty
  exact hname ▸ hbase file hfile hempty

end

/-- When every request of a clone with distinct file names is answered, the module has been
cloned exactly if the project is that of the base module, and the base module has the files
that are configured without content. -/
theorem clone_iff (projectId : Nat) (baseModule : BaseModule)
    (configuration : ModuleConfigurationDraft C)
    (hfiles : (configuration.files.map ModuleFile.name).Nodup)
    (events : List (ModuleFilesEvent M)) {s : ModuleFilesRun (ModuleInstallationRequest C) M}
    (hrun : run (cloningFlow projectId baseModule configuration).step
      (cloningFlow projectId baseModule configuration).begin events = some s)
    (hanswered : s.Answered) :
    ClonesModule projectId baseModule configuration s.signals ↔
      projectId = baseModule.projectId ∧ EmptyFilesInBase baseModule configuration.files := by
  obtain ⟨hids, module, answers, hanswers, hsignals⟩ :=
    ModuleFilesFlow.signals_of_answered hrun hanswered
  change ((allocatedIds events).map PlatformFileIdentifier.name).Perm
    (configuration.files.map ModuleFile.name) at hids
  rw [hsignals]
  constructor
  · intro h
    refine ⟨?_, ?_⟩
    · have hstarted := h.started
      rw [ModuleFilesFlow.startRequests_callingSignals] at hstarted
      exact congrArg ModuleInstallationRequest.projectId (List.cons.inj hstarted).1.symm
    · rw [← fillFor_never_fails_iff hfiles hids]
      intro call hcall
      -- the calls are made, and no answer is an error
      have hfilled := h.filled
      rw [ModuleFilesFlow.callsMade_callingSignals,
        ModuleFilesFlow.idsAllocated_callingSignals] at hfilled
      have hnever := h.neverFails
      rw [ModuleFilesFlow.callsFailed_callingSignals, List.filter_eq_nil_iff] at hnever
      have hanswer : call ∈ answers := hanswers.symm.subset (hfilled.symm.subset hcall)
      exact Bool.eq_false_iff.mpr (hnever call hanswer)
  · rintro ⟨rfl, hbase⟩
    have hcalls : (cloningFlow baseModule.projectId baseModule configuration).callsFor
        (allocatedIds events) =
          (allocatedIds events).map (fillFor baseModule configuration.files) :=
      callsFor_cloningFlow hfiles hids hbase
    have hfills := (fillFor_never_fails_iff hfiles hids).mpr hbase
    refine ⟨?_, ?_, ?_, ?_, ?_⟩
    · rw [ModuleFilesFlow.startRequests_callingSignals,
        ModuleFilesFlow.idsAllocated_callingSignals]
      rfl
    · rwa [ModuleFilesFlow.idsAllocated_callingSignals]
    · rw [ModuleFilesFlow.callsMade_callingSignals,
        ModuleFilesFlow.idsAllocated_callingSignals, hcalls]
    · rw [ModuleFilesFlow.callsFailed_callingSignals, List.filter_eq_nil_iff]
      intro call hcall
      rw [hfills call (hcalls ▸ hanswers.subset hcall)]
      exact Bool.false_ne_true
    · rw [ModuleFilesFlow.processedOnce_iff hanswers,
        filledCount_of_perm hanswers (hcalls ▸ hfills), hcalls, List.length_map,
        expectedFor_cloningFlow hids]

/-- A file without content, and one with content. -/
def configurationToClone : ModuleConfigurationDraft Unit where
  artifact :=
    { name := "app", version := "1", externalId := ⟨"app", ⟨1, "registry", .artifacts⟩⟩ }
  others := ()
  additionalFiles := some [⟨"a", []⟩, ⟨"b", [2]⟩]

/-- The server answers everything, and the empty file is copied from `current`. -/
def cloningAnswers (current : Option PlatformFileIdentifier) : List (ModuleFilesEvent Nat) :=
  [.allocated "b" 8, .allocated "a" 7, .started 5, .answered (.clone current ⟨7, "a"⟩),
    .answered (.upload (some ⟨8, "b"⟩) [2])]

theorem clone_iff_same_project :
    ∃ s : ModuleFilesRun (ModuleInstallationRequest Unit) Nat,
      run (cloningFlow 4 ⟨3, 4, some [⟨1, "a"⟩]⟩ configurationToClone).step
          (cloningFlow 4 ⟨3, 4, some [⟨1, "a"⟩]⟩ configurationToClone).begin
          (cloningAnswers (some ⟨1, "a"⟩)) = some s ∧
        (ClonesModule 4 ⟨3, 4, some [⟨1, "a"⟩]⟩ configurationToClone s.signals ↔
          4 = 4 ∧ EmptyFilesInBase ⟨3, 4, some [⟨1, "a"⟩]⟩ configurationToClone.files) :=
  ⟨_, rfl, clone_iff 4 _ _ (by decide) (cloningAnswers (some ⟨1, "a"⟩)) rfl (by decide)⟩

/-- The empty file is not in the base module: its copy is an error, and the module is never
processed. -/
theorem missing_file_not_filled :
    ∃ s : ModuleFilesRun (ModuleInstallationRequest Unit) Nat,
      run (cloningFlow 4 ⟨3, 4, some []⟩ configurationToClone).step
          (cloningFlow 4 ⟨3, 4, some []⟩ configurationToClone).begin (cloningAnswers none) =
            some s ∧ s.Answered ∧
        callsFailed s.signals = [.clone none ⟨7, "a"⟩] ∧ modulesProcessed s.signals = [] ∧
        ¬ ClonesModule 4 ⟨3, 4, some []⟩ configurationToClone s.signals := by
  refine ⟨_, rfl, by decide, rfl, rfl, fun h => ?_⟩
  have hnever := h.neverFails
  revert hnever
  decide

end ArtPlatform.Web
