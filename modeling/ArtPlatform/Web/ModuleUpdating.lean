import ArtPlatform.Web.ModuleFiles

/-!
# Updating a module

`update` keeps the identifiers of the module's files that are still configured, allocates
identifiers for new files with contents, and uploads every content that is not empty to the
identifiers of its name.

Main results:

- Theorem `update_identifiers`: which identifiers a complete update passes on for each
  configured file, and what it uploads to them.
- Theorem `empty_new_file_left_out`: a new file without content gets no identifier, and a
  name that the module has twice keeps both.
-/

namespace ArtPlatform.Web

open EventRun

variable {C M : Type}

/-- The new files that have contents. -/
def newAdditionalFiles (baseModule : BaseModule) (files : List ModuleFile) : List ModuleFile :=
  files.filter fun file =>
    file.bytes.length != 0 && !baseModule.files.any fun current => current.name = file.name

/-- The files to upload: those with contents. -/
def filesToUpload (files : List AllocatedModuleFile) : List AllocatedModuleFile :=
  files.filter fun file => 0 < (file.bytes.getD []).length

def uploadsOf (files : List AllocatedModuleFile) : List ModuleFileCall :=
  (filesToUpload files).map fun newFile => .upload (some newFile.id) (newFile.bytes.getD [])

/-- `update` -/
def updatingFlow (baseModule : BaseModule) (configuration : ModuleConfigurationDraft C) :
    ModuleFilesFlow (ModuleUpdateRequest C) where
  additionalFiles := baseModule.files.filter fun file =>
    configuration.files.any fun newFile => newFile.name = file.name
  newFiles := (newAdditionalFiles baseModule configuration.files).map ModuleFile.name
  allAllocated := fun _ allocatedFilesCount =>
    allocatedFilesCount = (newAdditionalFiles baseModule configuration.files).length
  request := fun additionalFiles =>
    { moduleId := baseModule.id
      newModuleConfiguration := configuration.withFiles additionalFiles }
  calls := fun additionalFiles => uploadsOf (allocatedFiles configuration.files additionalFiles)
  expectedFilesCount := fun additionalFiles =>
    (filesToUpload (allocatedFiles configuration.files additionalFiles)).length
  allAllocated_iff := fun ids => by simp
  calls_le := fun ids => by simp [uploadsOf]

/-- The file that a call fills. -/
def ModuleFileCall.name : ModuleFileCall → Option String
  | .upload id _ => id.map PlatformFileIdentifier.name
  | .clone _ newFileId => some newFileId.name

/-- One update with these identifiers: a configured file keeps the identifiers that the module
has of its name; a new one gets one identifier, unless it is empty.  Its content is uploaded
to its identifiers, and the module is processed once, behind all uploads. -/
structure UpdatesModule (baseModule : BaseModule) (configuration : ModuleConfigurationDraft C)
    (ids : List PlatformFileIdentifier)
    (signals : List (ModuleFilesSignal (ModuleUpdateRequest C) M)) : Prop where
  started : startRequests signals =
    [{ moduleId := baseModule.id, newModuleConfiguration := configuration.withFiles ids }]
  configured : ∀ id ∈ ids, id.name ∈ configuration.files.map ModuleFile.name
  kept : ∀ file ∈ configuration.files,
    file.name ∈ baseModule.files.map PlatformFileIdentifier.name →
      ids.filter (fun id => id.name = file.name) =
        baseModule.files.filter fun id => id.name = file.name
  allocated : ∀ file ∈ configuration.files,
    file.name ∉ baseModule.files.map PlatformFileIdentifier.name → file.bytes ≠ [] →
      ∃ id, allocatedFor signals file.name = some id ∧
        ids.filter (fun id => id.name = file.name) = [id]
  leftOut : ∀ file ∈ configuration.files,
    file.name ∉ baseModule.files.map PlatformFileIdentifier.name → file.bytes = [] →
      ids.filter (fun id => id.name = file.name) = []
  uploads : ∀ file ∈ configuration.files,
    (callsMade signals).filter (fun call => call.name = some file.name) =
      if file.bytes = [] then []
      else (ids.filter fun id => id.name = file.name).map fun id => .upload (some id) file.bytes
  uploadsOnly : ∀ call ∈ callsMade signals, ∃ id ∈ ids, call.name = some id.name
  processed : ProcessedOnce signals

/-! ## Identifiers by name -/

section

variable {baseModule : BaseModule} {files : List ModuleFile} {ids : List PlatformFileIdentifier}
  {file : ModuleFile}

theorem name_mem_newAdditionalFiles_iff (hfiles : (files.map ModuleFile.name).Nodup)
    (hfile : file ∈ files) :
    file.name ∈ (newAdditionalFiles baseModule files).map ModuleFile.name ↔
      file.bytes ≠ [] ∧ file.name ∉ baseModule.files.map PlatformFileIdentifier.name := by
  have hmem : file ∈ newAdditionalFiles baseModule files ↔
      file.bytes ≠ [] ∧ file.name ∉ baseModule.files.map PlatformFileIdentifier.name := by
    rw [newAdditionalFiles, List.mem_filter, and_iff_right hfile]
    simp
  rw [← hmem]
  constructor
  · intro hname
    obtain ⟨other, hother, hsame⟩ := List.mem_map.mp hname
    have hsub : other ∈ files := (List.mem_filter.mp hother).1
    rwa [← List.inj_on_of_nodup_map hfiles hsub hfile hsame]
  · exact fun h => List.mem_map_of_mem h

theorem filter_name_eq_nil {name : String}
    (h : name ∉ ids.map PlatformFileIdentifier.name) :
    ids.filter (fun id => id.name = name) = [] := by
  rw [List.filter_eq_nil_iff]
  intro id hid hsame
  exact h (of_decide_eq_true hsame ▸ List.mem_map_of_mem hid)

/-- The identifiers of a configured name are kept. -/
theorem filter_kept (hfile : file ∈ files) :
    (baseModule.files.filter fun current =>
        files.any fun newFile => newFile.name = current.name).filter
          (fun id => id.name = file.name) =
      baseModule.files.filter fun id => id.name = file.name := by
  rw [List.filter_filter]
  refine List.filter_congr fun id _ => ?_
  by_cases hname : id.name = file.name
  · have hany : (files.any fun newFile => newFile.name = id.name) = true :=
      List.any_eq_true.mpr ⟨file, hfile, by simp [hname]⟩
    rw [hany, Bool.and_true]
  · simp [hname]

theorem uploadsOf_cons (newFile : AllocatedModuleFile) (rest : List AllocatedModuleFile) :
    uploadsOf (newFile :: rest) =
      if newFile.bytes.getD [] = [] then uploadsOf rest
      else .upload (some newFile.id) (newFile.bytes.getD []) :: uploadsOf rest := by
  by_cases hempty : newFile.bytes.getD [] = []
  · simp [uploadsOf, filesToUpload, hempty]
  · have hpos := List.length_pos_of_ne_nil hempty
    simp [uploadsOf, filesToUpload, hempty, hpos]

/-- The uploads to the identifiers of a name. -/
theorem filter_uploadsOf (hfiles : (files.map ModuleFile.name).Nodup) (hfile : file ∈ files) :
    (uploadsOf (allocatedFiles files ids)).filter (fun call => call.name = some file.name) =
      if file.bytes = [] then []
      else
        (ids.filter fun id => id.name = file.name).map fun id => .upload (some id) file.bytes := by
  induction ids with
  | nil => simp [uploadsOf, filesToUpload, allocatedFiles]
  | cons id ids ih =>
      rw [allocatedFiles, List.map_cons, ← allocatedFiles, uploadsOf_cons]
      by_cases hname : id.name = file.name
      · have hbytes := bytesOf_of_nodup hfiles hfile
        rw [← hname] at hbytes
        rw [hbytes, Option.getD_some]
        by_cases hempty : file.bytes = []
        · rw [if_pos hempty, ih, if_pos hempty, if_pos hempty]
        · rw [if_neg hempty, if_neg hempty,
            List.filter_cons_of_pos (by simp [ModuleFileCall.name, hname]), ih, if_neg hempty,
            List.filter_cons_of_pos (by simp [hname]), List.map_cons]
      · have hother : ∀ bytes, (ModuleFileCall.upload (some id) bytes).name ≠ some file.name :=
          fun _ hsame => hname (Option.some.inj hsame)
        have hskip : (id :: ids).filter (fun id => id.name = file.name) =
            ids.filter fun id => id.name = file.name :=
          List.filter_cons_of_neg (by simp [hname])
        rw [hskip, ← ih]
        split
        · rfl
        · rw [List.filter_cons_of_neg (by simp [hother])]

theorem uploadsOf_inv {newFiles : List AllocatedModuleFile} {call : ModuleFileCall}
    (h : call ∈ uploadsOf newFiles) :
    ∃ newFile ∈ newFiles, call = .upload (some newFile.id) (newFile.bytes.getD []) := by
  obtain ⟨newFile, hmem, rfl⟩ := List.mem_map.mp h
  exact ⟨newFile, (List.mem_filter.mp hmem).1, rfl⟩

end

/-! ## A complete update -/

/-- When every request of an update with distinct file names is answered, the module has been
updated with the identifiers that were there or allocated. -/
theorem update_identifiers (baseModule : BaseModule) (configuration : ModuleConfigurationDraft C)
    (hfiles : (configuration.files.map ModuleFile.name).Nodup)
    (events : List (ModuleFilesEvent M)) {s : ModuleFilesRun (ModuleUpdateRequest C) M}
    (hrun : run (updatingFlow baseModule configuration).step
      (updatingFlow baseModule configuration).begin events = some s) (hanswered : s.Answered) :
    ∃ ids, UpdatesModule baseModule configuration ids s.signals := by
  obtain ⟨hnames, module, answers, hanswers, hsignals⟩ :=
    ModuleFilesFlow.signals_of_answered hrun hanswered
  have hnodup : ((allocatedIds events).map PlatformFileIdentifier.name).Nodup := by
    rw [hnames.nodup_iff]
    exact hfiles.sublist (List.filter_sublist.map _)
  -- the identifiers of a configured name, kept and allocated
  have hfilter : ∀ file ∈ configuration.files,
      ((updatingFlow baseModule configuration).additionalFiles ++ allocatedIds events).filter
        (fun id => id.name = file.name) =
          baseModule.files.filter (fun id => id.name = file.name) ++
            (allocatedIds events).filter fun id => id.name = file.name := by
    intro file hfile
    rw [List.filter_append]
    congr 1
    exact filter_kept hfile
  have hallocated : ∀ file ∈ configuration.files,
      (file.name ∈ (allocatedIds events).map PlatformFileIdentifier.name ↔
        file.bytes ≠ [] ∧ file.name ∉ baseModule.files.map PlatformFileIdentifier.name) :=
    fun file hfile =>
      (hnames.mem_iff).trans (name_mem_newAdditionalFiles_iff hfiles hfile)
  refine ⟨(updatingFlow baseModule configuration).additionalFiles ++ allocatedIds events, ?_⟩
  rw [hsignals]
  refine ⟨ModuleFilesFlow.startRequests_callingSignals, ?_, ?_, ?_, ?_, ?_, ?_, ?_⟩
  · intro id hid
    rcases List.mem_append.mp hid with hkept | hnew
    · obtain ⟨file, hfile, hname⟩ := List.any_eq_true.mp (List.mem_filter.mp hkept).2
      rw [← of_decide_eq_true hname]
      exact List.mem_map_of_mem hfile
    · have hname := hnames.subset (List.mem_map_of_mem hnew)
      exact (List.filter_sublist.map ModuleFile.name).subset hname
  · intro file hfile hkept
    have hnot := fun hmem => ((hallocated file hfile).mp hmem).2 hkept
    rw [hfilter file hfile, filter_name_eq_nil hnot, List.append_nil]
  · intro file hfile hnew hcontent
    obtain ⟨id, hid, hname⟩ := List.mem_map.mp ((hallocated file hfile).mpr ⟨hcontent, hnew⟩)
    refine ⟨id, ?_, ?_⟩
    · rw [allocatedFor, ModuleFilesFlow.idsAllocated_callingSignals, ← hname]
      exact find?_of_nodup hnodup hid
    · rw [hfilter file hfile, filter_name_eq_nil hnew, List.nil_append, ← hname]
      exact filter_of_nodup hnodup hid
  · intro file hfile hnew hempty
    have hnot := fun hmem => ((hallocated file hfile).mp hmem).1 hempty
    rw [hfilter file hfile, filter_name_eq_nil hnew, filter_name_eq_nil hnot, List.append_nil]
  · intro file hfile
    rw [ModuleFilesFlow.callsMade_callingSignals]
    exact filter_uploadsOf hfiles hfile
  · intro call hcall
    rw [ModuleFilesFlow.callsMade_callingSignals] at hcall
    obtain ⟨newFile, hnewFile, rfl⟩ := uploadsOf_inv hcall
    obtain ⟨id, hid, rfl⟩ := List.mem_map.mp hnewFile
    exact ⟨id, hid, rfl⟩
  · rw [ModuleFilesFlow.processedOnce_iff hanswers, filledCount_of_perm hanswers]
    · exact List.length_map _
    · intro call hcall
      obtain ⟨newFile, -, rfl⟩ := uploadsOf_inv hcall
      rfl

/-- A file that is there, and an empty one. -/
def configurationWithEmpty : ModuleConfigurationDraft Unit where
  artifact :=
    { name := "app", version := "1", externalId := ⟨"app", ⟨1, "registry", .artifacts⟩⟩ }
  others := ()
  additionalFiles := some [⟨"a", [1]⟩, ⟨"b", []⟩]

/-- A file that is there, and a new one. -/
def configurationWithNew : ModuleConfigurationDraft Unit :=
  { configurationWithEmpty with additionalFiles := some [⟨"a", [1]⟩, ⟨"b", [2]⟩] }

def newFileAnswers : List (ModuleFilesEvent Nat) :=
  [.allocated "b" 7, .started 5, .answered (.upload (some ⟨7, "b"⟩) [2]),
    .answered (.upload (some ⟨1, "a"⟩) [1])]

theorem update_identifiers_new_file :
    ∃ s : ModuleFilesRun (ModuleUpdateRequest Unit) Nat,
      run (updatingFlow ⟨3, 4, some [⟨1, "a"⟩]⟩ configurationWithNew).step
          (updatingFlow ⟨3, 4, some [⟨1, "a"⟩]⟩ configurationWithNew).begin newFileAnswers =
            some s ∧
        ∃ ids, UpdatesModule ⟨3, 4, some [⟨1, "a"⟩]⟩ configurationWithNew ids s.signals :=
  ⟨_, rfl, update_identifiers _ _ (by decide) newFileAnswers rfl (by decide)⟩

/-- The update is started with two identifiers for one configured name and with none for the
other. -/
theorem empty_new_file_left_out :
    ∃ s : ModuleFilesRun (ModuleUpdateRequest Unit) Nat,
      run (updatingFlow ⟨3, 4, some [⟨1, "a"⟩, ⟨2, "a"⟩]⟩ configurationWithEmpty).step
          (updatingFlow ⟨3, 4, some [⟨1, "a"⟩, ⟨2, "a"⟩]⟩ configurationWithEmpty).begin
          [.started 5, .answered (.upload (some ⟨1, "a"⟩) [1]),
            .answered (.upload (some ⟨2, "a"⟩) [1])] = some s ∧ s.Answered ∧
        (configurationWithEmpty.files.map ModuleFile.name).Nodup ∧
        (startRequests s.signals).map (fun request =>
          request.newModuleConfiguration.additionalFiles) = [[⟨1, "a"⟩, ⟨2, "a"⟩]] ∧
        ∀ request ∈ startRequests s.signals, ∀ file ∈ configurationWithEmpty.files,
          (request.newModuleConfiguration.additionalFiles.filter fun id =>
            id.name = file.name).length ≠ 1 :=
  ⟨_, rfl, by decide, by decide, rfl, by decide⟩

end ArtPlatform.Web
