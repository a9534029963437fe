import ArtPlatform.Foundation.EventRun
import Mathlib.Data.Multiset.AddSub
import Mathlib.Tactic.Common

/-!
# The file loader

Every change of the attached files starts readers for all of them.  A reader writes the bytes
it has read to the entry of its name when it ends, whatever has changed since it was started.

Main results:

- Theorem `Tracks.step`: the loaded files are the attached ones, in every state.
- Theorem `files_exactly_iff`: when all readers have ended, there are exactly the entries of
  the attached files if and only if the readers that ended behind the last change were of
  attached files, and the last one of each name had read the attached version.
- Theorem `removed_file_back`: a reader that ends behind the removal of its file.
-/

namespace ArtPlatform.Web

open EventRun

/-- What a file of FilePond holds: a blob, or the stub of a file on the server, with its size
if it has one. -/
inductive PondContent
  | blob (bytes : List UInt8)
  | stub (size : Option Nat)
deriving DecidableEq, Repr

structure PondFile where
  filename : String
  file : PondContent
deriving DecidableEq, Repr

namespace PondFile

def fileSize (file : PondFile) : Option Nat :=
  match file.file with
  | .blob bytes => some bytes.length
  | .stub size => size

/-- `file.fileSize > maxFileSize`, which is false of `undefined`. -/
def tooLarge (maxFileSize : Nat) (file : PondFile) : Bool :=
  file.fileSize.any fun size => maxFileSize < size

def isEmpty (file : PondFile) : Bool :=
  file.fileSize = some 0

end PondFile

/-- A loaded file is a default one, made by the configuration, or was added by FilePond. -/
inductive LoadedFile
  | initial (filename : String)
  | added (file : PondFile)
deriving DecidableEq, Repr

namespace LoadedFile

def filename : LoadedFile → String
  | .initial filename => filename
  | .added file => file.filename

/-- `file.file instanceof Blob` -/
def blob : LoadedFile → Option (List UInt8)
  | .added ⟨_, .blob bytes⟩ => some bytes
  | _ => none

end LoadedFile

structure FileProperties where
  name : String
  bytes : List UInt8
deriving DecidableEq, Repr

/-- A loader with the readers under way, each with the name and the bytes of its file. -/
structure ManagedFileLoader where
  loadedFiles : List LoadedFile
  initialFiles : List LoadedFile
  currentFiles : List FileProperties
  loaded : Bool
  loadedFilesCount : Nat := 0
  readers : List FileProperties := []
deriving DecidableEq, Repr

inductive FileLoaderEvent
  | newFile (error : Bool) (file : Option PondFile)
  | remove (file : Option PondFile)
  | clear
  | loadEnd (reader : FileProperties)
deriving DecidableEq, Repr

/-- Put in place of the first one of its name, or behind all. -/
def putByName {α : Type} (name : α → String) (xs : List α) (x : α) : List α :=
  match xs.findIdx? fun current => name current = name x with
  | none => xs ++ [x]
  | some index => xs.set index x

namespace ManagedFileLoader

def fileLoader (defaultFileNames : List String) : ManagedFileLoader where
  loadedFiles := defaultFileNames.map .initial
  initialFiles := defaultFileNames.map .initial
  currentFiles := defaultFileNames.map fun name => { name := name, bytes := [] }
  loaded := defaultFileNames.isEmpty

/-- The entries of files whose bytes are not read. -/
def emptyEntries (files : List LoadedFile) : List FileProperties :=
  files.map fun file => { name := file.filename, bytes := [] }

/-- The readers that are started for files. -/
def readersOf (files : List LoadedFile) : List FileProperties :=
  files.filterMap fun file => file.blob.map fun bytes => { name := file.filename, bytes := bytes }

def updateFiles (s : ManagedFileLoader) : ManagedFileLoader :=
  if s.loadedFiles = [] then { s with currentFiles := [] }
  else
    { s with
      currentFiles := emptyEntries s.loadedFiles
      readers := s.readers ++ readersOf s.loadedFiles }

def attachFile (maxFileSize : Nat) (s : ManagedFileLoader) (error : Bool) :
    Option PondFile → ManagedFileLoader
  | none => s
  | some file =>
      if error then s
      else if file.tooLarge maxFileSize then
        { s with loadedFiles := s.loadedFiles.filter fun current => current ≠ .added file }
      else if file.isEmpty then
        { s with loadedFiles := s.loadedFiles.filter fun current => current ≠ .added file }
      else
        { s with
          loadedFiles := putByName LoadedFile.filename s.loadedFiles (.added file) }.updateFiles

/-- The default files are reported first, and the last report is taken for an addition. -/
def onNewFile (maxFileSize : Nat) (s : ManagedFileLoader) (error : Bool)
    (file : Option PondFile) : ManagedFileLoader :=
  if s.loaded then s.attachFile maxFileSize error file
  else
    let counted := { s with loadedFilesCount := s.loadedFilesCount + 1 }
    if counted.loadedFilesCount = s.initialFiles.length then
      { counted with loaded := true }.attachFile maxFileSize error file
    else counted

def beforeRemoveFile (s : ManagedFileLoader) : Option PondFile → ManagedFileLoader
  | none => s
  | some file =>
      { s with
        loadedFiles := s.loadedFiles.filter fun current =>
          current.filename ≠ file.filename }.updateFiles

def clearFiles (s : ManagedFileLoader) : ManagedFileLoader :=
  { s with loadedFiles := [], currentFiles := [] }

def addFile (s : ManagedFileLoader) (file : FileProperties) : ManagedFileLoader :=
  if s.loadedFiles = [] then { s with currentFiles := [file] }
  else { s with currentFiles := putByName FileProperties.name s.currentFiles file }

/-- `onloadend` of a reader: a file without bytes is taken out again. -/
def onLoadEnd (s : ManagedFileLoader) (file : FileProperties) : ManagedFileLoader :=
  if file.bytes = [] then
    let loadedFiles := s.loadedFiles.filter fun current => current.filename ≠ file.name
    { s with loadedFiles := loadedFiles, currentFiles := emptyEntries loadedFiles }
  else s.addFile file

/-- What the user does, and the end of a reader that is under way. -/
def step (maxFileSize : Nat) (s : ManagedFileLoader) :
    FileLoaderEvent → Option ManagedFileLoader
  | .newFile error file => some (s.onNewFile maxFileSize error file)
  | .remove file => some (s.beforeRemoveFile file)
  | .clear => some s.clearFiles
  | .loadEnd reader =>
      if reader ∈ s.readers then
        some ({ s with readers := s.readers.erase reader }.onLoadEnd reader)
      else none

end ManagedFileLoader

/-! ## What is attached -/

/-- An attached file, with its bytes unless it is on the server. -/
structure AttachedFile where
  name : String
  blob : Option (List UInt8)
deriving DecidableEq, Repr

def LoadedFile.attachedFile (file : LoadedFile) : AttachedFile where
  name := file.filename
  blob := file.blob

/-- The entry of an attached file. -/
def AttachedFile.entry (file : AttachedFile) : FileProperties where
  name := file.name
  bytes := file.blob.getD []

/-- A file can be attached if it was loaded without an error, is not empty and not too
large. -/
def attachable (maxFileSize : Nat) (error : Bool) (file : PondFile) : Bool :=
  !error && !file.tooLarge maxFileSize && !file.isEmpty

/-- What an event attaches and removes; a file replaces the one of its name. -/
def attach (maxFileSize : Nat) (files : List AttachedFile) :
    FileLoaderEvent → List AttachedFile
  | .newFile error (some file) =>
      if attachable maxFileSize error file then
        putByName AttachedFile.name files (LoadedFile.added file).attachedFile
      else files
  | .remove (some file) => files.filter fun current => current.name ≠ file.filename
  | .clear => []
  | _ => files

def attached (maxFileSize : Nat) (defaultFileNames : List String)
    (events : List FileLoaderEvent) : List AttachedFile :=
  events.foldl (attach maxFileSize) (defaultFileNames.map fun name => ⟨name, none⟩)

/-- An event that changes the attached files, or restarts their readers. -/
def FileLoaderEvent.changes (maxFileSize : Nat) : FileLoaderEvent → Bool
  | .newFile error (some file) => attachable maxFileSize error file
  | .remove (some _) => true
  | .clear => true
  | _ => false

/-- The readers that have ended behind the last change, with one event more. -/
def endedBehind (maxFileSize : Nat) (ended : List FileProperties) (event : FileLoaderEvent) :
    List FileProperties :=
  if event.changes maxFileSize then []
  else
    match event with
    | .loadEnd reader => ended ++ [reader]
    | _ => ended

def endedSinceChange (maxFileSize : Nat) (events : List FileLoaderEvent) :
    List FileProperties :=
  events.foldl (endedBehind maxFileSize) []

/-- The bytes of the last reader of a name. -/
def lastRead (ended : List FileProperties) (name : String) : Option (List UInt8) :=
  (ended.reverse.find? fun reader => reader.name = name).map FileProperties.bytes

/-- Every reader was of an attached file, and the last one of its name has read the attached
version. -/
def ReadAttached (files : List AttachedFile) (ended : List FileProperties) : Prop :=
  ∀ reader ∈ ended, ∃ file,
    files.find? (fun current => current.name = reader.name) = some file ∧
      file.blob = lastRead ended reader.name

/-- FilePond reports each default file, as a stub or with an error. -/
structure ReportsDefaults (defaultFileNames : List String) (reports : List FileLoaderEvent) :
    Prop where
  count : reports.length = defaultFileNames.length
  stubs : ∀ report ∈ reports, ∃ error file, report = .newFile error file ∧
    ∀ reported, file = some reported →
      reported.filename ∈ defaultFileNames ∧ ∃ size, reported.file = .stub size

/-! ## Lists of named files -/

section

variable {α β : Type} {name : α → String} {name' : β → String}

theorem map_putByName (g : α → β) (hname : ∀ x, name' (g x) = name x) (xs : List α) (x : α) :
    (putByName name xs x).map g = putByName name' (xs.map g) (g x) := by
  rw [putByName, putByName, List.findIdx?_map]
  simp only [Function.comp_def, hname]
  split
  · simp
  · simp

/-- Cons form: the head is replaced, or the file goes behind it. -/
theorem putByName_cons (y : α) (xs : List α) (x : α) :
    putByName name (y :: xs) x =
      if name y = name x then x :: xs else y :: putByName name xs x := by
  rw [putByName, putByName, List.findIdx?_cons]
  by_cases hsame : name y = name x
  · simp [hsame]
  · cases xs.findIdx? fun current => name current = name x with
    | none => simp [hsame]
    | some index => simp [hsame]

theorem filter_putByName_self (xs : List α) (x : α) :
    (putByName name xs x).filter (fun y => name y = name x) =
      x :: (xs.filter fun y => name y = name x).tail := by
  induction xs with
  | nil => simp [putByName]
  | cons y xs ih =>
      rw [putByName_cons]
      by_cases hsame : name y = name x
      · simp [hsame]
      · rw [if_neg hsame, List.filter_cons_of_neg (by simpa using hsame), ih,
          List.filter_cons_of_neg (by simpa using hsame)]

theorem filter_putByName_of_ne {key : String} (xs : List α) {x : α} (hne : name x ≠ key) :
    (putByName name xs x).filter (fun y => name y = key) =
      xs.filter fun y => name y = key := by
  induction xs with
  | nil => simp [putByName, hne]
  | cons y xs ih =>
      rw [putByName_cons]
      by_cases hsame : name y = name x
      · rw [if_pos hsame, List.filter_cons_of_neg (by simpa using hne),
          List.filter_cons_of_neg (by simpa [hsame] using hne)]
      · simp only [if_neg hsame, List.filter_cons, ih]

/-- Lists with the same entries of each name. -/
theorem perm_of_filter_name [DecidableEq α] {xs ys : List α}
    (h : ∀ key, (xs.filter fun x => name x = key).Perm (ys.filter fun y => name y = key)) :
    xs.Perm ys := by
  rw [List.perm_iff_count]
  intro x
  have hcount := (h (name x)).count_eq x
  rwa [List.count_filter (by simp), List.count_filter (by simp)] at hcount

theorem perm_cons_same_iff {x y : α} {xs : List α} : (x :: xs).Perm (y :: xs) ↔ x = y := by
  rw [← Multiset.coe_eq_coe, ← Multiset.cons_coe, ← Multiset.cons_coe, Multiset.cons_inj_left]

theorem putByName_ne_nil (xs : List α) (x : α) : putByName name xs x ≠ [] := by
  cases xs with
  | nil => simp [putByName]
  | cons y xs =>
      rw [putByName_cons]
      split <;> simp

end

/-! ## The entries behind the last change -/

/-- The entries when readers have ended since the attached files were changed. -/
def entriesBehind (files : List AttachedFile) (ended : List FileProperties) :
    List FileProperties :=
  if files = [] then ended.getLast?.toList
  else
    ended.foldl (putByName FileProperties.name)
      (files.map fun file => { name := file.name, bytes := [] })

/-- Only the first file of a name has a blob. -/
def BlobsFirst (files : List AttachedFile) : Prop :=
  ∀ name, ∀ file ∈ (files.filter fun current => current.name = name).tail, file.blob = none

section

variable {files : List AttachedFile} {ended : List FileProperties} {name : String}

theorem lastRead_snoc (ended : List FileProperties) (reader : FileProperties) (name : String) :
    lastRead (ended ++ [reader]) name =
      if reader.name = name then some reader.bytes else lastRead ended name := by
  rw [lastRead, List.reverse_append, List.reverse_singleton, List.singleton_append,
    List.find?_cons]
  by_cases hname : reader.name = name <;> simp [hname, lastRead]

theorem lastRead_eq_none_iff : lastRead ended name = none ↔ ∀ reader ∈ ended, reader.name ≠ name := by
  rw [lastRead, Option.map_eq_none_iff, List.find?_eq_none]
  simp

theorem mem_of_lastRead {bytes : List UInt8} (h : lastRead ended name = some bytes) :
    { name := name, bytes := bytes } ∈ ended := by
  obtain ⟨reader, hfind, rfl⟩ := Option.map_eq_some_iff.mp h
  have hname : reader.name = name := by simpa using List.find?_some hfind
  rw [← hname]
  exact List.mem_reverse.mp (List.mem_of_find?_eq_some hfind)

/-- The entries of a name: the first one has what was read last, if a reader has ended. -/
theorem filter_foldl_putByName (entries ended : List FileProperties) (name : String) :
    (ended.foldl (putByName FileProperties.name) entries).filter
        (fun entry => entry.name = name) =
      match lastRead ended name with
      | none => entries.filter fun entry => entry.name = name
      | some bytes => { name := name, bytes := bytes } ::
          (entries.filter fun entry => entry.name = name).tail := by
  induction ended using List.reverseRecOn with
  | nil => rfl
  | append_singleton ended reader ih =>
      rw [List.foldl_append, List.foldl_cons, List.foldl_nil, lastRead_snoc]
      by_cases hname : reader.name = name
      · subst hname
        rw [filter_putByName_self, ih, if_pos rfl]
        cases lastRead ended reader.name <;> rfl
      · rw [filter_putByName_of_ne _ hname, ih, if_neg hname]

/-- By names: whatever was read last of a name is the blob of its first file. -/
theorem readAttached_iff :
    ReadAttached files ended ↔ ∀ name bytes, lastRead ended name = some bytes →
      ∃ file, (files.filter fun current => current.name = name).head? = some file ∧
        file.blob = some bytes := by
  constructor
  · intro h name bytes hlast
    obtain ⟨file, hfind, hblob⟩ := h _ (mem_of_lastRead hlast)
    rw [List.head?_filter]
    exact ⟨file, hfind, hblob.trans hlast⟩
  · intro h reader hreader
    cases hlast : lastRead ended reader.name with
    | none => exact absurd rfl (lastRead_eq_none_iff.mp hlast reader hreader)
    | some bytes =>
        obtain ⟨file, hfind, hblob⟩ := h _ _ hlast
        rw [List.head?_filter] at hfind
        exact ⟨file, hfind, hblob⟩

theorem filter_map_entry (files : List AttachedFile) (name : String) :
    (files.map AttachedFile.entry).filter (fun entry => entry.name = name) =
      (files.filter fun file => file.name = name).map AttachedFile.entry :=
  List.filter_map ..

/-- A name of which no reader has ended: its files are on the server. -/
theorem map_entry_of_no_blob {files : List AttachedFile}
    (h : ∀ file ∈ files, file.blob = none) :
    files.map AttachedFile.entry = files.map fun file => { name := file.name, bytes := [] } := by
  refine List.map_congr_left fun file hfile => ?_
  rw [AttachedFile.entry, h file hfile]
  rfl

/-- The entries are those of the attached files exactly if what was read last of each name is
the blob of its first file. -/
theorem entriesBehind_perm_iff (hfirst : BlobsFirst files)
    (hread : ∀ file ∈ files, ∀ bytes, file.blob = some bytes →
      { name := file.name, bytes := bytes } ∈ ended)
    (hne : ∀ reader ∈ ended, reader.bytes ≠ []) :
    (entriesBehind files ended).Perm (files.map AttachedFile.entry) ↔
      ReadAttached files ended := by
  by_cases hnil : files = []
  · subst hnil
    rw [entriesBehind, if_pos rfl, List.map_nil, List.perm_nil, readAttached_iff]
    cases ended using List.reverseRecOn with
    | nil => simp [lastRead]
    | append_singleton ended reader =>
        refine iff_of_false (by simp) fun h => ?_
        obtain ⟨file, hfile, -⟩ := h reader.name reader.bytes (by simp [lastRead_snoc])
        cases hfile
  rw [entriesBehind, if_neg hnil, readAttached_iff]
  have hentries : ∀ name,
      ((ended.foldl (putByName FileProperties.name)
          (files.map fun file => { name := file.name, bytes := [] })).filter
            fun entry => entry.name = name).Perm
        ((files.map AttachedFile.entry).filter fun entry => entry.name = name) ↔
      ∀ bytes, lastRead ended name = some bytes →
        ∃ file, (files.filter fun current => current.name = name).head? = some file ∧
          file.blob = some bytes := by
    intro name
    have hempty : (files.map fun file => { name := file.name, bytes := [] }).filter
        (fun entry : FileProperties => entry.name = name) =
          (files.filter fun file => file.name = name).map
            fun file => { name := file.name, bytes := [] } := List.filter_map ..
    have htail := hfirst name
    rw [filter_foldl_putByName, filter_map_entry, hempty]
    cases hlast : lastRead ended name with
    | none =>
        refine iff_of_true ?_ (fun bytes h => by cases h)
        rw [map_entry_of_no_blob fun file hfile => ?_]
        obtain ⟨hmem, hname⟩ := List.mem_filter.mp hfile
        cases hblob : file.blob with
        | none => rfl
        | some bytes =>
            refine absurd (of_decide_eq_true hname) ?_
            exact lastRead_eq_none_iff.mp hlast _ (hread file hmem bytes hblob)
    | some bytes =>
        cases hfiles : files.filter fun file => file.name = name with
        | nil => exact iff_of_false (by simp) (by simp)
        | cons file rest =>
            rw [hfiles, List.tail_cons] at htail
            have hname : file.name = name := by
              have hmem : file ∈ files.filter fun file => file.name = name :=
                hfiles ▸ List.mem_cons_self
              exact of_decide_eq_true (List.mem_filter.mp hmem).2
            have hbytes := hne _ (mem_of_lastRead hlast)
            simp only [List.map_cons, List.tail_cons, List.head?_cons, Option.some.injEq]
            rw [map_entry_of_no_blob htail, perm_cons_same_iff]
            constructor
            · rintro hsame _ rfl
              refine ⟨file, rfl, ?_⟩
              have hread : bytes = file.blob.getD [] := congrArg FileProperties.bytes hsame
              cases hblob : file.blob with
              | none => rw [hblob] at hread; exact absurd hread hbytes
              | some read => rw [hread, hblob]; rfl
            · intro h
              obtain ⟨_, rfl, hblob⟩ := h bytes rfl
              simp [AttachedFile.entry, hname, hblob]
  constructor
  · exact fun hperm name => (hentries name).mp (hperm.filter _)
  · exact fun h => perm_of_filter_name fun name => (hentries name).mpr (h name)

end

/-! ## The states of a run -/

/-- A loaded file was not rejected. -/
def Accepted (maxFileSize : Nat) : LoadedFile → Prop
  | .initial _ => True
  | .added file => file.tooLarge maxFileSize = false ∧ file.isEmpty = false

/-- The files are the attached ones, and the entries are those behind the last change; the
readers of the attached files are under way or have ended. -/
structure Tracks (maxFileSize : Nat) (files : List AttachedFile) (ended : List FileProperties)
    (s : ManagedFileLoader) : Prop where
  loaded : s.loaded = true
  same : s.loadedFiles.map LoadedFile.attachedFile = files
  accepted : ∀ file ∈ s.loadedFiles, Accepted maxFileSize file
  blobsFirst : BlobsFirst files
  entries : s.currentFiles = entriesBehind files ended
  started : ∀ file ∈ files, ∀ bytes, file.blob = some bytes →
    { name := file.name, bytes := bytes } ∈ s.readers ∨
      { name := file.name, bytes := bytes } ∈ ended
  content : ∀ reader, reader ∈ s.readers ∨ reader ∈ ended → reader.bytes ≠ []

section

variable {maxFileSize : Nat} {files : List AttachedFile} {ended : List FileProperties}
  {s t : ManagedFileLoader}

theorem blobsFirst_putByName (h : BlobsFirst files) (file : AttachedFile) :
    BlobsFirst (putByName AttachedFile.name files file) := by
  intro name current hcurrent
  by_cases hname : file.name = name
  · subst hname
    rw [filter_putByName_self] at hcurrent
    exact h file.name current hcurrent
  · rw [filter_putByName_of_ne _ hname] at hcurrent
    exact h name current hcurrent

theorem blobsFirst_filter (h : BlobsFirst files) (removed : String) :
    BlobsFirst (files.filter fun current => current.name ≠ removed) := by
  intro name file hfile
  rw [List.filter_filter] at hfile
  by_cases hname : name = removed
  · subst hname
    rw [List.filter_eq_nil_iff.mpr (by simp +contextual)] at hfile
    cases hfile
  · have hsame : ∀ current ∈ files,
        (decide (current.name = name) && decide (current.name ≠ removed)) =
          decide (current.name = name) := by
      intro current _
      by_cases h : current.name = name <;> simp [h, hname]
    rw [List.filter_congr hsame] at hfile
    exact h name file hfile

theorem mem_putByName {α : Type} {name : α → String} {xs : List α} {x y : α}
    (h : y ∈ putByName name xs x) : y = x ∨ y ∈ xs := by
  rw [putByName] at h
  split at h
  · rcases List.mem_append.mp h with hy | hy
    · exact .inr hy
    · exact .inl (List.mem_singleton.mp hy)
  · rcases List.mem_or_eq_of_mem_set h with hy | hy
    · exact .inr hy
    · exact .inl hy

/-- A rejected file is not among the loaded ones. -/
theorem filter_rejected {loadedFiles : List LoadedFile} {file : PondFile}
    (haccepted : ∀ current ∈ loadedFiles, Accepted maxFileSize current)
    (hrejected : ¬ Accepted maxFileSize (.added file)) :
    loadedFiles.filter (fun current => current ≠ .added file) = loadedFiles := by
  rw [List.filter_eq_self]
  intro current hcurrent
  refine decide_eq_true fun hsame => hrejected ?_
  rw [← hsame]
  exact haccepted current hcurrent

/-- The readers that are started are those of the blobs. -/
theorem mem_readersOf_iff {loadedFiles : List LoadedFile} {reader : FileProperties} :
    reader ∈ ManagedFileLoader.readersOf loadedFiles ↔
      ∃ file ∈ loadedFiles.map LoadedFile.attachedFile,
        file.blob = some reader.bytes ∧ file.name = reader.name := by
  constructor
  · intro h
    obtain ⟨file, hfile, hreader⟩ := List.mem_filterMap.mp h
    obtain ⟨bytes, hblob, rfl⟩ := Option.map_eq_some_iff.mp hreader
    exact ⟨file.attachedFile, List.mem_map_of_mem hfile, hblob, rfl⟩
  · rintro ⟨_, hfile, hblob, hname⟩
    obtain ⟨file, hmem, rfl⟩ := List.mem_map.mp hfile
    refine List.mem_filterMap.mpr ⟨file, hmem, Option.map_eq_some_iff.mpr ⟨reader.bytes, hblob, ?_⟩⟩
    rw [show file.filename = reader.name from hname]

/-- An accepted blob has bytes. -/
theorem bytes_of_accepted {file : LoadedFile} (h : Accepted maxFileSize file)
    {bytes : List UInt8} (hblob : file.blob = some bytes) : bytes ≠ [] := by
  rintro rfl
  match file, hblob with
  | .added ⟨_, .blob _⟩, hblob =>
      cases hblob
      simp [Accepted, PondFile.isEmpty, PondFile.fileSize] at h

/-- Behind `updateFiles` no reader has ended. -/
theorem tracks_updateFiles (hloaded : s.loaded = true)
    (hfiles : s.loadedFiles.map LoadedFile.attachedFile = files)
    (haccepted : ∀ file ∈ s.loadedFiles, Accepted maxFileSize file)
    (hfirst : BlobsFirst files) (hcontent : ∀ reader ∈ s.readers, reader.bytes ≠ []) :
    Tracks maxFileSize files [] s.updateFiles := by
  by_cases hnil : s.loadedFiles = []
  · have hnone : files = [] := by rw [← hfiles, hnil, List.map_nil]
    subst hnone
    rw [ManagedFileLoader.updateFiles, if_pos hnil]
    refine ⟨hloaded, hfiles, haccepted, hfirst, rfl, by simp, ?_⟩
    rintro reader (hreader | hreader)
    · exact hcontent reader hreader
    · cases hreader
  · have hne : files ≠ [] := by
      rw [← hfiles]
      simpa using hnil
    rw [ManagedFileLoader.updateFiles, if_neg hnil]
    refine ⟨hloaded, hfiles, haccepted, hfirst, ?_, ?_, ?_⟩
    · rw [entriesBehind, if_neg hne, List.foldl_nil, ← hfiles, List.map_map]
      rfl
    · intro file hfile bytes hblob
      refine .inl (List.mem_append_right _ (mem_readersOf_iff.mpr ⟨file, ?_, hblob, rfl⟩))
      rwa [hfiles]
    · rintro reader (hreader | hreader)
      · rcases List.mem_append.mp hreader with hold | hnew
        · exact hcontent reader hold
        · obtain ⟨file, hfile, hread⟩ := List.mem_filterMap.mp hnew
          obtain ⟨bytes, hblob, rfl⟩ := Option.map_eq_some_iff.mp hread
          exact bytes_of_accepted (haccepted file hfile) hblob
      · cases hreader

theorem endedBehind_newFile (ended : List FileProperties) (error : Bool) (file : PondFile) :
    endedBehind maxFileSize ended (.newFile error (some file)) =
      if attachable maxFileSize error file then [] else ended :=
  rfl

/-- A file that cannot be attached leaves the loader as it is. -/
theorem attachFile_rejected (haccepted : ∀ current ∈ s.loadedFiles, Accepted maxFileSize current)
    {error : Bool} {file : PondFile} (hrejected : attachable maxFileSize error file = false) :
    s.attachFile maxFileSize error (some file) = s := by
  have hsame : ¬ Accepted maxFileSize (.added file) →
      { s with loadedFiles := s.loadedFiles.filter fun current => current ≠ .added file } = s :=
    fun h => by rw [filter_rejected haccepted h]
  rw [ManagedFileLoader.attachFile]
  split
  · rfl
  split
  next hlarge => exact hsame fun h => by simp [h.1] at hlarge
  split
  next hempty => exact hsame fun h => by simp [h.2] at hempty
  next herror hlarge hempty => simp [attachable, herror, hlarge, hempty] at hrejected

theorem tracks_attachFile (h : Tracks maxFileSize files ended s) {error : Bool}
    {file : Option PondFile} :
    Tracks maxFileSize (attach maxFileSize files (.newFile error file))
      (endedBehind maxFileSize ended (.newFile error file))
      (s.attachFile maxFileSize error file) := by
  cases file with
  | none => exact h
  | some file =>
      rw [attach, endedBehind_newFile]
      by_cases hattach : attachable maxFileSize error file = true
      · obtain ⟨⟨rfl, hlarge⟩, hempty⟩ :
            (error = false ∧ file.tooLarge maxFileSize = false) ∧ file.isEmpty = false := by
          simpa [attachable] using hattach
        rw [if_pos hattach, if_pos hattach]
        have hput : s.attachFile maxFileSize false (some file) =
            { s with
              loadedFiles :=
                putByName LoadedFile.filename s.loadedFiles (.added file) }.updateFiles := by
          simp [ManagedFileLoader.attachFile, hlarge, hempty]
        rw [hput]
        refine tracks_updateFiles h.loaded ?_ ?_ (blobsFirst_putByName h.blobsFirst _)
          fun reader hreader => h.content reader (.inl hreader)
        · rw [← h.same]
          exact @map_putByName _ _ LoadedFile.filename AttachedFile.name
            LoadedFile.attachedFile (fun _ => rfl) _ _
        · intro current hcurrent
          rcases mem_putByName hcurrent with rfl | hcurrent
          · exact ⟨hlarge, hempty⟩
          · exact h.accepted current hcurrent
      · rw [if_neg hattach, if_neg hattach, attachFile_rejected h.accepted (by simpa using hattach)]
        exact h

theorem tracks_beforeRemoveFile (h : Tracks maxFileSize files ended s) {file : Option PondFile} :
    Tracks maxFileSize (attach maxFileSize files (.remove file))
      (endedBehind maxFileSize ended (.remove file)) (s.beforeRemoveFile file) := by
  cases file with
  | none => exact h
  | some file =>
      refine tracks_updateFiles h.loaded ?_ ?_ (blobsFirst_filter h.blobsFirst _)
        fun reader hreader => h.content reader (.inl hreader)
      · rw [← h.same, attach, List.filter_map]
        rfl
      · exact fun current hcurrent => h.accepted current (List.mem_filter.mp hcurrent).1

theorem tracks_clearFiles (h : Tracks maxFileSize files ended s) :
    Tracks maxFileSize [] [] s.clearFiles := by
  refine ⟨h.loaded, rfl, fun file hfile => ?_, fun name file hfile => ?_, rfl, fun file hfile => ?_,
    ?_⟩
  · cases hfile
  · cases hfile
  · cases hfile
  · rintro reader (hreader | hreader)
    · exact h.content reader (.inl hreader)
    · cases hreader

/-- A reader ends: its entry is put by its name. -/
theorem tracks_onLoadEnd (h : Tracks maxFileSize files ended s) {reader : FileProperties}
    (hreader : reader ∈ s.readers) :
    Tracks maxFileSize files (ended ++ [reader])
      ({ s with readers := s.readers.erase reader }.onLoadEnd reader) := by
  have hbytes := h.content reader (.inl hreader)
  have hcontent : ∀ other, other ∈ s.readers.erase reader ∨ other ∈ ended ++ [reader] →
      other.bytes ≠ [] := by
    rintro other (hother | hother)
    · exact h.content other (.inl (List.mem_of_mem_erase hother))
    · rcases List.mem_append.mp hother with hold | hlast
      · exact h.content other (.inr hold)
      · rwa [List.mem_singleton.mp hlast]
  have hstarted : ∀ file ∈ files, ∀ bytes, file.blob = some bytes →
      { name := file.name, bytes := bytes } ∈ s.readers.erase reader ∨
        { name := file.name, bytes := bytes } ∈ ended ++ [reader] := by
    intro file hfile bytes hblob
    rcases h.started file hfile bytes hblob with hrunning | hended
    · by_cases hsame : { name := file.name, bytes := bytes } = reader
      · exact .inr (List.mem_append_right _ (List.mem_singleton.mpr hsame))
      · exact .inl ((List.mem_erase_of_ne hsame).mpr hrunning)
    · exact .inr (List.mem_append_left _ hended)
  rw [ManagedFileLoader.onLoadEnd, if_neg hbytes, ManagedFileLoader.addFile]
  by_cases hnil : s.loadedFiles = []
  · have hnone : files = [] := by rw [← h.same, hnil, List.map_nil]
    subst hnone
    rw [if_pos hnil]
    refine ⟨h.loaded, h.same, h.accepted, h.blobsFirst, ?_, hstarted, hcontent⟩
    rw [entriesBehind, if_pos rfl, List.getLast?_concat]
    rfl
  · have hne : files ≠ [] := by
      rw [← h.same]
      simpa using hnil
    rw [if_neg hnil]
    refine ⟨h.loaded, h.same, h.accepted, h.blobsFirst, ?_, hstarted, hcontent⟩
    have hentries := h.entries
    rw [entriesBehind, if_neg hne] at hentries ⊢
    rw [List.foldl_append, ← hentries]
    rfl

theorem Tracks.step (h : Tracks maxFileSize files ended s) {event : FileLoaderEvent}
    (hstep : s.step maxFileSize event = some t) :
    Tracks maxFileSize (attach maxFileSize files event) (endedBehind maxFileSize ended event) t := by
  cases event with
  | newFile error file =>
      cases hstep
      rw [ManagedFileLoader.onNewFile, if_pos h.loaded]
      exact tracks_attachFile h
  | remove file =>
      cases hstep
      exact tracks_beforeRemoveFile h
  | clear =>
      cases hstep
      exact tracks_clearFiles h
  | loadEnd reader =>
      simp only [ManagedFileLoader.step] at hstep
      split at hstep
      · rename_i hreader
        cases hstep
        exact tracks_onLoadEnd h hreader
      · cases hstep

theorem tracks_of_run (h : Tracks maxFileSize files [] s) {events : List FileLoaderEvent}
    (hrun : run (ManagedFileLoader.step maxFileSize) s events = some t) :
    Tracks maxFileSize (events.foldl (attach maxFileSize) files)
      (endedSinceChange maxFileSize events) t := by
  induction events using List.reverseRecOn generalizing t with
  | nil =>
      cases hrun
      exact h
  | append_singleton events event ih =>
      obtain ⟨u, hu, hstep⟩ := run_snoc_inv hrun
      rw [endedSinceChange, List.foldl_append, List.foldl_append]
      exact (ih hu).step hstep

/-- A default file that is reported as a stub stays as it is. -/
theorem putByName_default {names : List String} {name : String} (h : name ∈ names) :
    putByName AttachedFile.name (names.map fun name => ⟨name, none⟩) ⟨name, none⟩ =
      names.map fun name => ⟨name, none⟩ := by
  induction names with
  | nil => cases h
  | cons first names ih =>
      rw [List.map_cons, putByName_cons]
      by_cases hsame : first = name
      · rw [if_pos hsame, hsame]
      · have hmem := List.mem_of_ne_of_mem (Ne.symm hsame) h
        rw [if_neg hsame, ih hmem]

theorem run_reports {defaultFileNames : List String} {reports : List FileLoaderEvent}
    (hlength : reports.length < defaultFileNames.length)
    (hreports : ∀ report ∈ reports, ∃ error file, report = .newFile error file) :
    run (ManagedFileLoader.step maxFileSize) (ManagedFileLoader.fileLoader defaultFileNames)
        reports =
      some { ManagedFileLoader.fileLoader defaultFileNames with
        loadedFilesCount := reports.length } := by
  induction reports using List.reverseRecOn with
  | nil => rfl
  | append_singleton reports report ih =>
      obtain ⟨error, file, rfl⟩ := hreports report (List.mem_append_right _ List.mem_cons_self)
      rw [List.length_append, List.length_singleton] at hlength
      have hbefore := ih (by omega) fun other hother => hreports other (List.mem_append_left _ hother)
      have hnotLoaded : defaultFileNames.isEmpty = false := by
        cases defaultFileNames with
        | nil => simp at hlength
        | cons _ _ => rfl
      have hmore : ¬ reports.length + 1 = defaultFileNames.length := by omega
      rw [run_append, hbefore, Option.bind_some]
      simp [run, ManagedFileLoader.step, ManagedFileLoader.onNewFile,
        ManagedFileLoader.fileLoader, hnotLoaded, hmore]

/-- The reports of the default files leave their entries without bytes. -/
theorem tracks_of_reports {defaultFileNames : List String} {reports : List FileLoaderEvent}
    (hreports : ReportsDefaults defaultFileNames reports)
    (hrun : run (ManagedFileLoader.step maxFileSize)
      (ManagedFileLoader.fileLoader defaultFileNames) reports = some s) :
    Tracks maxFileSize (defaultFileNames.map fun name => ⟨name, none⟩) [] s := by
  have hnone : ∀ file ∈ defaultFileNames.map fun name => AttachedFile.mk name none,
      file.blob = none := by
    intro file hfile
    obtain ⟨name, -, rfl⟩ := List.mem_map.mp hfile
    rfl
  have hstart : ∀ count, Tracks maxFileSize (defaultFileNames.map fun name => ⟨name, none⟩) []
      { ManagedFileLoader.fileLoader defaultFileNames with
        loaded := true
        loadedFilesCount := count } := by
    intro count
    refine ⟨rfl, ?_, ?_, ?_, ?_, ?_, ?_⟩
    · simp [ManagedFileLoader.fileLoader, LoadedFile.attachedFile, LoadedFile.filename,
        LoadedFile.blob, Function.comp_def]
    · intro file hfile
      obtain ⟨name, -, rfl⟩ := List.mem_map.mp hfile
      trivial
    · intro name file hfile
      exact hnone file (List.mem_filter.mp (List.mem_of_mem_tail hfile)).1
    · cases defaultFileNames with
      | nil => rfl
      | cons _ _ => simp [ManagedFileLoader.fileLoader, entriesBehind, Function.comp_def]
    · intro file hfile bytes hblob
      rw [hnone file hfile] at hblob
      cases hblob
    · rintro reader (hreader | hreader) <;> cases hreader
  rcases List.eq_nil_or_concat' reports with rfl | ⟨front, last, rfl⟩
  · have hnil : defaultFileNames = [] := List.length_eq_zero_iff.mp hreports.count.symm
    subst hnil
    cases hrun
    exact hstart 0
  · obtain ⟨error, file, rfl, hstub⟩ :=
      hreports.stubs last (List.mem_append_right _ List.mem_cons_self)
    have hcount := hreports.count
    rw [List.length_append, List.length_singleton] at hcount
    have hfront : run (ManagedFileLoader.step maxFileSize)
        (ManagedFileLoader.fileLoader defaultFileNames) front =
          some { ManagedFileLoader.fileLoader defaultFileNames with
            loadedFilesCount := front.length } := by
      refine run_reports (by omega) fun report hreport => ?_
      obtain ⟨error, file, hsame, -⟩ := hreports.stubs report (List.mem_append_left _ hreport)
      exact ⟨error, file, hsame⟩
    obtain ⟨t, ht, hlast⟩ := run_snoc_inv hrun
    cases hfront.symm.trans ht
    have hnotLoaded : defaultFileNames.isEmpty = false := by
      cases defaultFileNames with
      | nil => simp at hcount
      | cons _ _ => rfl
    have hs : s = { ManagedFileLoader.fileLoader defaultFileNames with
        loaded := true
        loadedFilesCount := defaultFileNames.length }.attachFile maxFileSize error file := by
      simpa [ManagedFileLoader.step, ManagedFileLoader.onNewFile, ManagedFileLoader.fileLoader,
        hnotLoaded, hcount] using hlast.symm
    have htracks : Tracks maxFileSize
        (attach maxFileSize (defaultFileNames.map fun name => ⟨name, none⟩) (.newFile error file))
        (endedBehind maxFileSize [] (.newFile error file)) s := by
      rw [hs]
      exact tracks_attachFile (hstart defaultFileNames.length)
    cases file with
    | none => exact htracks
    | some file =>
        obtain ⟨hname, size, hsize⟩ := hstub file rfl
        rw [endedBehind_newFile, ite_self] at htracks
        have hattach : attach maxFileSize (defaultFileNames.map fun name => ⟨name, none⟩)
            (.newFile error (some file)) = defaultFileNames.map fun name => ⟨name, none⟩ := by
          obtain ⟨filename, content⟩ := file
          subst hsize
          rw [attach]
          split
          · exact putByName_default hname
          · rfl
        rwa [hattach] at htracks

end

/-- When all readers have ended, there are exactly the entries of the attached files if and
only if the readers that have ended behind the last change were of attached files, and the last
one of each name has read the attached version. -/
theorem files_exactly_iff (maxFileSize : Nat) {defaultFileNames : List String}
    {reports : List FileLoaderEvent} (hreports : ReportsDefaults defaultFileNames reports)
    (events : List FileLoaderEvent) {s : ManagedFileLoader}
    (hrun : run (ManagedFileLoader.step maxFileSize)
      (ManagedFileLoader.fileLoader defaultFileNames) (reports ++ events) = some s)
    (hended : s.readers = []) :
    s.currentFiles.Perm
        ((attached maxFileSize defaultFileNames events).map AttachedFile.entry) ↔
      ReadAttached (attached maxFileSize defaultFileNames events)
        (endedSinceChange maxFileSize events) := by
  rw [run_append, Option.bind_eq_some_iff] at hrun
  obtain ⟨t, ht, hrun⟩ := hrun
  have htracks := tracks_of_run (tracks_of_reports hreports ht) hrun
  rw [htracks.entries]
  refine entriesBehind_perm_iff htracks.blobsFirst ?_ fun reader hreader =>
    htracks.content reader (.inr hreader)
  intro file hfile bytes hblob
  rcases htracks.started file hfile bytes hblob with hrunning | hread
  · rw [hended] at hrunning
    cases hrunning
  · exact hread

/-- A default file and a file that is attached in two versions. -/
def twoVersions : List FileLoaderEvent :=
  [.newFile false (some ⟨"a", .blob [1]⟩), .loadEnd ⟨"a", [1]⟩,
    .newFile false (some ⟨"a", .blob [2]⟩), .loadEnd ⟨"a", [2]⟩]

theorem files_exactly_iff_two_versions :
    ∃ s, run (ManagedFileLoader.step 10) (ManagedFileLoader.fileLoader ["conf"])
          ([.newFile false (some ⟨"conf", .stub none⟩)] ++ twoVersions) = some s ∧
      (s.currentFiles.Perm ((attached 10 ["conf"] twoVersions).map AttachedFile.entry) ↔
        ReadAttached (attached 10 ["conf"] twoVersions) (endedSinceChange 10 twoVersions)) := by
  have hreports : ReportsDefaults ["conf"] [.newFile false (some ⟨"conf", .stub none⟩)] := by
    refine ⟨rfl, fun report hreport => ?_⟩
    rw [List.mem_singleton.mp hreport]
    refine ⟨false, _, rfl, ?_⟩
    rintro _ ⟨⟩
    exact ⟨List.mem_cons_self, none, rfl⟩
  exact ⟨_, rfl, files_exactly_iff 10 hreports twoVersions rfl (by decide)⟩

/-- The reader of a file ends behind its removal: its entry is there again. -/
theorem removed_file_back :
    ∃ s, run (ManagedFileLoader.step 10) (ManagedFileLoader.fileLoader [])
        [.newFile false (some ⟨"a", .blob [1]⟩), .remove (some ⟨"a", .blob [1]⟩),
          .loadEnd ⟨"a", [1]⟩] = some s ∧
      s.readers = [] ∧ s.loadedFiles = [] ∧ s.currentFiles = [⟨"a", [1]⟩] ∧
      ¬ s.currentFiles.Perm ((attached 10 []
        [.newFile false (some ⟨"a", .blob [1]⟩), .remove (some ⟨"a", .blob [1]⟩),
          .loadEnd ⟨"a", [1]⟩]).map AttachedFile.entry) :=
  ⟨_, rfl, by decide, rfl, rfl, by decide⟩

end ArtPlatform.Web
