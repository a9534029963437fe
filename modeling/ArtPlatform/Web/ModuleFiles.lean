import ArtPlatform.Foundation.EventRun
import ArtPlatform.ManagementPanel.Entities
import Mathlib.Data.List.Nodup
import Mathlib.Data.List.Perm.Basic

/-!
# The files of a module under installation

Installing, updating and cloning a module go the same way: identifiers are allocated for its
new files, the operation is started with the identifiers, the files are filled, and the
module is processed when the last one is.  The server answers in any order.

Main results:

- Theorem `reached_of_run`: what has been asked, answered and called in every state.
- Theorem `signals_of_answered`: what a module operation has done when every request is
  answered.
-/

namespace ArtPlatform.Web

open EventRun

structure ModuleFile where
  name : String
  bytes : List UInt8
deriving DecidableEq, Repr

/-- The draft of a configuration; the fields that are only handed on are kept together. -/
structure ModuleConfigurationDraft (C : Type) where
  name : Option String := none
  artifact : AssembledArtifact
  others : C
  additionalFiles : Option (List ModuleFile)

/-- The configuration in a request: the files are replaced by their identifiers. -/
structure ModuleConfiguration (C : Type) where
  name : Option String
  artifact : AssembledArtifact
  others : C
  additionalFiles : List PlatformFileIdentifier
deriving DecidableEq

/-- `{...configuration, additionalFiles}` -/
def ModuleConfigurationDraft.withFiles {C : Type} (configuration : ModuleConfigurationDraft C)
    (additionalFiles : List PlatformFileIdentifier) : ModuleConfiguration C where
  name := configuration.name
  artifact := configuration.artifact
  others := configuration.others
  additionalFiles := additionalFiles

def ModuleConfigurationDraft.files {C : Type} (configuration : ModuleConfigurationDraft C) :
    List ModuleFile :=
  configuration.additionalFiles.getD []

/-- `startModuleInstallation` is given a name or leaves it to the configuration. -/
structure ModuleInstallationRequest (C : Type) where
  projectId : Nat
  name : Option String := none
  configuration : ModuleConfiguration C
deriving DecidableEq

structure ModuleUpdateRequest (C : Type) where
  moduleId : Nat
  newModuleConfiguration : ModuleConfiguration C
deriving DecidableEq

/-- The module that is updated or cloned, as far as the services read it. -/
structure BaseModule where
  id : Nat
  projectId : Nat
  additionalFiles : Option (List PlatformFileIdentifier)
deriving DecidableEq, Repr

def BaseModule.files (baseModule : BaseModule) : List PlatformFileIdentifier :=
  baseModule.additionalFiles.getD []

structure AllocatedModuleFile where
  id : PlatformFileIdentifier
  bytes : Option (List UInt8)
deriving DecidableEq, Repr

/-- `uploadFile` and `cloneFile`; an identifier that is not there is `undefined`. -/
inductive ModuleFileCall
  | upload (id : Option PlatformFileIdentifier) (bytes : List UInt8)
  | clone (currentFileId : Option PlatformFileIdentifier) (newFileId : PlatformFileIdentifier)
deriving DecidableEq, Repr

/-- The server cannot clone a file without an identifier. -/
def ModuleFileCall.fails : ModuleFileCall → Bool
  | .clone none _ => true
  | _ => false

/-- What the services tell the server, and what it answers. -/
inductive ModuleFilesSignal (R M : Type)
  | allocate (name : String)
  | allocated (id : PlatformFileIdentifier)
  | start (request : R)
  | call (call : ModuleFileCall)
  | done (call : ModuleFileCall)
  | failed (call : ModuleFileCall)
  | process (module : M)
deriving DecidableEq, Repr

/-- What the services differ in: the identifiers that are there before, the names for which
new ones are allocated, the test that all have been, the request, and the calls that fill
the files, with the number of answers that are waited for. -/
structure ModuleFilesFlow (R : Type) where
  additionalFiles : List PlatformFileIdentifier
  newFiles : List String
  allAllocated : List PlatformFileIdentifier → Nat → Bool
  request : List PlatformFileIdentifier → R
  calls : List PlatformFileIdentifier → List ModuleFileCall
  expectedFilesCount : List PlatformFileIdentifier → Nat
  allAllocated_iff : ∀ ids : List PlatformFileIdentifier,
    allAllocated (additionalFiles ++ ids) ids.length = true ↔ ids.length = newFiles.length
  calls_le : ∀ ids, (calls ids).length ≤ expectedFilesCount ids

/-- The variables of the callbacks, and the requests that are not answered. -/
structure ModuleFilesRun (R M : Type) where
  additionalFiles : List PlatformFileIdentifier
  allocatedFilesCount : Nat := 0
  uploadedFilesCount : Nat := 0
  module : Option M := none
  allocating : List String
  starting : Bool := false
  calling : List ModuleFileCall := []
  signals : List (ModuleFilesSignal R M)

/-- The answers of the server: an identifier for a name, the started module, and the end of
a call. -/
inductive ModuleFilesEvent (M : Type)
  | allocated (name : String) (id : Nat)
  | started (module : M)
  | answered (call : ModuleFileCall)
deriving DecidableEq, Repr

namespace ModuleFilesFlow

variable {R M : Type} (flow : ModuleFilesFlow R)

/-- `onComplete` of `allocateFiles`: the operation is started. -/
def complete (s : ModuleFilesRun R M) : ModuleFilesRun R M :=
  { s with
    starting := true
    signals := s.signals ++ [.start (flow.request s.additionalFiles)] }

/-- `allocateFiles` -/
def begin : ModuleFilesRun R M :=
  let s : ModuleFilesRun R M :=
    { additionalFiles := flow.additionalFiles
      allocating := flow.newFiles
      signals := flow.newFiles.map .allocate }
  if flow.newFiles = [] then flow.complete s else s

def onAllocated (s : ModuleFilesRun R M) (id : PlatformFileIdentifier) : ModuleFilesRun R M :=
  let pushed := { s with
    additionalFiles := s.additionalFiles ++ [id]
    allocatedFilesCount := s.allocatedFilesCount + 1
    allocating := s.allocating.erase id.name
    signals := s.signals ++ [.allocated id] }
  if flow.allAllocated pushed.additionalFiles pushed.allocatedFilesCount then
    flow.complete pushed
  else pushed

def onStarted (s : ModuleFilesRun R M) (module : M) : ModuleFilesRun R M :=
  let started := { s with starting := false, module := some module }
  if flow.expectedFilesCount s.additionalFiles = 0 then
    { started with signals := s.signals ++ [.process module] }
  else
    { started with
      calling := flow.calls s.additionalFiles
      signals := s.signals ++ (flow.calls s.additionalFiles).map .call }

def onFilled (s : ModuleFilesRun R M) (module : M) (call : ModuleFileCall) :
    ModuleFilesRun R M :=
  let counted := { s with
    uploadedFilesCount := s.uploadedFilesCount + 1
    calling := s.calling.erase call
    signals := s.signals ++ [.done call] }
  if counted.uploadedFilesCount = flow.expectedFilesCount s.additionalFiles then
    { counted with signals := counted.signals ++ [.process module] }
  else counted

/-- An answer to a request under way.  The answer to a call that fails is an error, which no
callback of the services handles. -/
def step (s : ModuleFilesRun R M) : ModuleFilesEvent M → Option (ModuleFilesRun R M)
  | .allocated name id =>
      if name ∈ s.allocating then some (flow.onAllocated s ⟨id, name⟩) else none
  | .started module => if s.starting then some (flow.onStarted s module) else none
  | .answered call =>
      match s.module with
      | none => none
      | some module =>
          if call ∈ s.calling then
            if call.fails then
              some { s with
                calling := s.calling.erase call
                signals := s.signals ++ [.failed call] }
            else some (flow.onFilled s module call)
          else none

end ModuleFilesFlow

namespace ModuleFilesRun

variable {R M : Type}

/-- Every request is answered. -/
def Answered (s : ModuleFilesRun R M) : Prop :=
  s.allocating = [] ∧ s.starting = false ∧ s.calling = []

instance (s : ModuleFilesRun R M) : Decidable s.Answered :=
  inferInstanceAs (Decidable (_ ∧ _))

end ModuleFilesRun

/-! ## What a run shows -/

section

variable {R M : Type}

def startRequests (signals : List (ModuleFilesSignal R M)) : List R :=
  signals.filterMap fun
    | .start request => some request
    | _ => none

def callsMade (signals : List (ModuleFilesSignal R M)) : List ModuleFileCall :=
  signals.filterMap fun
    | .call call => some call
    | _ => none

def callsDone (signals : List (ModuleFilesSignal R M)) : List ModuleFileCall :=
  signals.filterMap fun
    | .done call => some call
    | _ => none

def callsFailed (signals : List (ModuleFilesSignal R M)) : List ModuleFileCall :=
  signals.filterMap fun
    | .failed call => some call
    | _ => none

def modulesProcessed (signals : List (ModuleFilesSignal R M)) : List M :=
  signals.filterMap fun
    | .process module => some module
    | _ => none

def idsAllocated (signals : List (ModuleFilesSignal R M)) : List PlatformFileIdentifier :=
  signals.filterMap fun
    | .allocated id => some id
    | _ => none

/-- The identifier that was allocated for a name. -/
def allocatedFor (signals : List (ModuleFilesSignal R M)) (name : String) :
    Option PlatformFileIdentifier :=
  (idsAllocated signals).find? fun id => id.name = name

/-- One module is processed, behind the last of the calls. -/
def ProcessedOnce (signals : List (ModuleFilesSignal R M)) : Prop :=
  ∃ before module, signals = before ++ [.process module] ∧ modulesProcessed before = [] ∧
    (callsDone before).Perm (callsMade signals)

/-- The identifiers in the order in which they are allocated. -/
def allocatedIds (events : List (ModuleFilesEvent M)) : List PlatformFileIdentifier :=
  events.filterMap fun
    | .allocated name id => some ⟨id, name⟩
    | _ => none

end

/-! ## Files by name -/

/-- The bytes of the file with a name. -/
def bytesOf (files : List ModuleFile) (name : String) : Option (List UInt8) :=
  (files.find? fun file => file.name = name).map ModuleFile.bytes

/-- The identifiers, with the bytes of the configured files of their names. -/
def allocatedFiles (files : List ModuleFile) (ids : List PlatformFileIdentifier) :
    List AllocatedModuleFile :=
  ids.map fun id => { id := id, bytes := bytesOf files id.name }

theorem find?_of_nodup {α : Type} {name : α → String} {xs : List α} (h : (xs.map name).Nodup)
    {x : α} (hx : x ∈ xs) : xs.find? (fun y => name y = name x) = some x := by
  cases hfind : xs.find? fun y => name y = name x with
  | none => exact absurd (decide_eq_true rfl) (List.find?_eq_none.mp hfind x hx)
  | some y =>
      have hsame : name y = name x := by simpa using List.find?_some hfind
      rw [List.inj_on_of_nodup_map h (List.mem_of_find?_eq_some hfind) hx hsame]

theorem filter_of_nodup {α : Type} {name : α → String} {xs : List α} (h : (xs.map name).Nodup)
    {x : α} (hx : x ∈ xs) : xs.filter (fun y => name y = name x) = [x] := by
  induction xs with
  | nil => cases hx
  | cons first xs ih =>
      obtain ⟨hfirst, hrest⟩ := List.nodup_cons.mp h
      rcases List.mem_cons.mp hx with rfl | hmem
      · have hnone : xs.filter (fun y => name y = name x) = [] := by
          rw [List.filter_eq_nil_iff]
          intro y hy hsame
          exact hfirst (of_decide_eq_true hsame ▸ List.mem_map_of_mem hy)
        rw [List.filter_cons_of_pos (by simp), hnone]
      · have hne : name first ≠ name x := fun hsame => hfirst (hsame ▸ List.mem_map_of_mem hmem)
        rw [List.filter_cons_of_neg (by simpa using hne), ih hrest hmem]

theorem bytesOf_of_nodup {files : List ModuleFile} (h : (files.map ModuleFile.name).Nodup)
    {file : ModuleFile} (hfile : file ∈ files) : bytesOf files file.name = some file.bytes := by
  rw [bytesOf, find?_of_nodup h hfile]
  rfl

namespace ModuleFilesFlow

variable {R M : Type} (flow : ModuleFilesFlow R)

/-! ## The states of a run -/

/-- Some identifiers are allocated, the others are waited for. -/
def allocatingRun (ids : List PlatformFileIdentifier) (names : List String) :
    ModuleFilesRun R M where
  additionalFiles := flow.additionalFiles ++ ids
  allocatedFilesCount := ids.length
  allocating := names
  signals := flow.newFiles.map .allocate ++ ids.map .allocated

/-- All identifiers are allocated; the operation is being started. -/
def startingRun (ids : List PlatformFileIdentifier) : ModuleFilesRun R M :=
  flow.complete (flow.allocatingRun ids [])

def callsFor (ids : List PlatformFileIdentifier) : List ModuleFileCall :=
  flow.calls (flow.additionalFiles ++ ids)

def expectedFor (ids : List PlatformFileIdentifier) : Nat :=
  flow.expectedFilesCount (flow.additionalFiles ++ ids)

end ModuleFilesFlow

/-- How many of the answers are no errors. -/
def filledCount (answers : List ModuleFileCall) : Nat :=
  answers.countP fun call => !call.fails

def answerSignal {R M : Type} (call : ModuleFileCall) : ModuleFilesSignal R M :=
  if call.fails then .failed call else .done call

namespace ModuleFilesFlow

variable {R M : Type} (flow : ModuleFilesFlow R)

/-- The signals up to the calls and some answers. -/
def answeredSignals (ids : List PlatformFileIdentifier) (answers : List ModuleFileCall) :
    List (ModuleFilesSignal R M) :=
  (flow.startingRun ids : ModuleFilesRun R M).signals ++ (flow.callsFor ids).map .call ++
    answers.map answerSignal

/-- The module is processed behind the last answer that is expected. -/
def callingSignals (ids : List PlatformFileIdentifier) (module : M)
    (answers : List ModuleFileCall) : List (ModuleFilesSignal R M) :=
  flow.answeredSignals ids answers ++
    if filledCount answers = flow.expectedFor ids then [.process module] else []

/-- The calls are made; some are answered, the others are waited for. -/
def callingRun (ids : List PlatformFileIdentifier) (module : M)
    (answers calling : List ModuleFileCall) : ModuleFilesRun R M where
  additionalFiles := flow.additionalFiles ++ ids
  allocatedFilesCount := ids.length
  uploadedFilesCount := filledCount answers
  module := some module
  allocating := []
  calling := calling
  signals := flow.callingSignals ids module answers

/-- What every run is made of: what is answered and what is waited for is what was asked. -/
inductive Reached (ids : List PlatformFileIdentifier) : ModuleFilesRun R M → Prop
  | allocating {names : List String} (hne : names ≠ [])
      (hnames : (ids.map PlatformFileIdentifier.name ++ names).Perm flow.newFiles) :
      Reached ids (flow.allocatingRun ids names)
  | starting (hnames : (ids.map PlatformFileIdentifier.name).Perm flow.newFiles) :
      Reached ids (flow.startingRun ids)
  | calling {module : M} {answers calling : List ModuleFileCall}
      (hnames : (ids.map PlatformFileIdentifier.name).Perm flow.newFiles)
      (hcalls : (answers ++ calling).Perm (flow.callsFor ids)) :
      Reached ids (flow.callingRun ids module answers calling)

variable {flow} {ids : List PlatformFileIdentifier} {names : List String} {s t : ModuleFilesRun R M}

/-! ## Steps -/

theorem step_allocated_inv {name : String} {id : Nat}
    (h : flow.step s (.allocated name id) = some t) :
    name ∈ s.allocating ∧ t = flow.onAllocated s ⟨id, name⟩ := by
  simp only [step] at h
  split at h
  next hname => exact ⟨hname, (Option.some.inj h).symm⟩
  next => cases h

theorem step_started_inv {module : M} (h : flow.step s (.started module) = some t) :
    s.starting = true ∧ t = flow.onStarted s module := by
  simp only [step] at h
  split at h
  next hstarting => exact ⟨hstarting, (Option.some.inj h).symm⟩
  next => cases h

theorem step_answered_inv {call : ModuleFileCall} (h : flow.step s (.answered call) = some t) :
    ∃ module, s.module = some module ∧ call ∈ s.calling ∧
      t = if call.fails then
          { s with calling := s.calling.erase call, signals := s.signals ++ [.failed call] }
        else flow.onFilled s module call := by
  simp only [step] at h
  split at h
  next => cases h
  next module hmodule =>
    split at h
    next hcall =>
      refine ⟨module, hmodule, hcall, ?_⟩
      split at h
      next hfails => rw [if_pos hfails, Option.some.inj h]
      next hfails => rw [if_neg hfails, Option.some.inj h]
    next => cases h

theorem reached_begin : flow.Reached [] (flow.begin : ModuleFilesRun R M) := by
  by_cases hnone : flow.newFiles = []
  · have hbegin : (flow.begin : ModuleFilesRun R M) = flow.startingRun [] := by
      simp [begin, startingRun, allocatingRun, hnone]
    rw [hbegin]
    exact .starting (by rw [hnone]; exact List.Perm.nil)
  · have hbegin : (flow.begin : ModuleFilesRun R M) = flow.allocatingRun [] flow.newFiles := by
      simp [begin, allocatingRun, hnone]
    rw [hbegin]
    exact .allocating hnone (List.Perm.refl _)

/-- An identifier arrives: it is the last one, or others are waited for. -/
theorem reached_allocated {id : PlatformFileIdentifier} (hid : id.name ∈ names)
    (hnames : (ids.map PlatformFileIdentifier.name ++ names).Perm flow.newFiles) :
    flow.Reached (ids ++ [id])
      (flow.onAllocated (flow.allocatingRun ids names : ModuleFilesRun R M) id) := by
  have hpushed : ((ids ++ [id]).map PlatformFileIdentifier.name ++ names.erase id.name).Perm
      flow.newFiles := by
    refine List.Perm.trans ?_ hnames
    rw [List.map_append, List.append_assoc]
    exact (List.perm_cons_erase hid).symm.append_left _
  have hlength := hpushed.length_eq
  rw [List.length_append, List.length_map] at hlength
  have hall := flow.allAllocated_iff (ids ++ [id])
  have hlast : (ids ++ [id]).length = ids.length + 1 := List.length_append
  by_cases hnone : names.erase id.name = []
  · have hcomplete : flow.onAllocated (flow.allocatingRun ids names : ModuleFilesRun R M) id =
        flow.startingRun (ids ++ [id]) := by
      have htrue : flow.allAllocated (flow.additionalFiles ++ (ids ++ [id])) (ids.length + 1) =
          true := by
        rw [← hlast, hall]
        rw [hnone, List.length_nil] at hlength
        omega
      simp [onAllocated, allocatingRun, startingRun, complete, htrue, hnone]
    rw [hcomplete]
    refine .starting ?_
    rwa [hnone, List.append_nil] at hpushed
  · have hmore : flow.onAllocated (flow.allocatingRun ids names : ModuleFilesRun R M) id =
        flow.allocatingRun (ids ++ [id]) (names.erase id.name) := by
      have hfalse : ¬ flow.allAllocated (flow.additionalFiles ++ (ids ++ [id])) (ids.length + 1) =
          true := by
        rw [← hlast, hall]
        have hpos := List.length_pos_of_ne_nil hnone
        omega
      simp [onAllocated, allocatingRun, hfalse]
    rw [hmore]
    exact .allocating hnone hpushed

/-- The operation is started: its calls are made, or nothing has to be filled. -/
theorem reached_started (module : M)
    (hnames : (ids.map PlatformFileIdentifier.name).Perm flow.newFiles) :
    flow.Reached ids (flow.onStarted (flow.startingRun ids) module) := by
  have hle := flow.calls_le (flow.additionalFiles ++ ids)
  have hstarted : flow.onStarted (flow.startingRun ids) module =
      flow.callingRun ids module [] (flow.callsFor ids) := by
    by_cases hzero : flow.expectedFor ids = 0
    · have hcalls : flow.callsFor ids = [] := by
        rw [expectedFor] at hzero
        rw [hzero] at hle
        exact List.length_eq_zero_iff.mp (Nat.le_zero.mp hle)
      have hexpected : flow.expectedFilesCount (flow.additionalFiles ++ ids) = 0 := hzero
      simp [onStarted, startingRun, complete, allocatingRun, callingRun, callingSignals,
        answeredSignals, filledCount, hzero, hexpected, hcalls]
    · have hexpected : ¬ flow.expectedFilesCount (flow.additionalFiles ++ ids) = 0 := hzero
      simp [onStarted, startingRun, complete, allocatingRun, callingRun, callingSignals,
        answeredSignals, filledCount, hexpected, callsFor, expectedFor, Ne.symm hexpected]
  rw [hstarted]
  exact .calling hnames (List.Perm.refl _)

theorem filledCount_snoc (answers : List ModuleFileCall) (call : ModuleFileCall) :
    filledCount (answers ++ [call]) = filledCount answers + if call.fails then 0 else 1 := by
  cases hfails : call.fails <;> simp [filledCount, hfails]

/-- A call is answered.  Others were missing before, so that the module was not processed. -/
theorem reached_answered {module : M} {answers calling : List ModuleFileCall}
    {call : ModuleFileCall}
    (hnames : (ids.map PlatformFileIdentifier.name).Perm flow.newFiles)
    (hcalls : (answers ++ calling).Perm (flow.callsFor ids))
    (hstep : flow.step (flow.callingRun ids module answers calling) (.answered call) = some t) :
    flow.Reached ids t := by
  obtain ⟨module', hmodule, hcall, ht⟩ := step_answered_inv hstep
  have hsame : module' = module := (Option.some.inj hmodule).symm
  subst hsame
  have hmem : call ∈ calling := hcall
  have hle := flow.calls_le (flow.additionalFiles ++ ids)
  have hlength := hcalls.length_eq
  have hpos := List.length_pos_of_mem hmem
  have hcount : filledCount answers ≤ answers.length := List.countP_le_length
  rw [List.length_append, callsFor] at hlength
  have hmissing : filledCount answers ≠
      flow.expectedFilesCount (flow.additionalFiles ++ ids) := by
    omega
  have hanswered : t = flow.callingRun ids module' (answers ++ [call]) (calling.erase call) := by
    rw [ht]
    by_cases hfails : call.fails = true
    · rw [if_pos hfails]
      simp [callingRun, callingSignals, answeredSignals, filledCount_snoc, answerSignal,
        expectedFor, hfails, hmissing]
    · rw [if_neg hfails]
      by_cases hlast : filledCount answers + 1 =
          flow.expectedFilesCount (flow.additionalFiles ++ ids)
      · simp [onFilled, callingRun, callingSignals, answeredSignals, filledCount_snoc,
          answerSignal, expectedFor, hfails, hmissing, hlast]
      · simp [onFilled, callingRun, callingSignals, answeredSignals, filledCount_snoc,
          answerSignal, expectedFor, hfails, hmissing, hlast]
  rw [hanswered]
  refine .calling hnames (List.Perm.trans ?_ hcalls)
  rw [List.append_assoc]
  exact (List.perm_cons_erase hmem).symm.append_left _

/-- Every state of a run. -/
theorem reached_of_run {events : List (ModuleFilesEvent M)}
    (hrun : run flow.step flow.begin events = some s) :
    flow.Reached (allocatedIds events) s := by
  induction events using List.reverseRecOn generalizing s with
  | nil =>
      cases hrun
      exact reached_begin
  | append_singleton events event ih =>
      obtain ⟨t, ht, hstep⟩ := run_snoc_inv hrun
      have hids : allocatedIds (events ++ [event]) =
          allocatedIds events ++ allocatedIds [event] := List.filterMap_append
      rw [hids]
      have hreached := ih ht
      cases event with
      | allocated name id =>
          obtain ⟨hname, rfl⟩ := step_allocated_inv hstep
          cases hreached with
          | allocating hne hnames => exact reached_allocated hname hnames
          | starting hnames => cases hname
          | calling hnames hcalls => cases hname
      | started module =>
          obtain ⟨hstarting, rfl⟩ := step_started_inv hstep
          rw [show allocatedIds [ModuleFilesEvent.started module] = [] from rfl, List.append_nil]
          cases hreached with
          | allocating hne hnames => cases hstarting
          | starting hnames => exact reached_started module hnames
          | calling hnames hcalls => cases hstarting
      | answered call =>
          rw [show allocatedIds [ModuleFilesEvent.answered call] = [] from rfl, List.append_nil]
          obtain ⟨module, hmodule, -⟩ := step_answered_inv hstep
          cases hreached with
          | allocating hne hnames => cases hmodule
          | starting hnames => cases hmodule
          | calling hnames hcalls => exact reached_answered hnames hcalls hstep

/-! ## When every request is answered -/

theorem filterMap_answerSignal {β : Type} {f : ModuleFilesSignal R M → Option β}
    (hdone : ∀ call, f (.done call) = none) (hfailed : ∀ call, f (.failed call) = none)
    (answers : List ModuleFileCall) : (answers.map answerSignal).filterMap f = [] := by
  rw [List.filterMap_eq_nil_iff]
  intro signal hsignal
  obtain ⟨call, -, rfl⟩ := List.mem_map.mp hsignal
  rw [answerSignal]
  split
  · exact hfailed call
  · exact hdone call

theorem callsDone_answerSignal (answers : List ModuleFileCall) :
    callsDone (answers.map answerSignal : List (ModuleFilesSignal R M)) =
      answers.filter fun call => !call.fails := by
  induction answers with
  | nil => rfl
  | cons call answers ih =>
      cases hfails : call.fails with
      | false => simpa [callsDone, answerSignal, hfails] using ih
      | true => simpa [callsDone, answerSignal, hfails] using ih

theorem callsFailed_answerSignal (answers : List ModuleFileCall) :
    callsFailed (answers.map answerSignal : List (ModuleFilesSignal R M)) =
      answers.filter ModuleFileCall.fails := by
  induction answers with
  | nil => rfl
  | cons call answers ih =>
      cases hfails : call.fails with
      | false => simpa [callsFailed, answerSignal, hfails] using ih
      | true => simpa [callsFailed, answerSignal, hfails] using ih

section

variable {module : M} {answers : List ModuleFileCall}

/-- A kind of signal that is neither an answer to a call nor the processing. -/
theorem filterMap_answeredSignals {β : Type} {f : ModuleFilesSignal R M → Option β}
    (hdone : ∀ call, f (.done call) = none) (hfailed : ∀ call, f (.failed call) = none) :
    (flow.answeredSignals ids answers).filterMap f =
      (flow.newFiles.map .allocate).filterMap f ++ (ids.map .allocated).filterMap f ++
        [ModuleFilesSignal.start (flow.request (flow.additionalFiles ++ ids))].filterMap f ++
          ((flow.callsFor ids).map .call).filterMap f := by
  rw [answeredSignals, List.filterMap_append, List.filterMap_append,
    filterMap_answerSignal hdone hfailed, startingRun, complete, List.filterMap_append,
    allocatingRun, List.filterMap_append, List.append_nil]

theorem filterMap_callingSignals {β : Type} {f : ModuleFilesSignal R M → Option β}
    (hprocess : ∀ module, f (.process module) = none) :
    (flow.callingSignals ids module answers).filterMap f =
      (flow.answeredSignals ids answers).filterMap f := by
  have hlast : (if filledCount answers = flow.expectedFor ids then
      [ModuleFilesSignal.process module] else []).filterMap f = [] := by
    split <;> simp [hprocess]
  rw [callingSignals, List.filterMap_append, hlast, List.append_nil]

theorem startRequests_callingSignals :
    startRequests (flow.callingSignals ids module answers) =
      [flow.request (flow.additionalFiles ++ ids)] := by
  rw [startRequests, filterMap_callingSignals (fun _ => rfl),
    filterMap_answeredSignals (fun _ => rfl) (fun _ => rfl)]
  simp [List.filterMap_map]

theorem callsMade_answeredSignals :
    callsMade (flow.answeredSignals ids answers : List (ModuleFilesSignal R M)) =
      flow.callsFor ids := by
  rw [callsMade, filterMap_answeredSignals (fun _ => rfl) (fun _ => rfl)]
  simp [List.filterMap_map]

theorem callsMade_callingSignals :
    callsMade (flow.callingSignals ids module answers) = flow.callsFor ids := by
  rw [callsMade, filterMap_callingSignals (fun _ => rfl)]
  exact callsMade_answeredSignals

theorem idsAllocated_callingSignals :
    idsAllocated (flow.callingSignals ids module answers) = ids := by
  rw [idsAllocated, filterMap_callingSignals (fun _ => rfl),
    filterMap_answeredSignals (fun _ => rfl) (fun _ => rfl)]
  simp [List.filterMap_map]

theorem modulesProcessed_answeredSignals :
    modulesProcessed (flow.answeredSignals ids answers : List (ModuleFilesSignal R M)) = [] := by
  rw [modulesProcessed, filterMap_answeredSignals (fun _ => rfl) (fun _ => rfl)]
  simp [List.filterMap_map]

theorem callsDone_answeredSignals :
    callsDone (flow.answeredSignals ids answers : List (ModuleFilesSignal R M)) =
      answers.filter fun call => !call.fails := by
  rw [← callsDone_answerSignal (M := M) (R := R), callsDone, callsDone, answeredSignals,
    startingRun, complete, allocatingRun]
  simp [List.filterMap_map]

theorem callsFailed_callingSignals :
    callsFailed (flow.callingSignals ids module answers) =
      answers.filter ModuleFileCall.fails := by
  rw [← callsFailed_answerSignal (M := M) (R := R), callsFailed, callsFailed,
    filterMap_callingSignals (fun _ => rfl), answeredSignals, startingRun, complete, allocatingRun]
  simp [List.filterMap_map]

/-- The module is processed once, behind all calls, exactly if as many files are filled as
are expected. -/
theorem processedOnce_iff (hanswers : answers.Perm (flow.callsFor ids)) :
    ProcessedOnce (flow.callingSignals ids module answers) ↔
      filledCount answers = flow.expectedFor ids := by
  constructor
  · rintro ⟨before, module', hsignals, -, -⟩
    by_contra hmissing
    have hnone : modulesProcessed (flow.callingSignals ids module answers) = [] := by
      rw [callingSignals, if_neg hmissing, List.append_nil, modulesProcessed_answeredSignals]
    rw [hsignals, modulesProcessed, List.filterMap_append] at hnone
    simp at hnone
  · intro hall
    refine ⟨flow.answeredSignals ids answers, module, ?_, modulesProcessed_answeredSignals, ?_⟩
    · rw [callingSignals, if_pos hall]
    · rw [callsDone_answeredSignals, callsMade_callingSignals]
      -- no answer is an error, since all that are expected are not
      have hle := flow.calls_le (flow.additionalFiles ++ ids)
      have hlength := hanswers.length_eq
      have hcount : filledCount answers ≤ answers.length := List.countP_le_length
      have heq : filledCount answers = answers.length := by
        rw [callsFor] at hlength
        rw [expectedFor] at hall
        omega
      rw [List.filter_eq_self.mpr (List.countP_eq_length.mp heq)]
      exact hanswers

end

/-- All identifiers are allocated, the operation is started once with them, and all calls are
answered; the module is processed if as many are filled as are expected. -/
theorem signals_of_answered {events : List (ModuleFilesEvent M)}
    (hrun : run flow.step flow.begin events = some s) (hanswered : s.Answered) :
    ((allocatedIds events).map PlatformFileIdentifier.name).Perm flow.newFiles ∧
      ∃ module answers, answers.Perm (flow.callsFor (allocatedIds events)) ∧
        s.signals = flow.callingSignals (allocatedIds events) module answers := by
  obtain ⟨hallocating, hstarting, hcalling⟩ := hanswered
  cases reached_of_run hrun with
  | allocating hne hnames => exact absurd hallocating hne
  | starting hnames => cases hstarting
  | @calling module answers calling hnames hcalls =>
      have hnone : calling = [] := hcalling
      rw [hnone, List.append_nil] at hcalls
      exact ⟨hnames, module, answers, hcalls, rfl⟩

end ModuleFilesFlow

/-- No answer is an error. -/
theorem filledCount_of_perm {answers calls : List ModuleFileCall} (hanswers : answers.Perm calls)
    (hfills : ∀ call ∈ calls, call.fails = false) : filledCount answers = calls.length := by
  rw [filledCount, hanswers.countP_eq, List.countP_eq_length]
  intro call hcall
  rw [hfills call hcall]
  rfl

end ArtPlatform.Web
