import ArtPlatform.ManagementPanel.Entities
import ArtPlatform.Web.Regexps
import Mathlib.Algebra.GroupWithZero.Nat
import Mathlib.Data.List.Dedup

/-!
# The validation of a module configuration

Main results:

- Theorem `validateModuleConfiguration_iff`: the verdict, part by part.
- Theorem `installable_iff_of_valid`: a validated configuration is installable if and only if
  its URL begins with the scheme, all its manual files are valid, and no file name is taken
  twice.
- Theorem `text_before_scheme_valid`: a text in front of the scheme.
-/

namespace ArtPlatform.Web.ModuleValidation

/-- A port that is not given is `undefined`; the numbers of ports are of any type with a zero,
the only number that is not truthy. -/
structure ModuleUrl (N : Type) where
  url : Option Text := none
  port : Option N := none
deriving DecidableEq, Repr

structure StringFile where
  name : Text
  content : Text
deriving DecidableEq, Repr

structure PreparedConfigurationIdentifier where
  id : Nat
  name : Text
deriving DecidableEq, Repr

structure AssembledArtifact where
  name : Text
  version : Text
  externalId : ExternalIdentifier
deriving DecidableEq, Repr

structure ModuleConfigurationDraft (N : Type) where
  artifact : AssembledArtifact
  name : Option Text := none
  url : Option (ModuleUrl N) := none
  parameters : Option Text := none
  ports : Option (List N) := none
  preparedConfigurations : Option (List PreparedConfigurationIdentifier) := none
  manualConfigurations : Option (List StringFile) := none
  hasParameters : Bool := false
  hasUrl : Bool := false
  hasPorts : Bool := false
  hasStringConfigurations : Bool := false
deriving DecidableEq, Repr

structure ModuleInformation where
  name : Text
  projectId : Nat
deriving DecidableEq, Repr

def maxModuleNameSize : Nat := 63

def configurationFileFormats : List Text :=
  [units ['x', 'm', 'l'], units ['y', 'm', 'l'], units ['y', 'a', 'm', 'l'],
    units ['g', 'r', 'o', 'o', 'v', 'y'],
    units ['p', 'r', 'o', 'p', 'e', 'r', 't', 'i', 'e', 's'],
    units ['j', 's', 'o', 'n'], units ['c', 'o', 'n', 'f'], units ['j', 's'], units ['t', 's']]

/-- `new Set(this).size != this.length` -/
def hasDuplicates {α : Type} [DecidableEq α] (xs : List α) : Bool :=
  xs.dedup.length ≠ xs.length

section

variable {N : Type}

def createModuleName (configuration : ModuleConfigurationDraft N) : Text :=
  let artifactName := configuration.artifact.name ++ unit '-' :: configuration.artifact.version
  match configuration.name with
  | none => artifactName
  | some name => if name = [] then artifactName else name

variable (configuration : ModuleConfigurationDraft N)

def nameValid (projectId : Nat) (modules : List ModuleInformation) : Bool :=
  let name := createModuleName configuration
  name ≠ [] && entityNameRegex.test name && name.length < maxModuleNameSize &&
    !modules.any fun module => module.name = name && module.projectId = projectId

def parametersValid : Bool :=
  !configuration.hasParameters || configuration.parameters.any fun parameters => parameters ≠ []

def manualConfigurationValid (file : StringFile) : Bool :=
  file.name ≠ [] && (configFileNameRegex configurationFileFormats).test file.name &&
    file.content ≠ []

/-- The prepared configurations are looked at only where the manual ones do not pass. -/
def configurationFilesValid : Bool :=
  let manualConfigurations := configuration.manualConfigurations.getD []
  !configuration.hasStringConfigurations ||
    (manualConfigurations ≠ [] && (manualConfigurations.all manualConfigurationValid &&
      !hasDuplicates (manualConfigurations.map StringFile.name))) ||
    configuration.preparedConfigurations.getD [] ≠ []

variable [DecidableEq N] [Zero N]

def portsValid : Bool :=
  let ports := configuration.ports.getD []
  !configuration.hasPorts ||
    (ports ≠ [] && (ports.all (fun port => port ≠ 0) && !hasDuplicates ports))

def urlValid : Bool :=
  !configuration.hasUrl || configuration.url.any fun url =>
    url.port.any (fun port => port ≠ 0) && url.url.any urlRegex.test

def validateModuleConfiguration (projectId : Nat) (modules : List ModuleInformation) : Bool :=
  nameValid configuration projectId modules && parametersValid configuration &&
    portsValid configuration && urlValid configuration && configurationFilesValid configuration

end

/-! ## What can be installed -/

section

variable {N : Type} [Zero N]

def EntityName (name : Text) : Prop :=
  3 ≤ name.length ∧ ∀ c ∈ name, entityNameChar c = true

/-- A name made of word characters and hyphens, with one of the formats. -/
def ConfigFileName (name : Text) : Prop :=
  ∃ base format, name = base ++ unit '.' :: format ∧ base ≠ [] ∧
    (∀ c ∈ base, (wordChar c || c = unit '-') = true) ∧ format ∈ configurationFileFormats

def ValidFile (file : StringFile) : Prop :=
  ConfigFileName file.name ∧ file.content ≠ []

/-- The names of all manual and prepared configurations. -/
def fileNames (configuration : ModuleConfigurationDraft N) : List Text :=
  (configuration.manualConfigurations.getD []).map StringFile.name ++
    (configuration.preparedConfigurations.getD []).map PreparedConfigurationIdentifier.name

structure Installable (configuration : ModuleConfigurationDraft N) (projectId : Nat)
    (modules : List ModuleInformation) : Prop where
  name : EntityName (createModuleName configuration)
  name_free : ∀ module ∈ modules,
    module.projectId = projectId → module.name ≠ createModuleName configuration
  ports : configuration.hasPorts = true → ∃ ports, configuration.ports = some ports ∧
    ports ≠ [] ∧ (∀ port ∈ ports, port ≠ 0) ∧ ports.Nodup
  url : configuration.hasUrl = true → ∃ text port,
    configuration.url = some { url := some text, port := some port } ∧ port ≠ 0 ∧ IsUrl text
  files : configuration.hasStringConfigurations = true →
    fileNames configuration ≠ [] ∧
      (∀ file ∈ configuration.manualConfigurations.getD [], ValidFile file) ∧
      (fileNames configuration).Nodup

/-- The URL begins with its scheme, the manual files are valid, and no name is taken twice. -/
structure NothingHidden (configuration : ModuleConfigurationDraft N) : Prop where
  url : configuration.hasUrl = true → ∀ url text, configuration.url = some url →
    url.url = some text → IsUrl text
  manual : configuration.hasStringConfigurations = true →
    ∀ file ∈ configuration.manualConfigurations.getD [], ValidFile file
  names : configuration.hasStringConfigurations = true → (fileNames configuration).Nodup

end

/-! ## The verdict -/

section

variable {N : Type} {configuration : ModuleConfigurationDraft N}

theorem hasDuplicates_eq_false_iff {α : Type} [DecidableEq α] {xs : List α} :
    hasDuplicates xs = false ↔ xs.Nodup := by
  rw [hasDuplicates, decide_eq_false_iff_not, not_not, ← List.dedup_eq_self]
  exact ⟨(List.dedup_sublist xs).eq_of_length, congrArg List.length⟩

theorem manualConfigurationValid_iff {file : StringFile} :
    manualConfigurationValid file = true ↔ ValidFile file := by
  rw [manualConfigurationValid, ValidFile, Bool.and_eq_true, Bool.and_eq_true,
    configFileNameRegex_iff]
  constructor
  · rintro ⟨⟨-, hname⟩, hcontent⟩
    exact ⟨hname, by simpa using hcontent⟩
  · rintro ⟨⟨base, format, heq, hbase, hname⟩, hcontent⟩
    have hne : file.name ≠ [] := by simp [heq]
    exact ⟨⟨by simpa using hne, base, format, heq, hbase, hname⟩, by simpa using hcontent⟩

theorem createModuleName_ne_nil (configuration : ModuleConfigurationDraft N) :
    createModuleName configuration ≠ [] := by
  rw [createModuleName]
  split
  · simp
  · split
    · simp
    · assumption

theorem nameValid_iff {projectId : Nat} {modules : List ModuleInformation} :
    nameValid configuration projectId modules = true ↔
      EntityName (createModuleName configuration) ∧
        (createModuleName configuration).length < maxModuleNameSize ∧
        ∀ module ∈ modules,
          module.projectId = projectId → module.name ≠ createModuleName configuration := by
  have hne := createModuleName_ne_nil configuration
  rw [EntityName, ← entityNameRegex_iff, nameValid]
  simp only [Bool.and_eq_true, decide_eq_true_eq, Bool.not_eq_true', List.any_eq_false]
  constructor
  · rintro ⟨⟨⟨-, htest⟩, hlength⟩, hfree⟩
    exact ⟨htest, hlength, fun module hmodule hproject hname =>
      hfree module hmodule ⟨hname, hproject⟩⟩
  · rintro ⟨htest, hlength, hfree⟩
    exact ⟨⟨⟨hne, htest⟩, hlength⟩, fun module hmodule hboth =>
      hfree module hmodule hboth.2 hboth.1⟩

theorem configurationFilesValid_iff :
    configurationFilesValid configuration = true ↔
      (configuration.hasStringConfigurations = true →
        (configuration.manualConfigurations.getD [] ≠ [] ∧
          (∀ file ∈ configuration.manualConfigurations.getD [], ValidFile file) ∧
          ((configuration.manualConfigurations.getD []).map StringFile.name).Nodup) ∨
        configuration.preparedConfigurations.getD [] ≠ []) := by
  simp only [configurationFilesValid, Bool.or_eq_true, Bool.and_eq_true, Bool.not_eq_true',
    decide_eq_true_eq, List.all_eq_true, hasDuplicates_eq_false_iff, manualConfigurationValid_iff]
  cases configuration.hasStringConfigurations <;> simp

variable [DecidableEq N] [Zero N]

theorem portsValid_iff :
    portsValid configuration = true ↔ (configuration.hasPorts = true → ∃ ports,
      configuration.ports = some ports ∧ ports ≠ [] ∧ (∀ port ∈ ports, port ≠ 0) ∧
        ports.Nodup) := by
  simp only [portsValid, Bool.or_eq_true, Bool.and_eq_true, Bool.not_eq_true',
    decide_eq_true_eq, List.all_eq_true, hasDuplicates_eq_false_iff]
  cases configuration.hasPorts with
  | false => simp
  | true => cases configuration.ports <;> simp

/-- The pattern is searched for: anything may be in front of the scheme. -/
theorem urlValid_iff :
    urlValid configuration = true ↔ (configuration.hasUrl = true → ∃ before text port,
      configuration.url = some { url := some (before ++ text), port := some port } ∧
        port ≠ 0 ∧ IsUrl text) := by
  rw [urlValid, Bool.or_eq_true, Bool.not_eq_true', Option.any_eq_true]
  constructor
  · rintro (hno | ⟨⟨text, port⟩, hurl, hvalid⟩) hhas
    · rw [hno] at hhas
      cases hhas
    · rw [Bool.and_eq_true, Option.any_eq_true, Option.any_eq_true] at hvalid
      obtain ⟨⟨number, rfl, hport⟩, address, rfl, htest⟩ := hvalid
      obtain ⟨before, url, rfl, hIsUrl⟩ := urlRegex_iff.mp htest
      exact ⟨before, url, number, hurl, by simpa using hport, hIsUrl⟩
  · intro h
    cases hhas : configuration.hasUrl with
    | false => exact Or.inl rfl
    | true =>
        obtain ⟨before, text, port, hurl, hport, hIsUrl⟩ := h hhas
        refine Or.inr ⟨_, hurl, ?_⟩
        simpa [hport] using urlRegex_iff.mpr ⟨before, text, rfl, hIsUrl⟩

/-- The verdict, part by part. -/
theorem validateModuleConfiguration_iff {projectId : Nat} {modules : List ModuleInformation} :
    validateModuleConfiguration configuration projectId modules = true ↔
      nameValid configuration projectId modules = true ∧ parametersValid configuration = true ∧
        portsValid configuration = true ∧ urlValid configuration = true ∧
        configurationFilesValid configuration = true := by
  simp only [validateModuleConfiguration, Bool.and_eq_true, and_assoc]

/-- A validated configuration is installable exactly if nothing is hidden: the URL begins with
its scheme, the manual files are valid, and no file name is taken twice. -/
theorem installable_iff_of_valid (projectId : Nat) (modules : List ModuleInformation)
    (h : validateModuleConfiguration configuration projectId modules = true) :
    Installable configuration projectId modules ↔ NothingHidden configuration := by
  obtain ⟨hname, -, hports, hurl, hfiles⟩ := validateModuleConfiguration_iff.mp h
  rw [nameValid_iff] at hname
  rw [portsValid_iff] at hports
  rw [urlValid_iff] at hurl
  rw [configurationFilesValid_iff] at hfiles
  constructor
  · intro hinstallable
    refine ⟨fun hhas url text hsome htext => ?_, fun hhas => (hinstallable.files hhas).2.1,
      fun hhas => (hinstallable.files hhas).2.2⟩
    obtain ⟨text', port, hurl', -, hIsUrl⟩ := hinstallable.url hhas
    rw [hurl'] at hsome
    cases hsome
    cases htext
    exact hIsUrl
  · intro hnothing
    refine ⟨hname.1, hname.2.2, hports, fun hhas => ?_, fun hhas => ?_⟩
    · obtain ⟨before, text, port, hsome, hport, -⟩ := hurl hhas
      exact ⟨before ++ text, port, hsome, hport, hnothing.url hhas _ _ hsome rfl⟩
    · refine ⟨?_, hnothing.manual hhas, hnothing.names hhas⟩
      intro hnil
      obtain ⟨hmanual, hprepared⟩ := List.append_eq_nil_iff.mp hnil
      rcases hfiles hhas with ⟨hne, -⟩ | hne
      · exact hne (List.map_eq_nil_iff.mp hmanual)
      · exact hne (List.map_eq_nil_iff.mp hprepared)

end

/-! ## A text in front of the scheme -/

/-- The draft of a module `abc`, with the URL. -/
def draftWithUrl (url : Text) : ModuleConfigurationDraft Nat where
  artifact :=
    { name := units ['a']
      version := units ['1']
      externalId := { id := "a", resourceId := { id := 1, name := "files", type := .artifacts } } }
  name := some (units ['a', 'b', 'c'])
  url := some { url := some url, port := some 80 }
  hasUrl := true

theorem installable_iff_of_valid_url :
    validateModuleConfiguration
        (draftWithUrl (units ['h', 't', 't', 'p', ':', '/', '/', 'b'])) 1 [] = true ∧
      (Installable (draftWithUrl (units ['h', 't', 't', 'p', ':', '/', '/', 'b'])) 1 [] ↔
        NothingHidden (draftWithUrl (units ['h', 't', 't', 'p', ':', '/', '/', 'b']))) :=
  ⟨by decide, installable_iff_of_valid 1 [] (by decide)⟩

/-- The URL `x http://b` is validated. -/
theorem text_before_scheme_valid :
    ¬ ∀ (configuration : ModuleConfigurationDraft Nat) (projectId : Nat)
      (modules : List ModuleInformation),
      validateModuleConfiguration configuration projectId modules = true →
      Installable configuration projectId modules := by
  intro hall
  obtain ⟨text, port, hurl, -, scheme, hscheme, rest, rfl, -⟩ :=
    (hall (draftWithUrl (units ['x', ' ', 'h', 't', 't', 'p', ':', '/', '/', 'b'])) 1 []
      (by decide)).url rfl
  have hschemes : ∀ scheme ∈ urlSchemes,
      scheme.head? = some (unit 'f') ∨ scheme.head? = some (unit 'h') := by decide
  have hhead : some (unit 'x') = (scheme ++ (units [':', '/', '/'] ++ rest)).head? :=
    congrArg (fun url => (url.bind ModuleUrl.url).bind List.head?) hurl
  rw [List.head?_append] at hhead
  rcases hschemes scheme hscheme with hfirst | hfirst
  · rw [hfirst, Option.some_or] at hhead
    exact absurd hhead (by decide)
  · rw [hfirst, Option.some_or] at hhead
    exact absurd hhead (by decide)

end ArtPlatform.Web.ModuleValidation
