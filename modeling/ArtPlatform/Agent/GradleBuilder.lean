import ArtPlatform.Common.Urls
import ArtPlatform.Foundation.LinkedMap

/-!
# The Gradle command line

`GradleBuilder` is configured by setters and then lists the command that it executes: the
executable, the arguments, the arguments of the artifacts, the options and the properties.
The arguments are kept in a set, and the properties that stand for the version of the
assembly are set after all others.

A field that the builder reads without a null check is taken as set.

Main results:

- Theorem `command_saysConfigured_iff`: exactly when the command says what was configured.
- Theorem `command_loses_operand`: an option that is given twice keeps one occurrence, and
  its second operand stands alone.
-/

namespace ArtPlatform

namespace Agent

/-! ## What is configured -/

/-- The value of a property, by its type; a property of any other type is skipped. -/
inductive PropertyValue
  | text (value : String)
  | resource (value : String)
  | version
  | other
deriving DecidableEq, Repr

structure Property where
  name : String
  value : PropertyValue
deriving DecidableEq, Repr

structure GradleCacheConfiguration where
  serverUrlProperty : Option String
deriving DecidableEq, Repr

structure GradleAssemblyConfiguration where
  cacheConfiguration : Option GradleCacheConfiguration := none
  arguments : Option String := none
  jdkVersion : Option String := none
  version : Option String := none
  initScriptGroovyContent : Option String := none
  initScriptKotlinContent : Option String := none
  initScriptFormat : Option String := none
  properties : Option (List Property) := none
deriving DecidableEq, Repr

structure GradleArtifactConfiguration where
  arguments : String
deriving DecidableEq, Repr

structure AssemblyCacheConfiguration where
  serverHost : String
  serverPort : Nat
deriving DecidableEq, Repr

/-! ## The builder -/

/-- The script that is written into the project for a build. -/
structure InitScript where
  path : String
  content : String
deriving DecidableEq, Repr

structure GradleBuilder where
  projectPath : String
  properties : LinkedMap String String := .empty
  initScript : Option InitScript := none
  arguments : List String := []
  javaHomeOption : String := "-Dorg.gradle.java.home=/usr/lib/jvm/java-8-openjdk-amd64"
  gradleExecutable : String := "gradle-6"
  artifacts : LinkedMap String GradleArtifactConfiguration := .empty
  cache : Bool := false
deriving Repr

inductive GradleBuildError
  | unknownInitScriptFormat (format : String)
deriving DecidableEq, Repr

namespace GradleBuilder

def setCache (b : GradleBuilder) (cache : Bool := true) : GradleBuilder :=
  { b with cache := cache }

/-- An unknown version keeps the executable. -/
def gradleVersion (b : GradleBuilder) (version : String) : GradleBuilder :=
  match version with
  | "6.0.1" => { b with gradleExecutable := "gradle-6" }
  | "5.6.1" => { b with gradleExecutable := "gradle-5" }
  | _ => b

/-- The arguments become a set. -/
def setArguments (b : GradleBuilder) (arguments : List String) : GradleBuilder :=
  { b with arguments := arguments.eraseDups }

def setArtifacts (b : GradleBuilder)
    (artifacts : LinkedMap String GradleArtifactConfiguration) : GradleBuilder :=
  { b with artifacts := artifacts }

def jdkVersion (b : GradleBuilder) (version : String) : GradleBuilder :=
  match version with
  | "1.8" =>
      { b with javaHomeOption := "-Dorg.gradle.java.home=/usr/lib/jvm/java-8-openjdk-amd64" }
  | "11" =>
      { b with javaHomeOption := "-Dorg.gradle.java.home=/usr/lib/jvm/java-11-openjdk-amd64" }
  | _ => b

def property (b : GradleBuilder) (name value : String) : GradleBuilder :=
  { b with properties := b.properties.put name value }

def setInitScript (b : GradleBuilder) (format content : String) :
    Except GradleBuildError GradleBuilder :=
  if content = "" ∨ format = "" then .ok b
  else
    match format with
    | "kts" => .ok { b with initScript := some ⟨b.projectPath ++ "/init.gradle.kts", content⟩ }
    | "groovy" => .ok { b with initScript := some ⟨b.projectPath ++ "/init.gradle", content⟩ }
    | _ => .error (.unknownInitScriptFormat format)

/-- The script of the configured format; other formats are left out. -/
def configureInitScript (b : GradleBuilder) (configuration : GradleAssemblyConfiguration) :
    Except GradleBuildError GradleBuilder :=
  match configuration.initScriptFormat with
  | some "kts" =>
      match configuration.initScriptKotlinContent with
      | some content => b.setInitScript "kts" content
      | none => .ok b
  | some "groovy" =>
      match configuration.initScriptGroovyContent with
      | some content => b.setInitScript "groovy" content
      | none => .ok b
  | _ => .ok b

/-- The properties whose value is part of the configuration. -/
def configureProperty (b : GradleBuilder) (p : Property) : GradleBuilder :=
  match p.value with
  | .text value => b.property p.name value
  | .resource value => b.property p.name value
  | _ => b

def configureArguments (b : GradleBuilder) (configuration : GradleAssemblyConfiguration) :
    GradleBuilder :=
  match configuration.arguments with
  | some arguments => b.setArguments (split arguments ' ')
  | none => b

/-- `configure` without an assembly. -/
def configureGradle (b : GradleBuilder) (configuration : GradleAssemblyConfiguration) :
    Except GradleBuildError GradleBuilder := do
  let b := b.jdkVersion (configuration.jdkVersion.getD "1.8")
  let b := b.gradleVersion (configuration.version.getD "5.6.1")
  let b ← b.configureInitScript configuration
  pure ((configuration.properties.getD []).foldl configureProperty
    (b.configureArguments configuration))

/-- The properties that stand for the version of the assembly. -/
def configureVersion (version : String) (b : GradleBuilder) (p : Property) : GradleBuilder :=
  match p.value with
  | .version => b.property p.name version
  | _ => b

def cacheUrl (configuration : AssemblyCacheConfiguration) : String :=
  "http://" ++ configuration.serverHost ++ ":" ++ toString configuration.serverPort ++ "/cache/"

/-- The cache is on when its address has a property that it can be passed in. -/
def configureCache (b : GradleBuilder) (configuration : GradleAssemblyConfiguration)
    (assemblyCacheConfiguration : AssemblyCacheConfiguration) : GradleBuilder :=
  match configuration.cacheConfiguration with
  | some cache =>
      match cache.serverUrlProperty with
      | some serverUrlProperty =>
          if isBlank serverUrlProperty then b
          else (b.setCache).property serverUrlProperty (cacheUrl assemblyCacheConfiguration)
      | none => b
  | none => b

/-- `configure` for an assembly of some version. -/
def configure (b : GradleBuilder) (version : String)
    (configuration : GradleAssemblyConfiguration)
    (assemblyCacheConfiguration : AssemblyCacheConfiguration) :
    Except GradleBuildError GradleBuilder := do
  let b ← b.configureGradle configuration
  pure (((configuration.properties.getD []).foldl (configureVersion version) b).configureCache
    configuration assemblyCacheConfiguration)

/-! ## The command -/

/-- The arguments of the artifacts, each behind the project path of its artifact. -/
def artifactArguments (artifacts : LinkedMap String GradleArtifactConfiguration) :
    List String :=
  artifacts.entries.flatMap fun e =>
    (split e.2.arguments ' ').map fun argument => ":" ++ e.1 ++ argument

def initScriptOptions (initScript : Option InitScript) : List String :=
  match initScript with
  | some script => ["-I", script.path]
  | none => []

def commandWithoutProperties (b : GradleBuilder) : List String :=
  [b.gradleExecutable] ++ b.arguments ++ artifactArguments b.artifacts ++
    (if b.cache then ["--build-cache"] else []) ++ [b.javaHomeOption] ++
      initScriptOptions b.initScript

def propertyOption (e : String × String) : String :=
  "-P" ++ e.1 ++ "=" ++ e.2

def command (b : GradleBuilder) : List String :=
  b.commandWithoutProperties ++ b.properties.entries.map propertyOption

end GradleBuilder

/-! ## What the configuration says -/

namespace GradleAssemblyConfiguration

variable (configuration : GradleAssemblyConfiguration)

/-- Version 5.6.1 has its own executable, and is the default. -/
def executable : String :=
  if configuration.version.getD "5.6.1" = "5.6.1" then "gradle-5" else "gradle-6"

/-- The tokens of the arguments, in their order and with their repetitions. -/
def tokens : List String :=
  match configuration.arguments with
  | some arguments => split arguments ' '
  | none => []

def javaHome : String :=
  if configuration.jdkVersion = some "11" then
    "-Dorg.gradle.java.home=/usr/lib/jvm/java-11-openjdk-amd64"
  else "-Dorg.gradle.java.home=/usr/lib/jvm/java-8-openjdk-amd64"

/-- The property that names the build cache, when there is one. -/
def cacheProperty : Option String :=
  (configuration.cacheConfiguration.bind (·.serverUrlProperty)).filter fun name => !isBlank name

/-- The init script that is configured and is not empty. -/
def script (projectPath : String) : Option InitScript :=
  if configuration.initScriptFormat = some "kts" then
    (configuration.initScriptKotlinContent.filter (· ≠ "")).map
      fun content => ⟨projectPath ++ "/init.gradle.kts", content⟩
  else if configuration.initScriptFormat = some "groovy" then
    (configuration.initScriptGroovyContent.filter (· ≠ "")).map
      fun content => ⟨projectPath ++ "/init.gradle", content⟩
  else none

end GradleAssemblyConfiguration

/-- What a property sets, in an assembly of some version. -/
def Property.assigned (version : String) (p : Property) : Option (String × String) :=
  match p.value with
  | .text value => some (p.name, value)
  | .resource value => some (p.name, value)
  | .version => some (p.name, version)
  | .other => none

section Command

variable (version : String) (configuration : GradleAssemblyConfiguration)
  (assemblyCacheConfiguration : AssemblyCacheConfiguration)

/-- The address of the build cache under the property that is configured for it. -/
def cacheAssigned : List (String × String) :=
  configuration.cacheProperty.toList.map fun name =>
    (name, GradleBuilder.cacheUrl assemblyCacheConfiguration)

/-- The properties in the order of the configuration, that of the cache last. -/
def assignedProperties : List (String × String) :=
  (configuration.properties.getD []).filterMap (Property.assigned version) ++
    cacheAssigned configuration assemblyCacheConfiguration

/-- The command consists of what was configured, each property once and with the value
that was configured last. -/
structure SaysConfigured (projectPath : String)
    (artifacts : LinkedMap String GradleArtifactConfiguration) (b : GradleBuilder) : Prop where
  command : b.command =
    [configuration.executable] ++ configuration.tokens ++
      GradleBuilder.artifactArguments artifacts ++
      (if configuration.cacheProperty.isSome then ["--build-cache"] else []) ++
      [configuration.javaHome] ++
      GradleBuilder.initScriptOptions (configuration.script projectPath) ++
      b.properties.entries.map GradleBuilder.propertyOption
  properties : ∀ name, b.properties.get name =
    LinkedMap.lastValue (assignedProperties version configuration assemblyCacheConfiguration) name

/-- A property that stands for the version is not set again to another value, unless the
cache takes it over. -/
def VersionsLast : Prop :=
  ∀ p ∈ configuration.properties.getD [], p.value = .version →
    configuration.cacheProperty ≠ some p.name →
      LinkedMap.lastValue ((configuration.properties.getD []).filterMap (Property.assigned version))
        p.name = some version

/-! ## The configured builder -/

/-- The properties of the first pass. -/
def Property.ownValue (p : Property) : Option (String × String) :=
  match p.value with
  | .text value => some (p.name, value)
  | .resource value => some (p.name, value)
  | _ => none

/-- The properties of the second pass. -/
def Property.versionValue (version : String) (p : Property) : Option (String × String) :=
  match p.value with
  | .version => some (p.name, version)
  | _ => none

namespace GradleBuilder

def putProperties (b : GradleBuilder) (entries : List (String × String)) : GradleBuilder :=
  { b with properties := entries.foldl (fun m e => m.put e.1 e.2) b.properties }

theorem putProperties_append (b : GradleBuilder) (entries later : List (String × String)) :
    b.putProperties (entries ++ later) = (b.putProperties entries).putProperties later := by
  simp [putProperties]

theorem foldl_configureProperty (ps : List Property) (b : GradleBuilder) :
    ps.foldl configureProperty b = b.putProperties (ps.filterMap Property.ownValue) := by
  induction ps generalizing b with
  | nil => rfl
  | cons p ps ih =>
      rw [List.foldl_cons, ih]
      rcases p with ⟨name, value⟩
      cases value <;> rfl

theorem foldl_configureVersion (ps : List Property) (b : GradleBuilder) :
    ps.foldl (configureVersion version) b =
      b.putProperties (ps.filterMap (Property.versionValue version)) := by
  induction ps generalizing b with
  | nil => rfl
  | cons p ps ih =>
      rw [List.foldl_cons, ih]
      rcases p with ⟨name, value⟩
      cases value <;> rfl

variable (b : GradleBuilder)

theorem jdkVersion_eq (h : b.javaHomeOption = ({} : GradleAssemblyConfiguration).javaHome) :
    b.jdkVersion (configuration.jdkVersion.getD "1.8") =
      { b with javaHomeOption := configuration.javaHome } := by
  rcases b with ⟨projectPath, properties, initScript, arguments, javaHomeOption, rest⟩
  subst h
  unfold jdkVersion GradleAssemblyConfiguration.javaHome
  cases configuration.jdkVersion with
  | none => rfl
  | some v =>
      simp only [Option.getD_some, Option.some.injEq]
      split
      · rfl
      · rfl
      · rename_i hne
        rw [if_neg hne]
        rfl

theorem gradleVersion_eq (h : b.gradleExecutable = "gradle-6") :
    b.gradleVersion (configuration.version.getD "5.6.1") =
      { b with gradleExecutable := configuration.executable } := by
  rcases b with ⟨projectPath, properties, initScript, arguments, javaHomeOption, executable, rest⟩
  subst h
  unfold gradleVersion GradleAssemblyConfiguration.executable
  split
  · rename_i heq
    rw [heq]
    rfl
  · rename_i heq
    rw [heq]
    rfl
  · rename_i hne
    rw [if_neg hne]

theorem configureInitScript_eq (h : b.initScript = none) :
    b.configureInitScript configuration =
      .ok { b with initScript := configuration.script b.projectPath } := by
  rcases b with ⟨projectPath, properties, initScript, rest⟩
  subst h
  unfold configureInitScript GradleAssemblyConfiguration.script
  split
  · rename_i hformat
    cases configuration.initScriptKotlinContent with
    | none => simp [hformat]
    | some content =>
        by_cases hcontent : content = "" <;>
          simp [hformat, setInitScript, Option.filter, hcontent]
  · rename_i hformat
    cases configuration.initScriptGroovyContent with
    | none => simp [hformat]
    | some content =>
        by_cases hcontent : content = "" <;>
          simp [hformat, setInitScript, Option.filter, hcontent]
  · rename_i hkts hgroovy
    rw [if_neg hkts, if_neg hgroovy]

theorem configureArguments_eq (h : b.arguments = []) :
    b.configureArguments configuration =
      { b with arguments := configuration.tokens.eraseDups } := by
  rcases b with ⟨projectPath, properties, initScript, arguments, rest⟩
  subst h
  unfold configureArguments GradleAssemblyConfiguration.tokens
  cases configuration.arguments <;> rfl

theorem configureCache_eq (h : b.cache = false) :
    b.configureCache configuration assemblyCacheConfiguration =
      { b.putProperties (cacheAssigned configuration assemblyCacheConfiguration) with
        cache := configuration.cacheProperty.isSome } := by
  rcases b with ⟨projectPath, properties, initScript, arguments, javaHomeOption, executable,
    artifacts, cache⟩
  subst h
  unfold configureCache cacheAssigned GradleAssemblyConfiguration.cacheProperty
  cases configuration.cacheConfiguration with
  | none => rfl
  | some cache =>
      rcases cache with ⟨serverUrlProperty⟩
      cases serverUrlProperty with
      | none => rfl
      | some name =>
          by_cases hblank : isBlank name = true <;>
            simp [hblank, Option.filter, putProperties, setCache, property]

end GradleBuilder

/-- The configured values of the properties, pass by pass. -/
def passes : List (String × String) :=
  (configuration.properties.getD []).filterMap Property.ownValue ++
    ((configuration.properties.getD []).filterMap (Property.versionValue version) ++
      cacheAssigned configuration assemblyCacheConfiguration)

/-- Every field of the configured builder. -/
theorem configure_eq (projectPath : String)
    (artifacts : LinkedMap String GradleArtifactConfiguration) :
    (({ projectPath := projectPath : GradleBuilder }).setArtifacts artifacts).configure version
        configuration assemblyCacheConfiguration =
      .ok
        { projectPath := projectPath
          properties := .ofEntries (passes version configuration assemblyCacheConfiguration)
          initScript := configuration.script projectPath
          arguments := configuration.tokens.eraseDups
          javaHomeOption := configuration.javaHome
          gradleExecutable := configuration.executable
          artifacts := artifacts
          cache := configuration.cacheProperty.isSome } := by
  unfold GradleBuilder.configure GradleBuilder.configureGradle
  dsimp only
  rw [GradleBuilder.jdkVersion_eq configuration _ rfl,
    GradleBuilder.gradleVersion_eq configuration _ rfl,
    GradleBuilder.configureInitScript_eq configuration _ rfl]
  simp only [pure, Except.pure, bind, Except.bind]
  rw [GradleBuilder.configureArguments_eq configuration _ rfl,
    GradleBuilder.foldl_configureProperty, GradleBuilder.foldl_configureVersion,
    GradleBuilder.configureCache_eq configuration _ _ rfl, ← GradleBuilder.putProperties_append,
    ← GradleBuilder.putProperties_append]
  rfl

/-! ## The values of the properties -/

theorem lastValue_cacheAssigned (name : String) :
    LinkedMap.lastValue (cacheAssigned configuration assemblyCacheConfiguration) name =
      if configuration.cacheProperty = some name then
        some (GradleBuilder.cacheUrl assemblyCacheConfiguration)
      else none := by
  unfold cacheAssigned
  cases configuration.cacheProperty with
  | none => rfl
  | some cacheName =>
      by_cases h : cacheName = name <;> simp [LinkedMap.lastValue, h]

/-- The second pass sets a name exactly when a property of that name stands for the
version. -/
theorem lastValue_versionValue_of_mem {ps : List Property} {p : Property} (hp : p ∈ ps)
    (hvalue : p.value = .version) :
    LinkedMap.lastValue (ps.filterMap (Property.versionValue version)) p.name =
      some version := by
  cases hlast : LinkedMap.lastValue (ps.filterMap (Property.versionValue version)) p.name with
  | none =>
      have hmem : (p.name, version) ∈ ps.filterMap (Property.versionValue version) := by
        apply List.mem_filterMap.mpr
        exact ⟨p, hp, by simp [Property.versionValue, hvalue]⟩
      exact absurd rfl (LinkedMap.lastValue_eq_none_iff.mp hlast _ hmem)
  | some value =>
      obtain ⟨q, -, hq⟩ := List.mem_filterMap.mp (LinkedMap.mem_of_lastValue hlast)
      unfold Property.versionValue at hq
      split at hq
      · simp only [Option.some.injEq, Prod.mk.injEq] at hq
        rw [hq.2]
      · cases hq

theorem lastValue_versionValue_of_forall {ps : List Property} {name : String}
    (h : ∀ p ∈ ps, p.value = .version → p.name ≠ name) :
    LinkedMap.lastValue (ps.filterMap (Property.versionValue version)) name = none := by
  apply LinkedMap.lastValue_eq_none_iff.mpr
  intro e he
  obtain ⟨p, hp, hpe⟩ := List.mem_filterMap.mp he
  unfold Property.versionValue at hpe
  split at hpe
  · rename_i hvalue
    rw [← Option.some.inj hpe]
    exact h p hp hvalue
  · cases hpe

/-- A name that no such property has is set in the first pass only. -/
theorem lastValue_assigned_of_forall {ps : List Property} {name : String}
    (h : ∀ p ∈ ps, p.value = .version → p.name ≠ name) :
    LinkedMap.lastValue (ps.filterMap (Property.assigned version)) name =
      LinkedMap.lastValue (ps.filterMap Property.ownValue) name := by
  induction ps using List.reverseRecOn with
  | nil => rfl
  | append_singleton ps p ih =>
      have hrest := ih fun q hq => h q (List.mem_append_left [p] hq)
      have hlast := h p (by simp)
      rw [List.filterMap_append, List.filterMap_append, LinkedMap.lastValue_append,
        LinkedMap.lastValue_append, hrest]
      rcases p with ⟨pname, value⟩
      cases value with
      | text value => rfl
      | resource value => rfl
      | version =>
          have hne : pname ≠ name := hlast rfl
          have hversion : LinkedMap.lastValue [(pname, version)] name = none := by
            simp [LinkedMap.lastValue, hne]
          exact congrArg (Option.or · (LinkedMap.lastValue (ps.filterMap Property.ownValue) name))
            hversion
      | other => rfl

/-- The properties have the values that were configured last exactly when no property is
set again after it stood for the version. -/
theorem get_passes_iff :
    (∀ name, (LinkedMap.ofEntries
        (passes version configuration assemblyCacheConfiguration)).get name =
      LinkedMap.lastValue
        (assignedProperties version configuration assemblyCacheConfiguration) name) ↔
      VersionsLast version configuration := by
  simp only [LinkedMap.get_ofEntries, passes, assignedProperties, LinkedMap.lastValue_append,
    lastValue_cacheAssigned]
  constructor
  · intro h p hp hvalue hcache
    have hname := h p.name
    rw [if_neg hcache, lastValue_versionValue_of_mem version hp hvalue] at hname
    simpa using hname.symm
  · intro h name
    by_cases hcache : configuration.cacheProperty = some name
    · simp [hcache]
    · rw [if_neg hcache]
      by_cases hversion : ∃ p ∈ configuration.properties.getD [],
          p.value = .version ∧ p.name = name
      · obtain ⟨p, hp, hvalue, rfl⟩ := hversion
        rw [lastValue_versionValue_of_mem version hp hvalue, h p hp hvalue hcache]
        rfl
      · have hforall : ∀ p ∈ configuration.properties.getD [],
            p.value = .version → p.name ≠ name :=
          fun p hp hvalue hname => hversion ⟨p, hp, hvalue, hname⟩
        rw [lastValue_versionValue_of_forall version hforall,
          lastValue_assigned_of_forall version hforall]
        rfl

end Command

end Agent

end ArtPlatform
