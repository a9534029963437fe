import ArtPlatform.Common.Urls
import Mathlib.Data.List.Induction

/-!
# The working tree of a project

The directory of a cloned project at some commit, and the walks of the agent over it.
A walk goes top down, in the order in which the file system lists a directory, and
enters only the directories that its filter lets pass.

A path is the list of names below the project's directory; its text starts with the
path of that directory, which is how the agent writes it down.

Main results:

- Theorem `ProjectTree.findParentDirectoriesOfFilesStartsWith_eq`: which directories the
  search for files of a name finds, and how often.
- Theorem `pathText_inj`: a directory is known by the text of its path.
-/

namespace ArtPlatform

/-- The name of a file or directory. -/
structure FileName where
  text : String
  noSlash : '/' ∉ text.toList
deriving DecidableEq, Repr

inductive FileTree
  | file (text : String)
  | directory (entries : List (FileName × FileTree))

/-- The entries of the project's own directory. -/
abbrev ProjectTree := List (FileName × FileTree)

/-- A regular file that a walk comes across. -/
structure WalkedFile where
  parent : List FileName
  name : FileName
  text : String
deriving DecidableEq, Repr

/-- The text of a path below the project's directory. -/
def pathText (projectPath : String) (path : List FileName) : String :=
  path.foldl (fun text name => text ++ "/" ++ name.text) projectPath

/-- The last name of a path. -/
def extractName (path : String) : String :=
  substringAfterLast path '/'

mutual

/-- The regular files of a tree that hangs under a name. -/
def FileTree.walkTopDown (onEnter : String → Bool) (parent : List FileName)
    (name : FileName) : FileTree → List WalkedFile
  | .file text => [⟨parent, name, text⟩]
  | .directory entries =>
      if onEnter name.text then walkEntries onEnter (parent ++ [name]) entries else []

def walkEntries (onEnter : String → Bool) (parent : List FileName) :
    List (FileName × FileTree) → List WalkedFile
  | [] => []
  | (name, tree) :: rest =>
      tree.walkTopDown onEnter parent name ++ walkEntries onEnter parent rest

end

/-- The walk from the project's directory, which the filter may turn down as well. -/
def ProjectTree.walkTopDown (projectPath : String) (onEnter : String → Bool)
    (tree : ProjectTree) : List WalkedFile :=
  if onEnter (extractName projectPath) then walkEntries onEnter [] tree else []

def ignoringDirectories : List String :=
  ["node_modules", "__pycache__"]

/-- The directories of the files whose name starts as given, one for each file. -/
def ProjectTree.findParentDirectoriesOfFilesStartsWith (projectPath : String)
    (tree : ProjectTree) (name : String) (filter : WalkedFile → Bool) :
    List (List FileName) :=
  let walk := tree.walkTopDown projectPath fun directory => directory ∉ ignoringDirectories
  (walk.filter fun file => startsWith file.name.text name && filter file).map (·.parent)

def ProjectTree.firstFileStartsWith (projectPath : String) (tree : ProjectTree)
    (name : String) : Option WalkedFile :=
  (tree.walkTopDown projectPath fun _ => true).find? fun file => startsWith file.name.text name

def ProjectTree.listFiles (projectPath : String) (tree : ProjectTree) : List WalkedFile :=
  tree.walkTopDown projectPath fun _ => true

/-! ## What a walk visits -/

mutual

theorem FileTree.prefix_of_mem_walkTopDown {onEnter : String → Bool} {parent : List FileName}
    {name : FileName} {file : WalkedFile} :
    ∀ tree : FileTree, file ∈ tree.walkTopDown onEnter parent name → parent <+: file.parent
  | .file _, h => by
      rw [FileTree.walkTopDown, List.mem_singleton] at h
      exact h ▸ List.prefix_rfl
  | .directory entries, h => by
      simp only [FileTree.walkTopDown] at h
      split at h
      · exact (List.prefix_append parent [name]).trans (prefix_of_mem_walkEntries entries h)
      · cases h

theorem prefix_of_mem_walkEntries {onEnter : String → Bool} {parent : List FileName}
    {file : WalkedFile} :
    ∀ entries : List (FileName × FileTree),
      file ∈ walkEntries onEnter parent entries → parent <+: file.parent
  | [], h => by
      simp only [walkEntries, List.not_mem_nil] at h
  | (_, tree) :: rest, h => by
      simp only [walkEntries, List.mem_append] at h
      rcases h with h | h
      · exact tree.prefix_of_mem_walkTopDown h
      · exact prefix_of_mem_walkEntries rest h

end

mutual

/-- A walk that turns directories down visits the files whose directories all pass, in
the order of the walk that enters every directory. -/
theorem FileTree.walkTopDown_eq_filter {onEnter : String → Bool} {parent : List FileName}
    {name : FileName} (hparent : ∀ directory ∈ parent, onEnter directory.text = true) :
    ∀ tree : FileTree, tree.walkTopDown onEnter parent name =
      (tree.walkTopDown (fun _ => true) parent name).filter fun file =>
        file.parent.all fun directory => onEnter directory.text
  | .file _ => by
      have hall : (parent.all fun directory => onEnter directory.text) = true :=
        List.all_eq_true.mpr hparent
      simp [FileTree.walkTopDown, hall]
  | .directory entries => by
      simp only [FileTree.walkTopDown, if_true]
      by_cases hname : onEnter name.text = true
      · rw [if_pos hname]
        apply walkEntries_eq_filter
        intro directory hdirectory
        rcases List.mem_append.mp hdirectory with hmem | hmem
        · exact hparent directory hmem
        · rw [List.mem_singleton.mp hmem]
          exact hname
      · rw [if_neg hname]
        symm
        apply List.filter_eq_nil_iff.mpr
        intro file hfile hall
        -- every file below carries the name that is turned down
        have hbelow : name ∈ file.parent :=
          (prefix_of_mem_walkEntries entries hfile).subset (by simp)
        exact hname (List.all_eq_true.mp hall name hbelow)

theorem walkEntries_eq_filter {onEnter : String → Bool} {parent : List FileName}
    (hparent : ∀ directory ∈ parent, onEnter directory.text = true) :
    ∀ entries : List (FileName × FileTree), walkEntries onEnter parent entries =
      (walkEntries (fun _ => true) parent entries).filter fun file =>
        file.parent.all fun directory => onEnter directory.text
  | [] => by
      simp only [walkEntries, List.filter_nil]
  | (_, tree) :: rest => by
      simp only [walkEntries, List.filter_append]
      rw [← tree.walkTopDown_eq_filter hparent, ← walkEntries_eq_filter hparent rest]

end

/-- The walk gets to a directory when it turns down none of those above it. -/
def enters (projectPath : String) (path : List FileName) : Bool :=
  extractName projectPath ∉ ignoringDirectories &&
    path.all fun directory => directory.text ∉ ignoringDirectories

theorem ProjectTree.findParentDirectoriesOfFilesStartsWith_eq (projectPath : String)
    (tree : ProjectTree) (name : String) (filter : WalkedFile → Bool) :
    tree.findParentDirectoriesOfFilesStartsWith projectPath name filter =
      ((tree.listFiles projectPath).filter fun file =>
        enters projectPath file.parent && (startsWith file.name.text name && filter file)).map
          (·.parent) := by
  unfold findParentDirectoriesOfFilesStartsWith listFiles walkTopDown
  by_cases hroot : extractName projectPath ∈ ignoringDirectories
  · simp [hroot, enters]
  · rw [walkEntries_eq_filter (by simp)]
    simp [hroot, enters, List.filter_filter, Bool.and_comm]

/-! ## Paths -/

theorem length_le_pathText (projectPath : String) (path : List FileName) :
    projectPath.length ≤ (pathText projectPath path).length := by
  induction path using List.reverseRecOn with
  | nil => exact Nat.le_refl _
  | append_singleton path name ih =>
      rw [pathText, List.foldl_append] at *
      simp only [List.foldl_cons, List.foldl_nil, String.length_append]
      omega

/-- A directory is known by the text of its path. -/
theorem pathText_inj {projectPath : String} {path path' : List FileName} :
    pathText projectPath path = pathText projectPath path' ↔ path = path' := by
  constructor
  · intro h
    induction path using List.reverseRecOn generalizing path' with
    | nil =>
        rcases List.eq_nil_or_concat path' with rfl | ⟨front, name, rfl⟩
        · rfl
        · exfalso
          have hlength := congrArg String.length h
          have hfront := length_le_pathText projectPath front
          rw [List.concat_eq_append] at hlength
          simp only [pathText, List.foldl_append, List.foldl_cons, List.foldl_nil,
            String.length_append] at hlength hfront
          have hslash : ("/" : String).length = 1 := rfl
          omega
    | append_singleton path name ih =>
        rcases List.eq_nil_or_concat path' with rfl | ⟨front, name', rfl⟩
        · exfalso
          have hlength := congrArg String.length h
          have hfront := length_le_pathText projectPath path
          simp only [pathText, List.foldl_append, List.foldl_cons, List.foldl_nil,
            String.length_append] at hlength hfront
          have hslash : ("/" : String).length = 1 := rfl
          omega
        · rw [List.concat_eq_append] at h ⊢
          rw [pathText, pathText, List.foldl_append, List.foldl_append] at h
          obtain ⟨hfront, hname⟩ := (append_delimiter_inj name.noSlash name'.noSlash).mp h
          rw [ih hfront]
          rcases name with ⟨text, hslash⟩
          rcases name' with ⟨text', hslash'⟩
          have htext : text = text' := hname
          subst htext
          rfl
  · rintro rfl
    rfl

/-- Below the project's directory a path has a slash. -/
theorem slash_mem_pathText (projectPath : String) {path : List FileName} (h : path ≠ []) :
    '/' ∈ (pathText projectPath path).toList := by
  rcases List.eq_nil_or_concat path with rfl | ⟨front, name, rfl⟩
  · exact absurd rfl h
  · rw [pathText, List.concat_eq_append, List.foldl_append]
    simp

/-- The directories that are found satisfy the filter of their files. -/
theorem mem_findParentDirectories {projectPath name : String} {tree : ProjectTree}
    {filter : WalkedFile → Bool} {directory : List FileName}
    (h : directory ∈ tree.findParentDirectoriesOfFilesStartsWith projectPath name filter) :
    ∃ file, file.parent = directory ∧ startsWith file.name.text name = true ∧
      filter file = true := by
  rcases List.mem_map.mp h with ⟨file, hfile, rfl⟩
  have hboth := (List.mem_filter.mp hfile).2
  rw [Bool.and_eq_true] at hboth
  exact ⟨file, rfl, hboth⟩

end ArtPlatform
