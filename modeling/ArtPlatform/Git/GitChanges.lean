import ArtPlatform.Foundation.LinkedMap

/-!
# The changes between two commits

The entries of a diff, sorted into the buckets of `GitChanges`: three lists of paths
and two maps from an old path to a new one.  A copy is filed as a rename.

Main results:

- Theorem `changes_recover_iff`: exactly when every entry of the diff can be read back
  from its bucket.
- Theorem `copy_not_recovered`: a diff with one copy, which is not found among the
  copies.
-/

namespace ArtPlatform

inductive ChangeType
  | add
  | modify
  | delete
  | rename
  | copy
deriving DecidableEq, Repr

structure DiffEntry where
  changeType : ChangeType
  oldPath : String
  newPath : String
deriving DecidableEq, Repr

structure GitChanges where
  deleted : List String := []
  modified : List String := []
  added : List String := []
  renamed : LinkedMap String String := .empty
  copied : LinkedMap String String := .empty
deriving DecidableEq, Repr

namespace GitChanges

def add (c : GitChanges) (path : String) : GitChanges :=
  { c with added := c.added ++ [path] }

def modify (c : GitChanges) (path : String) : GitChanges :=
  { c with modified := c.modified ++ [path] }

def delete (c : GitChanges) (path : String) : GitChanges :=
  { c with deleted := c.deleted ++ [path] }

def rename (c : GitChanges) (oldPath newPath : String) : GitChanges :=
  { c with renamed := c.renamed.put oldPath newPath }

end GitChanges

/-- The bucket of one entry. -/
def DiffEntry.file (c : GitChanges) (entry : DiffEntry) : GitChanges :=
  match entry.changeType with
  | .add => c.add entry.newPath
  | .modify => c.modify entry.newPath
  | .delete => c.delete entry.oldPath
  | .rename => c.rename entry.oldPath entry.newPath
  | .copy => c.rename entry.oldPath entry.newPath

def changes (entries : List DiffEntry) : GitChanges :=
  entries.foldl DiffEntry.file {}

/-! ## The buckets -/

def DiffEntry.paths (entry : DiffEntry) : String × String :=
  (entry.oldPath, entry.newPath)

def entriesOf (type : ChangeType) (entries : List DiffEntry) : List DiffEntry :=
  entries.filter fun entry => entry.changeType = type

/-- The renames and, filed as such, the copies. -/
def pathChanges (entries : List DiffEntry) : List DiffEntry :=
  entries.filter fun entry => entry.changeType = .rename || entry.changeType = .copy

theorem changes_append_singleton (entries : List DiffEntry) (entry : DiffEntry) :
    changes (entries ++ [entry]) = entry.file (changes entries) := by
  simp [changes]

/-- Every bucket as a function of the diff. -/
theorem changes_eq (entries : List DiffEntry) :
    changes entries =
      { added := (entriesOf .add entries).map DiffEntry.newPath
        modified := (entriesOf .modify entries).map DiffEntry.newPath
        deleted := (entriesOf .delete entries).map DiffEntry.oldPath
        renamed := .ofEntries ((pathChanges entries).map DiffEntry.paths)
        copied := .empty } := by
  induction entries using List.reverseRecOn with
  | nil => rfl
  | append_singleton entries entry ih =>
      rw [changes_append_singleton, ih]
      rcases entry with ⟨type, oldPath, newPath⟩
      cases type <;>
        simp [DiffEntry.file, entriesOf, pathChanges, GitChanges.add, GitChanges.modify,
          GitChanges.delete, GitChanges.rename, LinkedMap.ofEntries, DiffEntry.paths]

/-- Every entry is found in the bucket of its kind, and the buckets hold nothing else. -/
structure GitChanges.Recovers (c : GitChanges) (entries : List DiffEntry) : Prop where
  added : c.added = (entriesOf .add entries).map DiffEntry.newPath
  modified : c.modified = (entriesOf .modify entries).map DiffEntry.newPath
  deleted : c.deleted = (entriesOf .delete entries).map DiffEntry.oldPath
  renamed : ∀ paths, paths ∈ c.renamed.entries ↔
    paths ∈ (entriesOf .rename entries).map DiffEntry.paths
  copied : ∀ paths, paths ∈ c.copied.entries ↔
    paths ∈ (entriesOf .copy entries).map DiffEntry.paths

theorem mem_entriesOf {type : ChangeType} {entries : List DiffEntry} {entry : DiffEntry} :
    entry ∈ entriesOf type entries ↔ entry ∈ entries ∧ entry.changeType = type := by
  simp [entriesOf]

theorem pathChanges_of_forall_ne_copy {entries : List DiffEntry}
    (h : ∀ entry ∈ entries, entry.changeType ≠ .copy) :
    pathChanges entries = entriesOf .rename entries := by
  apply List.filter_congr
  intro entry hentry
  simp [h entry hentry]

/-- The diff can be read back from its buckets exactly when it has no copy and no two
renames of one path to different ones. -/
theorem changes_recover_iff (entries : List DiffEntry) :
    (changes entries).Recovers entries ↔
      (∀ entry ∈ entries, entry.changeType ≠ .copy) ∧
        ∀ e ∈ entriesOf .rename entries, ∀ f ∈ entriesOf .rename entries,
          e.oldPath = f.oldPath → e.newPath = f.newPath := by
  have hfunctional : (∀ e ∈ (entriesOf .rename entries).map DiffEntry.paths,
      ∀ f ∈ (entriesOf .rename entries).map DiffEntry.paths, e.1 = f.1 → e = f) ↔
        ∀ e ∈ entriesOf .rename entries, ∀ f ∈ entriesOf .rename entries,
          e.oldPath = f.oldPath → e.newPath = f.newPath := by
    simp only [List.forall_mem_map, DiffEntry.paths, Prod.mk.injEq]
    exact ⟨fun h e he f hf hold => (h e he f hf hold).2,
      fun h e he f hf hold => ⟨hold, h e he f hf hold⟩⟩
  rw [changes_eq, ← hfunctional, ← LinkedMap.forall_mem_ofEntries_iff]
  constructor
  · intro h
    have hcopy : ∀ entry ∈ entries, entry.changeType ≠ .copy := by
      intro entry hentry htype
      have hmem : entry ∈ entriesOf .copy entries := mem_entriesOf.mpr ⟨hentry, htype⟩
      have hempty := (h.copied entry.paths).mpr (List.mem_map_of_mem hmem)
      cases hempty
    refine ⟨hcopy, ?_⟩
    have hrenamed := h.renamed
    rw [pathChanges_of_forall_ne_copy hcopy] at hrenamed
    exact hrenamed
  · rintro ⟨hcopy, hrenamed⟩
    constructor
    · rfl
    · rfl
    · rfl
    · rw [pathChanges_of_forall_ne_copy hcopy]
      exact hrenamed
    · intro paths
      have hnone : entriesOf .copy entries = [] := by
        apply List.filter_eq_nil_iff.mpr
        intro entry hentry
        simpa using hcopy entry hentry
      rw [hnone]
      rfl

/-- A copy is not found among the copies. -/
theorem copy_not_recovered :
    ¬ (changes [⟨.copy, "README", "docs/README"⟩]).Recovers
      [⟨.copy, "README", "docs/README"⟩] := by
  intro h
  have hcopied := (h.copied ("README", "docs/README")).mpr (by decide)
  cases hcopied

end ArtPlatform
