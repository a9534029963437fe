import ArtPlatform.Common.Chunked
import ArtPlatform.ManagementPanel.Entities
import Mathlib.Data.List.Induction
import Mathlib.Logic.Function.Basic

/-!
# The file service

The upload of a file: the chunks of a stream are written to a buffer, and the end of the
stream stores the buffer under the identifier of the last chunk and ends the response.

Main results:

- Theorem `FileUpload.run_atomic_iff`: exactly when an upload is atomic and its client gets
  an answer.
- Theorem `FileUpload.empty_upload_unanswered`: the response to an upload without chunks
  never ends.
-/

namespace ArtPlatform

structure PlatformFileChunk where
  size : Nat
  id : PlatformFileIdentifier
  bytes : List UInt8
deriving DecidableEq, Repr

/-- The space of file data, with the puts that were made. -/
structure FileStore where
  files : Nat → Option (List UInt8) := fun _ => none
  puts : List (Nat × List UInt8) := []

def FileStore.putFileData (s : FileStore) (id : Nat) (data : List UInt8) : FileStore where
  files := Function.update s.files id (some data)
  puts := s.puts ++ [(id, data)]

/-- An upload: the counter of its chunked stream, its buffer and last chunk, whether its
stream has ended, and whether its response has. -/
structure FileUpload where
  store : FileStore
  chunksCounter : Int
  buffer : List UInt8 := []
  lastChunk : Option PlatformFileChunk := none
  terminated : Bool := false
  responded : Bool := false

namespace FileUpload

/-- The subscription of `uploadFile`; the chunks are requested by `chunked`. -/
def subscribe (store : FileStore) (chunksCount : Nat) : FileUpload where
  store := store
  chunksCounter := chunksCount

/-- `writeChunk`, behind the counting of `chunked`; the number of chunks requested. -/
def writeChunk (s : FileUpload) (chunksCount : Nat) (chunk : PlatformFileChunk) :
    FileUpload × Nat :=
  let (chunksCounter, requested) := chunkedNext chunksCount s.chunksCounter
  ({ s with
      chunksCounter := chunksCounter
      lastChunk := some chunk
      buffer := s.buffer ++ chunk.bytes }, requested)

/-- `writeFile`; without a chunk it raises before the response is ended. -/
def writeFile (s : FileUpload) : FileUpload :=
  match s.lastChunk with
  | none => { s with buffer := [], terminated := true }
  | some chunk =>
      { s with
        store := s.store.putFileData chunk.id.id s.buffer
        buffer := []
        terminated := true
        responded := true }

/-- An error of the stream is logged. -/
def fail (s : FileUpload) : FileUpload :=
  { s with terminated := true }

/-! ## A whole stream -/

def receiveAll (s : FileUpload) (chunksCount : Nat) (chunks : List PlatformFileChunk) :
    FileUpload :=
  chunks.foldl (fun s chunk => (s.writeChunk chunksCount chunk).1) s

/-- How the stream of the chunks ends. -/
inductive End
  | complete
  | error
deriving DecidableEq, Repr

def finish (s : FileUpload) : End → FileUpload
  | .complete => s.writeFile
  | .error => s.fail

/-- `uploadFile`, from the subscription to the end of the stream. -/
def run (chunksCount : Nat) (store : FileStore) (chunks : List PlatformFileChunk)
    (ending : End) : FileUpload :=
  ((subscribe store chunksCount).receiveAll chunksCount chunks).finish ending

variable {chunksCount : Nat} {s : FileUpload} {chunks : List PlatformFileChunk}

/-- The chunks only fill the buffer, and the last one is remembered. -/
theorem receiveAll_append_singleton (chunk : PlatformFileChunk) :
    s.receiveAll chunksCount (chunks ++ [chunk]) =
      ((s.receiveAll chunksCount chunks).writeChunk chunksCount chunk).1 := by
  simp [receiveAll]

theorem store_receiveAll : (s.receiveAll chunksCount chunks).store = s.store := by
  induction chunks using List.reverseRecOn with
  | nil => rfl
  | append_singleton chunks chunk ih =>
      rw [receiveAll_append_singleton]
      exact ih

theorem responded_receiveAll : (s.receiveAll chunksCount chunks).responded = s.responded := by
  induction chunks using List.reverseRecOn with
  | nil => rfl
  | append_singleton chunks chunk ih =>
      rw [receiveAll_append_singleton]
      exact ih

theorem buffer_receiveAll :
    (s.receiveAll chunksCount chunks).buffer = s.buffer ++ chunks.flatMap (·.bytes) := by
  induction chunks using List.reverseRecOn with
  | nil => simp [receiveAll]
  | append_singleton chunks chunk ih =>
      rw [receiveAll_append_singleton, List.flatMap_append, List.flatMap_singleton,
        ← List.append_assoc, ← ih]
      rfl

theorem lastChunk_receiveAll (h : s.lastChunk = none) :
    (s.receiveAll chunksCount chunks).lastChunk = chunks.getLast? := by
  induction chunks using List.reverseRecOn with
  | nil => exact h
  | append_singleton chunks chunk _ =>
      rw [receiveAll_append_singleton, List.getLast?_concat]
      rfl

/-- The upload stores the concatenation of the chunks or nothing, changes no other file,
and its response ends with the stream. -/
structure Atomic (chunksCount : Nat) (store : FileStore) (id : PlatformFileIdentifier)
    (chunks : List PlatformFileChunk) (ending : End) : Prop where
  stored : ending = .complete → chunks ≠ [] →
    (run chunksCount store chunks ending).store.files id.id = some (chunks.flatMap (·.bytes))
  empty : ending = .complete → chunks = [] → (run chunksCount store chunks ending).store = store
  failed : ending = .error → (run chunksCount store chunks ending).store = store
  others : ∀ other, other ≠ id.id →
    (run chunksCount store chunks ending).store.files other = store.files other
  unanswered : ∀ received, received <+: chunks →
    ((subscribe store chunksCount).receiveAll chunksCount received).responded = false
  answered : (run chunksCount store chunks ending).responded = true

/-- The data of the file, and nothing else, is put at the end of a stream of chunks. -/
theorem run_complete (chunksCount : Nat) (store : FileStore) {id : PlatformFileIdentifier}
    (hid : ∀ chunk ∈ chunks, chunk.id = id) (hne : chunks ≠ []) :
    (run chunksCount store chunks .complete).store =
        store.putFileData id.id (chunks.flatMap (·.bytes)) ∧
      (run chunksCount store chunks .complete).responded = true := by
  have hlast : ((subscribe store chunksCount).receiveAll chunksCount chunks).lastChunk =
      some (chunks.getLast hne) := by
    rw [lastChunk_receiveAll rfl, List.getLast?_eq_some_getLast hne]
  have hbuffer : ((subscribe store chunksCount).receiveAll chunksCount chunks).buffer =
      chunks.flatMap (·.bytes) := by
    rw [buffer_receiveAll]
    rfl
  unfold run finish writeFile
  simp only [hlast, hbuffer, store_receiveAll, hid _ (List.getLast_mem hne)]
  exact ⟨rfl, trivial⟩

/-- An upload is atomic and answered exactly when its stream has chunks and ends normally. -/
theorem run_atomic_iff (chunksCount : Nat) (store : FileStore) {id : PlatformFileIdentifier}
    {chunks : List PlatformFileChunk} (hid : ∀ chunk ∈ chunks, chunk.id = id) (ending : End) :
    Atomic chunksCount store id chunks ending ↔ ending = .complete ∧ chunks ≠ [] := by
  constructor
  · intro h
    have hanswered := h.answered
    cases ending with
    | error =>
        -- an error leaves the response as the chunks have left it
        have hopen : (run chunksCount store chunks .error).responded = false :=
          h.unanswered chunks List.prefix_rfl
        rw [hopen] at hanswered
        cases hanswered
    | complete =>
        refine ⟨rfl, ?_⟩
        rintro rfl
        cases hanswered
  · rintro ⟨rfl, hne⟩
    obtain ⟨hstore, hresponded⟩ := run_complete chunksCount store hid hne
    constructor
    · intro _ _
      rw [hstore]
      exact Function.update_self ..
    · exact fun _ hnil => absurd hnil hne
    · exact fun hend => nomatch hend
    · intro other hother
      rw [hstore]
      exact Function.update_of_ne hother ..
    · exact fun received _ => responded_receiveAll
    · exact hresponded

theorem run_atomic_single :
    Atomic 8 {} ⟨1, "image"⟩ [⟨1, ⟨1, "image"⟩, [7]⟩] .complete :=
  (run_atomic_iff 8 {} (by simp) .complete).mpr ⟨rfl, by simp⟩

/-- Without a chunk the end of the stream does not end the response. -/
theorem empty_upload_unanswered : ¬ Atomic 8 {} ⟨1, "image"⟩ [] .complete := by
  intro h
  cases h.answered

end FileUpload

end ArtPlatform
