import ArtPlatform.ManagementPanel.FileService

/-!
# Chunked requests of the web client

A file is cut into chunks, and the chunks are sent on request: a request for a number of
elements sends as many chunks, and the end of the stream when it finds none left.

Main results:

- Theorem `flatten_chunks`: the chunks of a list make up the list.
- Theorem `request_eq`: what a request sends.
-/

namespace ArtPlatform.Web

variable {α : Type}

/-! ## Chunks -/

/-- The loop of `chunks` from a position on; each pass moves the position. -/
def chunksFrom (chunkSize : Nat) (xs : List α) : Nat → Nat → List (List α)
  | 0, _ => []
  | passes + 1, i =>
      if i < xs.length then
        (xs.drop i).take chunkSize :: chunksFrom chunkSize xs passes (i + chunkSize)
      else []

/-- As many passes as elements suffice for every chunk size but zero. -/
def chunks (chunkSize : Nat) (xs : List α) : List (List α) :=
  chunksFrom chunkSize xs xs.length 0

theorem flatten_chunksFrom {chunkSize : Nat} (h : 0 < chunkSize) (xs : List α)
    (passes i : Nat) (hpasses : xs.length ≤ i + passes) :
    (chunksFrom chunkSize xs passes i).flatten = xs.drop i := by
  induction passes generalizing i with
  | zero => exact (List.drop_eq_nil_of_le hpasses).symm
  | succ passes ih =>
      unfold chunksFrom
      split
      · rw [List.flatten_cons, ih (i + chunkSize) (by omega), ← List.drop_drop,
          List.take_append_drop]
      · rename_i hend
        exact (List.drop_eq_nil_of_le (Nat.not_lt.mp hend)).symm

/-- The chunks of a list make up the list. -/
theorem flatten_chunks {chunkSize : Nat} (h : 0 < chunkSize) (xs : List α) :
    (chunks chunkSize xs).flatten = xs :=
  flatten_chunksFrom h xs xs.length 0 (by omega)

/-! ## Requests -/

/-- What the client sends to the server. -/
inductive Frame
  | next (chunk : PlatformFileChunk)
  | complete
deriving DecidableEq, Repr

structure PlatformFilePayload where
  id : PlatformFileIdentifier
  bytes : List UInt8

/-- `uploadFile`: the requests for the chunks of a file. -/
def uploadFile (chunkSize : Nat) (payload : PlatformFilePayload) : List PlatformFileChunk :=
  (chunks chunkSize payload.bytes).map fun bytes =>
    { id := payload.id, bytes := bytes, size := payload.bytes.length }

/-- `request` of `chunkedRequest`: the frames that are sent, and the chunks left. -/
def request : Nat → List PlatformFileChunk → List Frame × List PlatformFileChunk
  | 0, chunkValues => ([], chunkValues)
  | _ + 1, [] => ([.complete], [])
  | count + 1, next :: chunkValues =>
      let (frames, left) := request count chunkValues
      (.next next :: frames, left)

/-- A request sends the chunks it asks for, and the end when it asks for more. -/
theorem request_eq (count : Nat) (chunkValues : List PlatformFileChunk) :
    request count chunkValues =
      ((chunkValues.take count).map .next ++
          (if chunkValues.length < count then [.complete] else []),
        chunkValues.drop count) := by
  induction count generalizing chunkValues with
  | zero => simp [request]
  | succ count ih =>
      cases chunkValues with
      | nil => simp [request]
      | cons next chunkValues => simp [request, ih]

theorem flatMap_bytes_uploadFile {chunkSize : Nat} (h : 0 < chunkSize)
    (payload : PlatformFilePayload) :
    (uploadFile chunkSize payload).flatMap (·.bytes) = payload.bytes := by
  rw [uploadFile, List.flatMap_map]
  simp only [List.flatMap_id']
  exact flatten_chunks h payload.bytes

theorem id_of_mem_uploadFile {chunkSize : Nat} {payload : PlatformFilePayload}
    {chunk : PlatformFileChunk} (h : chunk ∈ uploadFile chunkSize payload) :
    chunk.id = payload.id := by
  obtain ⟨bytes, -, rfl⟩ := List.mem_map.mp h
  rfl

theorem uploadFile_ne_nil {chunkSize : Nat} (h : 0 < chunkSize)
    {payload : PlatformFilePayload} (hbytes : payload.bytes ≠ []) :
    uploadFile chunkSize payload ≠ [] := by
  intro hnil
  have hflat := flatMap_bytes_uploadFile h payload
  rw [hnil] at hflat
  exact hbytes hflat.symm

end ArtPlatform.Web
