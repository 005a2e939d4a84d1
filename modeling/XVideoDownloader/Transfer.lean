import XVideoDownloader.Lib.Slices

/-!
# What a download receives

The HTTP client is not part of the repository. A `Response` has what it hands over: a status and a stream of
chunks, each of which can be an error in the chunk's place. All downloads write a stream to a file with the
same loop (`receive`). The operations on the local disk succeed; a file that does not exist is `none`. The
callbacks that are told of the progress influence nothing and are left out.

A write to a file of `tokio` returns when it has taken the bytes over. They are on disk when the next write or a
`flush` of the file returns, and where a function returns without it, some bytes of its last write can still be on
their way (`unflushed`): how many is for the machine to say, so a `Response` comes with it (`late`). By the time the
file is opened again for another answer, they have arrived.

Sums and products of `u64` wrap where a download or an answer is modelled (`FileServer.serveFile`,
`ChunkedDownloader`, `DownloaderConfig`), as they do in the release build that the README describes. Where the overflow
itself is the question (`RangeReply.serveRange`, `Retry.retryDelay`, `AuthToken.verifyChecked`, `ChunkRanges`) they are
checked as in a debug build, which panics.
-/

namespace XVideoDownloader

abbrev Bytes := List UInt8

structure Response where
  status : Nat
  stream : List (Except String Bytes)
  /-- How many bytes of its last write are still on their way to the disk if nothing waits for them. -/
  late : Nat

namespace Response

/-- What arrives until the stream ends or breaks off. -/
def bodyOf : List (Except String Bytes) → Bytes
  | .ok chunk :: rest => chunk ++ bodyOf rest
  | _ => []

def errorOf : List (Except String Bytes) → Option String
  | [] => none
  | .error e :: _ => some e
  | .ok _ :: rest => errorOf rest

def body (r : Response) : Bytes := bodyOf r.stream

/-- The error that the stream breaks off with. -/
def error? (r : Response) : Option String := errorOf r.stream

/-- The whole body in one chunk, to a disk that is quick. -/
def whole (status : Nat) (body : Bytes) : Response := ⟨status, [.ok body], 0⟩

@[simp] theorem body_whole (status : Nat) (body : Bytes) : (whole status body).body = body := by
  simp [whole, Response.body, bodyOf]

@[simp] theorem error?_whole (status : Nat) (body : Bytes) : (whole status body).error? = none := rfl

/-- `while let Some(chunk_result) = stream.next().await { … }`: the chunks are appended to the file and
counted, up to the first error. -/
def receive : List (Except String Bytes) → Bytes → Nat → Except String Nat × Bytes
  | [], file, downloaded => (.ok downloaded, file)
  | .error e :: _, file, _ => (.error e, file)
  | .ok chunk :: rest, file, downloaded => receive rest (file ++ chunk) (downloaded + chunk.length)

theorem receive_snd (stream : List (Except String Bytes)) (file : Bytes) (downloaded : Nat) :
    (receive stream file downloaded).2 = file ++ bodyOf stream := by
  induction stream generalizing file downloaded with
  | nil => simp [receive, bodyOf]
  | cons c rest ih =>
    cases c with
    | error e => simp [receive, bodyOf]
    | ok chunk => rw [receive, ih, bodyOf, List.append_assoc]

theorem receive_fst (stream : List (Except String Bytes)) (file : Bytes) (downloaded : Nat) :
    (receive stream file downloaded).1 =
      match errorOf stream with
      | none => .ok (downloaded + (bodyOf stream).length)
      | some e => .error e := by
  induction stream generalizing file downloaded with
  | nil => simp [receive, errorOf, bodyOf]
  | cons c rest ih =>
    cases c with
    | error e => rfl
    | ok chunk =>
      rw [receive, ih, errorOf]
      cases errorOf rest with
      | none => simp [bodyOf, Nat.add_assoc]
      | some e => rfl

/-! ### What is on disk -/

/-- The length of the last chunk that has any bytes. -/
def lastWrite : List (Except String Bytes) → Nat
  | .ok chunk :: rest => if bodyOf rest = [] then chunk.length else lastWrite rest
  | _ => 0

/-- How many bytes are not on disk when the function returns without a `flush`. -/
def outstanding (r : Response) : Nat := min r.late (lastWrite r.stream)

/-- What is on disk of a file that ends with what was received. -/
def unflushed (r : Response) (file : Bytes) : Bytes := file.take (file.length - r.outstanding)

theorem lastWrite_le (stream : List (Except String Bytes)) : lastWrite stream ≤ (bodyOf stream).length := by
  induction stream with
  | nil => exact Nat.zero_le _
  | cons c rest ih =>
    cases c with
    | error e => exact Nat.zero_le _
    | ok chunk =>
      rw [lastWrite, bodyOf, List.length_append]
      split
      · exact Nat.le_add_right _ _
      · exact ih.trans (Nat.le_add_left _ _)

theorem outstanding_le (r : Response) : r.outstanding ≤ r.body.length := (min_le_right _ _).trans (lastWrite_le r.stream)

@[simp] theorem outstanding_whole (status : Nat) (body : Bytes) : (whole status body).outstanding = 0 := Nat.zero_min _

/-- Only what was received can be missing. -/
theorem unflushed_append (r : Response) (file : Bytes) :
    r.unflushed (file ++ r.body) = file ++ r.body.take (r.body.length - r.outstanding) := by
  rw [unflushed, List.length_append, Nat.add_sub_assoc r.outstanding_le, List.take_length_add_append]

end Response

end XVideoDownloader
