import Mathlib.Algebra.GroupWithZero.Nat
import XVideoDownloader.Transfer

/-!
# Downloads from a peer (`transfer/downloader.rs`)

`downloadFromPeer` resumes what is on disk, `downloadParallel` fetches chunks into files of a temporary
directory and merges them. Both take the size of the file from the body of an answer to `HEAD`, which is empty, so that
a peer's file is never longer than what is there: `download_from_peer_iff` and `download_parallel_never`.
-/

namespace XVideoDownloader
open Lib

/-- The HTTP client (`reqwest`): from the length that the head of an answer to `HEAD` gives, the `content_length()` of
the answer. -/
class HttpClient where
  contentLength : Option Nat → Option Nat

/-- What a peer's answers for one task come to at the client: the `content_length()` of its answer to `HEAD`, and its
answer to `GET` with `Range: bytes={start}-{end}` or `bytes={start}-`. -/
structure Peer where
  head : Except String (Option Nat)
  get : Nat → Option Nat → Except String Response

structure ChunkedDownloader where
  chunkSize : Nat

def divCeil (n d : Nat) : Nat := n / d + if 0 < n % d then 1 else 0

namespace ChunkedDownloader

def downloadFromPeer (peer : Peer) (disk : Option Bytes) : Except String Nat × Option Bytes :=
  match peer.head with
  | .error e => (.error e, disk)
  | .ok none => (.error "服务器未返回 Content-Length", disk)
  | .ok (some totalSize) =>
    let existingSize := (disk.map List.length).getD 0
    if totalSize ≤ existingSize then (.ok totalSize, disk)
    else
      let file := disk.getD []
      match peer.get existingSize none with
      | .error e => (.error e, some file)
      | .ok response =>
        -- nothing is flushed, here or in a chunk
        let r := Response.receive response.stream file existingSize
        (r.1, some (response.unflushed r.2))

/-- `download_chunk_arc`: the chunk's file is truncated once there is an answer. -/
def downloadChunkArc (answer : Except String Response) (file : Option Bytes) :
    Except String Nat × Option Bytes :=
  match answer with
  | .error e => (.error e, file)
  | .ok response =>
    let r := Response.receive response.stream [] 0
    (r.1, some (response.unflushed r.2))

variable (d : ChunkedDownloader)

/-! The arithmetic of `u64` wraps, as in a release build. -/

def chunkStart (i : Nat) : Nat := i * d.chunkSize % UInt64.size

def chunkEnd (totalSize i : Nat) : Nat :=
  min ((d.chunkStart i + d.chunkSize - 1) % UInt64.size) (totalSize - 1)

/-- `tmp` is what the temporary directory holds of earlier downloads. The chunks write to files of their own,
so they may as well come one after the other. The merge is not flushed either, but what `copy` writes it waits for. -/
def downloadParallel (peer : Peer) (numConnections : Nat) (tmp : Nat → Option Bytes) (disk : Option Bytes) :
    Except String Nat × Option Bytes :=
  match peer.head with
  | .error e => (.error e, disk)
  | .ok none => (.error "服务器未返回 Content-Length", disk)
  | .ok (some totalSize) =>
    if totalSize ≤ d.chunkSize * 2 % UInt64.size then downloadFromPeer peer disk
    else
      let numChunks := divCeil totalSize d.chunkSize
      let spawned := (List.range numChunks).take numConnections
      let result (i : Nat) := downloadChunkArc (peer.get (d.chunkStart i) (some (d.chunkEnd totalSize i))) (tmp i)
      let totalDownloaded := (spawned.map fun i => match (result i).1 with
        | .ok size => size
        | .error _ => 0).sum
      let file (i : Nat) := if i ∈ spawned then (result i).2 else tmp i
      (.ok totalDownloaded, some ((List.range numChunks).flatMap fun i => (file i).getD []))

/-! ### The empty answer to `HEAD` -/

section
variable {d} {F : Bytes} {disk : Option Bytes} {peer : Peer}

theorem downloadFromPeer_of_zero (h : peer.head = .ok (some 0)) (disk : Option Bytes) :
    downloadFromPeer peer disk = (.ok 0, disk) := by
  simp only [downloadFromPeer, h, Nat.zero_le, if_true]

variable (d) in
theorem downloadParallel_of_zero (h : peer.head = .ok (some 0)) (numConnections : Nat) (tmp : Nat → Option Bytes)
    (disk : Option Bytes) : d.downloadParallel peer numConnections tmp disk = (.ok 0, disk) := by
  simp only [downloadParallel, h, Nat.zero_le, if_true, downloadFromPeer_of_zero h]

/-- The `content_length()` of an answer is the size of its body, and the answer to `HEAD` has an empty one: so success
means the whole file if and only if both the file of the peer and the one on disk are empty. -/
theorem download_from_peer_iff [HttpClient] (hempty : ∀ header, HttpClient.contentLength header = some 0) (F : Bytes)
    (disk : Option Bytes) (peer : Peer) (hdisk : disk.getD [] <+: F)
    (hhead : peer.head = .ok (HttpClient.contentLength (some F.length))) :
    (∀ n, (downloadFromPeer peer disk).1 = .ok n → n = F.length ∧ (downloadFromPeer peer disk).2 = some F) ↔
      F = [] ∧ disk = some [] := by
  rw [hempty] at hhead
  rw [downloadFromPeer_of_zero hhead]
  simp only [Except.ok.injEq, forall_eq']
  constructor
  · rintro ⟨hlen, hfile⟩
    have hF : F = [] := List.length_eq_zero_iff.1 hlen.symm
    rw [hF] at hfile
    exact ⟨hF, hfile⟩
  · rintro ⟨rfl, rfl⟩
    exact ⟨rfl, rfl⟩

/-- A file that is large enough for chunks is not empty, so success never means the whole file. -/
theorem download_parallel_never [HttpClient] (hempty : ∀ header, HttpClient.contentLength header = some 0)
    (d : ChunkedDownloader) (F : Bytes) (peer : Peer) (numConnections : Nat) (tmp : Nat → Option Bytes)
    (disk : Option Bytes) (hlarge : 2 * d.chunkSize < F.length)
    (hhead : peer.head = .ok (HttpClient.contentLength (some F.length))) :
    ¬ ∀ n, (d.downloadParallel peer numConnections tmp disk).1 = .ok n →
      n = F.length ∧ (d.downloadParallel peer numConnections tmp disk).2 = some F := by
  rw [hempty] at hhead
  rw [downloadParallel_of_zero d hhead]
  intro h
  have hlen : 0 = F.length := (h 0 rfl).1
  omega

end

/-! ### The chunks -/

theorem divCeil_spec {n d : Nat} (hn : 0 < n) (hd : 0 < d) :
    0 < divCeil n d ∧ (divCeil n d - 1) * d < n ∧ n ≤ divCeil n d * d := by
  have hdiv := Nat.div_add_mod n d
  have hlt := Nat.mod_lt n hd
  rw [Nat.mul_comm] at hdiv
  unfold divCeil
  generalize n / d = q at hdiv ⊢
  split
  · rw [Nat.add_sub_cancel, Nat.add_mul]
    omega
  · have hq : 0 < q := by
      rcases Nat.eq_zero_or_pos q with rfl | h
      · omega
      · exact h
    have hsub : (q + 0 - 1) * d = q * d - d := by rw [Nat.add_zero, Nat.sub_mul, Nat.one_mul]
    rw [hsub, Nat.add_zero]
    omega

variable {d} {total : Nat}

theorem mul_chunkSize_lt (hd : 0 < d.chunkSize) (ht : 0 < total) {i : Nat} (hi : i < divCeil total d.chunkSize) :
    i * d.chunkSize < total := by
  have hspec := divCeil_spec ht hd
  have hle : i * d.chunkSize ≤ (divCeil total d.chunkSize - 1) * d.chunkSize :=
    Nat.mul_le_mul_right _ (by omega)
  omega

theorem chunkStart_eq (hd : 0 < d.chunkSize) (ht : 0 < total) (h64 : total < UInt64.size) {i : Nat}
    (hi : i < divCeil total d.chunkSize) : d.chunkStart i = i * d.chunkSize :=
  Nat.mod_eq_of_lt (by have := mul_chunkSize_lt hd ht hi; omega)

end ChunkedDownloader

namespace Sample
open ChunkedDownloader

def source : Bytes := [1, 2, 3, 4, 5]

/-- What `reqwest` does: whatever the head gives, the body of the answer is empty. -/
scoped instance reqwest : HttpClient := ⟨fun _ => some 0⟩

/-- A peer that has the file and answers every range with it. -/
def peer (F : Bytes) : Peer where
  head := .ok (HttpClient.contentLength (some F.length))
  get start stop := .ok <| .whole 206 <| slice F start ((stop.map (· + 1)).getD F.length)

theorem download_from_peer_empty : (downloadFromPeer (peer []) (some [])).2 = some [] :=
  ((download_from_peer_iff (fun _ => rfl) [] (some []) (peer []) List.nil_prefix rfl).2 ⟨rfl, rfl⟩ 0 rfl).2

/-- The rest of the file is not asked for. -/
theorem not_download_from_peer_rest :
    [1, 2] <+: source ∧ (peer source).get 2 none = .ok (.whole 206 [3, 4, 5]) ∧
      downloadFromPeer (peer source) (some [1, 2]) = (.ok 0, some [1, 2]) ∧
      ¬ ∀ n, (downloadFromPeer (peer source) (some [1, 2])).1 = .ok n →
        n = source.length ∧ (downloadFromPeer (peer source) (some [1, 2])).2 = some source := by
  refine ⟨⟨[3, 4, 5], rfl⟩, rfl, rfl, fun h => ?_⟩
  cases (h 0 rfl).1

theorem download_parallel_never_threeConnections :
    ¬ ∀ n, (downloadParallel ⟨2⟩ (peer source) 3 (fun _ => none) none).1 = .ok n →
      n = source.length ∧ (downloadParallel ⟨2⟩ (peer source) 3 (fun _ => none) none).2 = some source :=
  download_parallel_never (fun _ => rfl) ⟨2⟩ source (peer source) 3 (fun _ => none) none (by decide) rfl

/-- There is a connection for each of the three chunks, and none of them is fetched. -/
theorem not_download_parallel_threeConnections :
    (∀ start stop, ∃ r, (peer source).get start (some stop) = .ok r ∧ r.error? = none ∧
        r.body = slice source start (stop + 1)) ∧
      downloadParallel ⟨2⟩ (peer source) 3 (fun _ => none) none = (.ok 0, none) ∧
      ¬ ∀ n, (downloadParallel ⟨2⟩ (peer source) 3 (fun _ => none) none).1 = .ok n →
        n = source.length ∧ (downloadParallel ⟨2⟩ (peer source) 3 (fun _ => none) none).2 = some source := by
  refine ⟨fun start stop => ⟨_, rfl, rfl, Response.body_whole _ _⟩, rfl, fun h => ?_⟩
  cases (h 0 rfl).1

end Sample

end XVideoDownloader
