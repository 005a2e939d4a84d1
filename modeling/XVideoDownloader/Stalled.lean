import XVideoDownloader.FileService

/-!
# The downloader at the file server

The downloader keeps its side of a connection open while it waits, and then the server never comes to look at the
request: all that it can get is the refusal of the limiter. So between two instances of the program nothing is
transferred (`nothing_transferred`), and after a refusal a download even succeeds, with no bytes. The client has no
timeout: what is said is about a `HEAD` that ends.
-/

namespace XVideoDownloader
open Lib ChunkedDownloader

namespace FileServer

/-- What the client hands over where `written` answers its `HEAD`: an error, or after a whole head the length that the
head gives, or that of the body, which is empty. -/
def AnswersHead (written : Bytes) : Except String (Option Nat) → Prop
  | .error _ => True
  | .ok length => ∃ status headers body, readHead written = some (status :: headers, body) ∧
      ∀ n, length = some n → n = 0 ∨ (header "Content-Length: " headers).bind decimal = some n

namespace Service

theorem readHead_tooManyRequests :
    readHead Conn.tooManyRequests = some ([utf8 "HTTP/1.1 429 Too Many Requests", utf8 "Content-Length: 0"], []) := by
  decide +kernel

/-- Of a refusal, whole or not, no length but zero can be read. -/
theorem length_refused {written : Bytes} (h : written <+: Conn.tooManyRequests) {n : Nat}
    (hanswer : AnswersHead written (.ok (some n))) : n = 0 := by
  obtain ⟨status, headers, body, hread, hlength⟩ := hanswer
  obtain ⟨more, hmore⟩ := h
  have hwhole : readHead (written ++ more) = _ := readHeadFrom_append hread more
  rw [hmore, readHead_tooManyRequests] at hwhole
  have hheaders : headers = [utf8 "Content-Length: 0"] := by
    simp only [Option.some.injEq, Prod.mk.injEq, List.cons.injEq] at hwhole
    exact hwhole.1.2.symm
  have hzero : (header "Content-Length: " [utf8 "Content-Length: 0"]).bind decimal = some 0 := by decide +kernel
  rcases hlength n rfl with h | h
  · exact h
  · rw [hheaders, hzero] at h
    exact (Option.some.inj h).symm

theorem downloadFromPeer_refused {peer : Peer} (h : ∀ n, peer.head = .ok (some n) → n = 0) (disk : Option Bytes) :
    (∀ n, (downloadFromPeer peer disk).1 = .ok n → n = 0) ∧ (downloadFromPeer peer disk).2 = disk := by
  unfold downloadFromPeer
  split
  · exact ⟨by simp, rfl⟩
  · exact ⟨by simp, rfl⟩
  · rename_i total htotal
    rw [h total htotal, if_pos (Nat.zero_le _)]
    exact ⟨by simp, rfl⟩

theorem downloadParallel_refused {peer : Peer} (h : ∀ n, peer.head = .ok (some n) → n = 0) (d : ChunkedDownloader)
    (numConnections : Nat) (tmp : Nat → Option Bytes) (disk : Option Bytes) :
    (∀ n, (d.downloadParallel peer numConnections tmp disk).1 = .ok n → n = 0) ∧
      (d.downloadParallel peer numConnections tmp disk).2 = disk := by
  unfold downloadParallel
  split
  · exact ⟨by simp, rfl⟩
  · exact ⟨by simp, rfl⟩
  · rename_i total htotal
    rw [h total htotal, if_pos (Nat.zero_le _)]
    exact downloadFromPeer_refused h disk

variable [AuthDeps] [UrlDeps]

/-- A client that keeps its side open. -/
theorem refused_of_open {as : List Act} {i : Nat} {c : Conn} (hc : (new.run as).conns[i]? = some c)
    (hopen : ∀ bytes ∈ c.reads, bytes ≠ []) :
    (∀ reply, c.phase = .over (some reply) → reply = .tooManyRequests) ∧ c.written <+: Conn.tooManyRequests := by
  have hat := at_run hc
  have hnone (request : Bytes) : ReadLoop.after c.reads ≠ .done request := by
    intro hdone
    rcases ReadLoop.after_cases hopen with ⟨-, h⟩ | ⟨-, capacity, h⟩
    · rw [h] at hdone
      cases hdone
    · rw [h] at hdone
      cases hdone
  constructor
  · intro reply hphase
    rcases hat.finished reply hphase with ⟨rfl, -⟩ | ⟨request, hdone⟩
    · rfl
    · exact absurd hdone (hnone request)
  · by_cases hover : ∃ reply, c.phase = .over (some reply)
    · obtain ⟨reply, hphase⟩ := hover
      rcases hat.finished reply hphase with ⟨-, h⟩ | ⟨request, hdone⟩
      · exact h
      · exact absurd hdone (hnone request)
    · rw [hat.silent (not_exists.1 hover)]
      exact List.nil_prefix

/-- A client that keeps its side open is answered by the limiter only. A download whose `HEAD` is such a request, once
that has ended, fails or succeeds with no bytes, and leaves the disk as it was. -/
theorem nothing_transferred (as : List Act) (i : Nat) (c : Conn) (hc : (new.run as).conns[i]? = some c)
    (hopen : ∀ bytes ∈ c.reads, bytes ≠ []) :
    (∀ reply, c.phase = .over (some reply) → reply = .tooManyRequests) ∧
    ∀ peer : Peer, AnswersHead c.written peer.head → ∀ disk,
      ((∀ n, (downloadFromPeer peer disk).1 = .ok n → n = 0) ∧ (downloadFromPeer peer disk).2 = disk) ∧
      ∀ (d : ChunkedDownloader) numConnections tmp,
        (∀ n, (d.downloadParallel peer numConnections tmp disk).1 = .ok n → n = 0) ∧
          (d.downloadParallel peer numConnections tmp disk).2 = disk := by
  obtain ⟨hreply, hwritten⟩ := refused_of_open hc hopen
  refine ⟨hreply, fun peer hanswer disk => ?_⟩
  have hzero (n : Nat) (hn : peer.head = .ok (some n)) : n = 0 := length_refused hwritten (hn ▸ hanswer)
  exact ⟨downloadFromPeer_refused hzero disk, fun d k tmp => downloadParallel_refused hzero d k tmp disk⟩

end Service
end FileServer

namespace Sample
open FileServer Service

/-- An address connects once more than it may in a minute. -/
def crowded : List Act := (List.range 101).flatMap fun i => [.accept (.v4 1), .handle i (.check i 53)]

/-- The last connection is refused. -/
theorem run_crowded :
    (new.run crowded).conns[100]?.map (fun c => (c.phase, c.reads, c.written)) =
      some (.over (some .tooManyRequests), [], Conn.tooManyRequests) := by
  decide +kernel

/-- What the client makes of the refusal. -/
def limited : Peer := ⟨.ok (some 0), fun _ _ => .error "connection refused"⟩

theorem nothing_transferred_crowded :
    ∃ c, (new.run crowded).conns[100]? = some c ∧ c.phase = .over (some .tooManyRequests) ∧
      AnswersHead c.written limited.head ∧ (downloadFromPeer limited (some [1, 2])).2 = some [1, 2] := by
  obtain ⟨c, hc, hlast⟩ := Option.map_eq_some_iff.1 run_crowded
  simp only [Prod.mk.injEq] at hlast
  obtain ⟨hphase, hreads, hwritten⟩ := hlast
  have hanswer : AnswersHead c.written limited.head := by
    rw [hwritten]
    exact ⟨_, _, _, readHead_tooManyRequests, fun n h => .inl (Option.some.inj h).symm⟩
  refine ⟨c, hc, hphase, hanswer, ?_⟩
  have hopen : ∀ bytes ∈ c.reads, bytes ≠ [] := by
    rw [hreads]
    exact List.forall_mem_nil _
  exact ((nothing_transferred crowded 100 c hc hopen).2 limited hanswer (some [1, 2])).1.2

end Sample

end XVideoDownloader
