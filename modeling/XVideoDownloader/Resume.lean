import XVideoDownloader.VideoDownload

/-!
# Resuming a download (`downloader.rs`)

`resume_download` opens the file for appending when it was told to resume, whatever the answer is. A server may ignore
the range and answer with the whole, and then the whole is put behind what is there. And unlike the other downloads it
returns without a `flush`, so that the end of the file may not be there yet: `resume_download_iff`.
-/

namespace XVideoDownloader

/-- What a server answers for one URL: the length that its answer to `HEAD` gives, and its answer to `GET`, with
`Range: bytes={start}-` or without. -/
structure VideoServer where
  head : Except String (Option Nat)
  get : Option Nat → Except String Response
  /-- `StatusCode`'s `Display`. -/
  statusText : Nat → String

namespace VideoServer
variable (server : VideoServer)

def resumeDownload (outputPath : String) (resumeFrom : Nat) (elapsed : Rat) (disk : Option Bytes) :
    Except String DownloadResult × Option Bytes :=
  match server.head with
  | .error e => (.error e, disk)
  | .ok _ =>
    match server.get (if resumeFrom > 0 then some resumeFrom else none) with
    | .error e => (.error e, disk)
    | .ok response =>
      if !response.isSuccess && response.status ≠ 206 then
        (.error ("下载失败: HTTP " ++ server.statusText response.status), disk)
      else
        match (if resumeFrom > 0 then disk else some []) with
        | none => (.error "No such file or directory (os error 2)", disk)
        | some file =>
          let r := Response.receive response.stream file resumeFrom
          (r.1.map fun downloaded => .ofSuccess outputPath downloaded elapsed, some (response.unflushed r.2))

/-- The answer of a server that has `F` to `bytes={start}-`: the tail, or the whole. Either may break off. -/
def Answers (F : Bytes) (start : Nat) (r : Response) : Prop :=
  r.status = 206 ∧ (r.error? = none → r.body = F.drop start) ∨ r.status = 200 ∧ (r.error? = none → r.body = F)

variable {server} {F file : Bytes} {disk : Option Bytes} {resumeFrom : Nat} {response : Response}

/-- An answer that is accepted is put behind what the file is opened with, as far as it is on disk. -/
theorem resumeDownload_of_answers (outputPath : String) (elapsed : Rat) {length : Option Nat}
    (hhead : server.head = .ok length)
    (hget : server.get (if resumeFrom > 0 then some resumeFrom else none) = .ok response)
    (ha : Answers F resumeFrom response) (hfile : (if resumeFrom > 0 then disk else some []) = some file) :
    server.resumeDownload outputPath resumeFrom elapsed disk =
      (match response.error? with
        | none => .ok (.ofSuccess outputPath (resumeFrom + response.body.length) elapsed)
        | some e => .error e,
        some (file ++ response.body.take (response.body.length - response.outstanding))) := by
  have hstatus : (!response.isSuccess && response.status ≠ 206) = false := by
    rcases ha with ⟨hs, -⟩ | ⟨hs, -⟩ <;> simp [Response.isSuccess, hs]
  have herr : response.error? = Response.errorOf response.stream := rfl
  have hbody : response.body = Response.bodyOf response.stream := rfl
  simp only [resumeDownload, hhead, hget, hstatus, hfile, Response.receive_fst, Response.receive_snd, ← herr, ← hbody,
    Response.unflushed_append]
  cases response.error? <;> rfl

theorem opened_of_prefix (hdisk : disk.getD [] = F.take resumeFrom) (hle : resumeFrom ≤ F.length) :
    (if resumeFrom > 0 then disk else some []) = some (F.take resumeFrom) := by
  split
  · rcases disk with _ | file
    · have := congrArg List.length hdisk
      rw [Option.getD_none, List.length_nil, List.length_take] at this
      omega
    · exact congrArg some hdisk
  · have h0 : resumeFrom = 0 := by omega
    simp [h0]

/-- An answer that arrives in full goes on where the file ends if and only if it is the part that was asked for. -/
theorem append_body_iff (hle : resumeFrom ≤ F.length) (ha : Answers F resumeFrom response)
    (herr : response.error? = none) :
    F.take resumeFrom ++ response.body = F ↔ resumeFrom = 0 ∨ response.status = 206 := by
  rcases ha with ⟨hs, hb⟩ | ⟨hs, hb⟩
  · rw [hb herr, List.take_append_drop]
    exact iff_of_true rfl (.inr hs)
  · rw [hb herr, List.append_left_eq_self, ← List.length_eq_zero_iff, List.length_take_of_le hle]
    exact (or_iff_left (by omega)).symm

/-- Bytes that are not on disk are missing in the file, but not in its size. -/
theorem append_take_iff {body : Bytes} {missing : Nat} (hm : missing ≤ body.length) :
    file ++ body.take (body.length - missing) = F ∧ file.length + body.length = F.length ↔
      file ++ body = F ∧ missing = 0 := by
  constructor
  · rintro ⟨hbytes, hsize⟩
    have hlength := congrArg List.length hbytes
    rw [List.length_append, List.length_take] at hlength
    have hnone : missing = 0 := by omega
    rw [hnone, Nat.sub_zero, List.take_length] at hbytes
    exact ⟨hbytes, hnone⟩
  · rintro ⟨rfl, rfl⟩
    rw [Nat.sub_zero, List.take_length, List.length_append]
    exact ⟨rfl, rfl⟩

/-- `Ok` means the whole file if and only if no answer arrives in full, or nothing was resumed or it is the part that was
asked for, and its last write is on disk. -/
theorem resume_download_iff (F : Bytes) (disk : Option Bytes) (resumeFrom : Nat) (server : VideoServer)
    (outputPath : String) (elapsed : Rat) (hle : resumeFrom ≤ F.length) (hdisk : disk.getD [] = F.take resumeFrom)
    (ha : ∀ response, server.get (if resumeFrom > 0 then some resumeFrom else none) = .ok response →
      Answers F resumeFrom response) :
    (∀ result, (server.resumeDownload outputPath resumeFrom elapsed disk).1 = .ok result →
        (server.resumeDownload outputPath resumeFrom elapsed disk).2 = some F ∧ result.fileSize = F.length) ↔
      ∀ length response, server.head = .ok length →
        server.get (if resumeFrom > 0 then some resumeFrom else none) = .ok response → response.error? = none →
          (resumeFrom = 0 ∨ response.status = 206) ∧ response.outstanding = 0 := by
  have hfile := opened_of_prefix hdisk hle
  cases hhead : server.head with
  | error e => simp [resumeDownload, hhead]
  | ok length =>
    cases hget : server.get (if resumeFrom > 0 then some resumeFrom else none) with
    | error e => simp only [resumeDownload, hhead, hget, reduceCtorEq, false_implies, implies_true]
    | ok response =>
      rw [resumeDownload_of_answers outputPath elapsed hhead hget (ha response hget) hfile]
      simp only [Except.ok.injEq, forall_eq', forall_apply_eq_imp_iff]
      cases herr : response.error? with
      | some e => exact iff_of_true (fun result h => by cases h) fun h => by cases h
      | none =>
        have hstored : F.take resumeFrom ++ response.body.take (response.body.length - response.outstanding) = F ∧
            (F.take resumeFrom).length + response.body.length = F.length ↔ _ := append_take_iff response.outstanding_le
        rw [List.length_take_of_le hle, append_body_iff hle (ha response hget) herr] at hstored
        simpa only [Except.ok.injEq, forall_eq', DownloadResult.ofSuccess, Option.some.injEq, true_implies] using hstored

end VideoServer

namespace Sample
open VideoServer

def originalVideo : Bytes := [1, 2, 3, 4, 5]

/-- A server that has the video and answers every range with the status: 206 with the tail, any other with the
whole. -/
def videoServer (status : Nat) : VideoServer where
  head := .ok (some originalVideo.length)
  get start := .ok <| .whole status <| if status = 206 then originalVideo.drop (start.getD 0) else originalVideo
  statusText := toString

/-- The rest, with one byte of it still on its way. -/
def slowRest : Response := ⟨206, [.ok [3, 4, 5]], 1⟩

theorem resume_download_tail : ((videoServer 206).resumeDownload "out" 2 1 (some [1, 2])).2 = some originalVideo := by
  refine (((resume_download_iff originalVideo (some [1, 2]) 2 (videoServer 206) "out" 1 (by decide) rfl ?_).2
    ?_) _ rfl).1
  · rintro response ⟨⟩
    exact .inl ⟨rfl, fun _ => Response.body_whole _ _⟩
  · rintro length response - ⟨⟩ -
    exact ⟨.inr rfl, Response.outstanding_whole _ _⟩

/-- A server that ignores the range sends the whole again, behind what is there. One that keeps to it sends the rest, of
which the last byte is not on disk yet when `Ok` is returned. -/
theorem not_resume_download_whole :
    (Answers originalVideo 2 (.whole 200 originalVideo) ∧
      (videoServer 200).get (some 2) = .ok (.whole 200 originalVideo) ∧
      (videoServer 200).resumeDownload "out" 2 1 (some [1, 2]) =
        (.ok (.ofSuccess "out" 7 1), some [1, 2, 1, 2, 3, 4, 5]) ∧
      ¬ ∀ result, ((videoServer 200).resumeDownload "out" 2 1 (some [1, 2])).1 = .ok result →
        ((videoServer 200).resumeDownload "out" 2 1 (some [1, 2])).2 = some originalVideo ∧
          result.fileSize = originalVideo.length) ∧
    Answers originalVideo 2 slowRest ∧
      VideoServer.resumeDownload ⟨.ok none, fun _ => .ok slowRest, toString⟩ "out" 2 1 (some [1, 2]) =
        (.ok (.ofSuccess "out" 5 1), some [1, 2, 3, 4]) := by
  refine ⟨⟨.inr ⟨rfl, fun _ => Response.body_whole _ _⟩, rfl, rfl, fun h => ?_⟩, .inl ⟨rfl, fun _ => rfl⟩, rfl⟩
  cases (h _ rfl).2

end Sample

end XVideoDownloader
