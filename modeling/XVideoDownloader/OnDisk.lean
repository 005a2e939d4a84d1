import XVideoDownloader.Retry

/-!
# What a download leaves on disk (`downloader.rs`)

`download` runs the loop of the retries on the file that it writes: a plain download truncates the file once it is
answered, and a segmented one replaces it by what the segments have. The results are those of the loop by itself
(`download_fst`). Of a server that has the file and keeps to the ranges, an `Ok` leaves the file, or in large files what
is left of it where segments are missing, and anything else leaves what was there or a beginning of the file
(`download_leaves`).
-/

namespace XVideoDownloader
open Lib

namespace Retry

/-- The answers to the requests of each attempt of one download. -/
structure Host where
  head : Nat → Except String HeadResponse
  /-- To a segment, on one of its own attempts, with its range. -/
  segment : Nat → Nat → Nat → Nat → Nat → Except String Response
  /-- To the `HEAD` request of the plain download. -/
  plainHead : Nat → Except String HeadResponse
  plain : Nat → Except String Response
  /-- `StatusCode`'s `Display`. -/
  statusText : Nat → String
  elapsed : Nat → Rat

namespace Host
variable (config : Config) (host : Host) (outputPath : String)

/-- `do_download`: one plain download. -/
def doDownload (i : Nat) (disk : Option Bytes) : Except String DownloadResult × Option Bytes :=
  match getContentLength (host.plainHead i) with
  | .error e => (.error e, disk)
  | .ok _ =>
    match host.plain i with
    | .error e => (.error e, disk)
    | .ok response =>
      if !response.isSuccess then (.error ("下载失败: HTTP " ++ host.statusText response.status), disk)
      else
        let r := Response.receive response.stream [] 0
        -- only what arrives whole is flushed
        match r.1 with
        | .ok downloaded => (.ok (.ofSuccess outputPath downloaded (host.elapsed i)), some r.2)
        | .error e => (.error e, some (response.unflushed r.2))

/-- What follows the `HEAD` request of an attempt. -/
def fetch (i : Nat) (size : Option Nat) (disk : Option Bytes) : Except String DownloadResult × Option Bytes :=
  if isParallel config size then
    match config.parallelDownload (host.segment i) outputPath (size.getD 0) disk with
    | (.ok result, disk) => (.ok result, disk)
    | (.error _, disk) => host.doDownload outputPath i disk
  else host.doDownload outputPath i disk

/-- The loop from an attempt on, on the file. -/
def downloadFrom : Nat → Nat → Option String → Option Bytes →
    Option (Except String DownloadResult) × Option Bytes
  | 0, _, lastError, disk => (some (.error (exhausted config lastError)), disk)
  | left + 1, i, _, disk =>
    match waits config i with
    | none => (none, disk)
    | some _ =>
      match getContentLength (host.head i) with
      | .error e => (some (.error e), disk)
      | .ok size =>
        match host.fetch config outputPath i size disk with
        | (.ok result, disk) => (some (.ok result), disk)
        | (.error e, disk) => downloadFrom left (i + 1) (some e) disk

def download (disk : Option Bytes) : Option (Except String DownloadResult) × Option Bytes :=
  host.downloadFrom config outputPath config.retryCount 0 none disk

/-! ### The results -/

/-- What the requests of each attempt come to. -/
def answers : Answers where
  head := host.head
  parallel i := (config.parallelDownload (host.segment i) outputPath
    (((getContentLength (host.head i)).toOption.bind id).getD 0) none).1
  plain i := (host.doDownload outputPath i none).1

variable {config host outputPath}

theorem doDownload_fst (i : Nat) (disk : Option Bytes) :
    (host.doDownload outputPath i disk).1 = (host.doDownload outputPath i none).1 := by
  unfold doDownload
  cases getContentLength (host.plainHead i) with
  | error e => rfl
  | ok length =>
    cases host.plain i with
    | error e => rfl
    | ok response =>
      dsimp only
      split <;> rfl

theorem parallelDownload_fst (get : Nat → Nat → Nat → Nat → Except String Response) (total : Nat)
    (disk : Option Bytes) :
    (config.parallelDownload get outputPath total disk).1 = (config.parallelDownload get outputPath total none).1 := by
  unfold DownloaderConfig.parallelDownload
  dsimp only
  split <;> rfl

variable (config outputPath) in
theorem fetch_fst {i : Nat} {size : Option Nat} (hsize : getContentLength (host.head i) = .ok size)
    (disk : Option Bytes) :
    (host.fetch config outputPath i size disk).1 = (tryOnce config (host.answers config outputPath) i size).2 := by
  have hplain (disk : Option Bytes) :
      (host.doDownload outputPath i disk).1 = (host.answers config outputPath).plain i := doDownload_fst i disk
  have hparallel : (config.parallelDownload (host.segment i) outputPath (size.getD 0) disk).1 =
      (host.answers config outputPath).parallel i := by
    rw [parallelDownload_fst]
    simp only [answers, hsize, Except.toOption, Option.bind_some, id]
  unfold fetch tryOnce
  split
  · rw [← hparallel]
    rcases config.parallelDownload (host.segment i) outputPath (size.getD 0) disk with ⟨e | result, disk⟩
    · exact hplain disk
    · rfl
  · exact hplain disk

theorem downloadFrom_fst (left i : Nat) (lastError : Option String) (disk : Option Bytes) :
    (host.downloadFrom config outputPath left i lastError disk).1 =
      (Retry.downloadFrom config (host.answers config outputPath) left i lastError).2 := by
  induction left generalizing i lastError disk with
  | zero => rfl
  | succ left ih =>
    rw [downloadFrom, Retry.downloadFrom]
    cases waits config i with
    | none => rfl
    | some waited =>
      have hhead : (host.answers config outputPath).head i = host.head i := rfl
      rw [hhead]
      cases hsize : getContentLength (host.head i) with
      | error e => rfl
      | ok size =>
        have hfetch := fetch_fst config outputPath hsize disk
        dsimp only
        generalize host.fetch config outputPath i size disk = x at hfetch ⊢
        generalize tryOnce config (host.answers config outputPath) i size = y at hfetch ⊢
        rcases x with ⟨e | result, disk'⟩
        · rcases y with ⟨acts, r⟩
          cases hfetch
          exact ih (i + 1) (some e) disk'
        · rcases y with ⟨acts, r⟩
          cases hfetch
          rfl

variable (config host outputPath) in
/-- The file makes no difference to what a download comes to. -/
theorem download_fst (disk : Option Bytes) :
    (host.download config outputPath disk).1 = (Retry.download config (host.answers config outputPath)).2 :=
  downloadFrom_fst config.retryCount 0 none disk

/-! ### The file -/

/-- Every answer that is accepted is of a server that has `F`. It keeps to the ranges, and where it breaks off the
client is told. -/
structure Serves (host : Host) (F : Bytes) : Prop where
  head : ∀ i size, getContentLength (host.head i) = .ok (some size) → size = F.length
  plain : ∀ i response, host.plain i = .ok response → response.isSuccess = true →
    response.body <+: F ∧ (response.error? = none → response.body = F)
  segment : ∀ i k attempt start stop response, start ≤ stop → host.segment i k attempt start stop = .ok response →
    response.isSuccess = true → response.body <+: slice F start (stop + 1)

/-- The last of the segments begins in the file. -/
structure Segmented (config : DownloaderConfig) (total : Nat) : Prop where
  u32 : config.parallelSegments < 2 ^ 32
  u63 : total < 2 ^ 63
  inside : (config.parallelSegments - 1) * f64DivCeil total config.parallelSegments < total

variable {F : Bytes}

/-- What a failed download makes of a file: nothing, or a beginning of `F`. -/
def Spares (F : Bytes) (before after : Option Bytes) : Prop := after = before ∨ ∃ file, after = some file ∧ file <+: F

/-- What a download comes to: an `Ok` leaves parts of `F`, in order, and if it has to be `whole`, all of it. -/
def Leaves (F : Bytes) (outputPath : String) (whole : Prop) (before : Option Bytes)
    (r : Except String DownloadResult × Option Bytes) : Prop :=
  match r.1 with
  | .ok result => (∃ secs, result = .ofSuccess outputPath F.length secs) ∧
    ∃ file, r.2 = some file ∧ file.Sublist F ∧ (whole → file = F)
  | .error _ => Spares F before r.2

theorem Spares.refl (F : Bytes) (disk : Option Bytes) : Spares F disk disk := .inl rfl

theorem Spares.trans {a b c : Option Bytes} (hab : Spares F a b) (hbc : Spares F b c) : Spares F a c := by
  rcases hbc with rfl | hbc
  · exact hab
  · exact .inr hbc

theorem Leaves.of_spares {whole : Prop} {a b : Option Bytes} {r : Except String DownloadResult × Option Bytes}
    (hab : Spares F a b) (h : Leaves F outputPath whole b r) : Leaves F outputPath whole a r := by
  unfold Leaves at h ⊢
  split at h
  · exact h
  · exact hab.trans h

variable (outputPath) in
theorem doDownload_leaves (h : host.Serves F) (i : Nat) (disk : Option Bytes) (whole : Prop) :
    Leaves F outputPath whole disk (host.doDownload outputPath i disk) := by
  unfold doDownload
  cases getContentLength (host.plainHead i) with
  | error e => exact .refl F disk
  | ok length =>
    cases hplain : host.plain i with
    | error e => exact .refl F disk
    | ok response =>
      dsimp only
      cases hs : response.isSuccess with
      | false => exact .refl F disk
      | true =>
        obtain ⟨hpre, hwhole⟩ := h.plain i response hplain hs
        have herr : response.error? = Response.errorOf response.stream := rfl
        have hbody : response.body = Response.bodyOf response.stream := rfl
        rw [herr, hbody] at hwhole
        rw [hbody] at hpre
        simp only [Bool.not_true, Bool.false_eq_true, if_false, Response.receive_fst, Response.receive_snd,
          List.nil_append]
        cases hstream : Response.errorOf response.stream with
        | none =>
          rw [hwhole hstream, Nat.zero_add]
          exact ⟨⟨_, rfl⟩, F, rfl, .refl F, fun _ => rfl⟩
        | some e => exact .inr ⟨_, rfl, (List.take_prefix _ _).trans hpre⟩

/-! ### The segments -/

theorem kept_beginning {answers : List (Except String Response)} {G : Bytes}
    (h : ∀ response, .ok response ∈ answers → response.isSuccess = true → response.body <+: G) :
    kept answers <+: G := by
  unfold kept
  cases hr : deciding answers with
  | none => exact List.nil_prefix
  | some response =>
    obtain ⟨hmem, hs⟩ := mem_of_deciding hr
    exact (List.take_prefix _ _).trans (h response hmem hs)

/-- The ranges of the segments follow each other, and none is empty. -/
theorem Segmented.exists_cuts {config : DownloaderConfig} {total : Nat} (hs : Segmented config total)
    (hc : 0 < config.parallelSegments) : ∃ cut : Nat → Nat, Monotone cut ∧ ∀ k < config.parallelSegments,
      config.segmentStart total k = cut k ∧ config.segmentEnd total k + 1 = cut (k + 1) ∧ cut k < cut (k + 1) := by
  obtain ⟨hu32, hu63, hinside⟩ := hs
  have htotal : 0 < total := by omega
  have hchunk := f64DivCeil_pos htotal hc hu32
  have hmax : f64DivCeil total config.parallelSegments ≤ UInt64.size - 1 := min_le_right _ _
  generalize hsize : f64DivCeil total config.parallelSegments = chunk at hinside hchunk hmax
  have hsum : config.parallelSegments * chunk = (config.parallelSegments - 1) * chunk + chunk := by
    rw [← Nat.succ_mul, Nat.succ_eq_add_one, Nat.sub_add_cancel hc]
  have hfit : config.parallelSegments * chunk ≤ UInt64.size := by
    have h64 : (2 : Nat) ^ 63 + 2 ^ 63 = UInt64.size := by decide
    rcases Nat.eq_or_lt_of_le hc with hone | hmore
    · rw [← hone, Nat.one_mul]
      omega
    · have hle : 1 * chunk ≤ (config.parallelSegments - 1) * chunk := Nat.mul_le_mul_right _ (by omega)
      omega
  have hbefore {k : Nat} (hk : k < config.parallelSegments) : k * chunk < total :=
    (Nat.mul_le_mul_right _ (by omega)).trans_lt hinside
  have hnext (k : Nat) : (k + 1) * chunk = k * chunk + chunk := Nat.succ_mul k chunk
  refine ⟨fun k => if k < config.parallelSegments then k * chunk else total, monotone_nat_of_le_succ fun k => ?_,
    fun k hk => ?_⟩
  · have hk := hbefore (k := k)
    have hstep := hnext k
    split <;> split <;> omega
  · obtain ⟨hstart, hstop⟩ := DownloaderConfig.segment_range htotal (hsize ▸ hchunk) (hsize ▸ hfit) hk
    rw [hsize] at hstart hstop
    have hlt := hbefore hk
    have hstep := hnext k
    dsimp only
    rw [if_pos hk, hstart, hstop]
    refine ⟨rfl, ?_, ?_⟩
    · split <;> split <;> first | rfl | omega
    · split <;> omega

variable (outputPath) in
/-- Segments leave parts of the file, those that are missing left out, and without any the disk is not touched. -/
theorem parallelDownload_leaves (h : host.Serves F) (hc : 0 < config.parallelSegments)
    (hs : Segmented config.toDownloaderConfig F.length) (i : Nat) (disk : Option Bytes) :
    Leaves F outputPath False disk (config.parallelDownload (host.segment i) outputPath F.length disk) := by
  obtain ⟨cut, hmono, hcut⟩ := hs.exists_cuts hc
  rw [DownloaderConfig.parallelDownload_eq]
  split
  · exact .refl F disk
  refine ⟨⟨0, rfl⟩, _, rfl, flatMap_range_sublist hmono fun k hk => ?_, False.elim⟩
  obtain ⟨hstart, hstop, hlt⟩ := hcut k hk
  refine (kept_beginning fun response hresponse hsuccess => ?_).sublist
  obtain ⟨attempt, -, hanswer⟩ := List.mem_map.1 hresponse
  rw [← hstart, ← hstop]
  exact h.segment i k attempt _ _ response (by omega) hanswer hsuccess

/-! ### The loop -/

/-- Where large files are fetched in segments, the last of these begins in the file. -/
def Cuts (config : Config) (total : Nat) : Prop :=
  isParallel config (some total) = true → Segmented config.toDownloaderConfig total

variable (outputPath) in
theorem fetch_leaves (h : host.Serves F) (hs : Cuts config F.length) {i : Nat} {size : Option Nat}
    (hsize : getContentLength (host.head i) = .ok size) (disk : Option Bytes) :
    Leaves F outputPath (isParallel config (some F.length) = false) disk
      (host.fetch config outputPath i size disk) := by
  have hplain (disk : Option Bytes) (whole : Prop) := doDownload_leaves outputPath h i disk whole
  unfold fetch
  split
  · rename_i hparallel
    cases size with
    | none => cases hparallel
    | some total =>
      cases h.head i total hsize
      have hpos : 0 < config.parallelSegments := by
        rw [isParallel, Option.any_some, Bool.and_eq_true, decide_eq_true_eq] at hparallel
        exact hparallel.1
      have hleaves := parallelDownload_leaves outputPath h hpos (hs hparallel) i disk
      rw [Option.getD_some]
      generalize config.parallelDownload (host.segment i) outputPath F.length disk = r at hleaves ⊢
      rcases r with ⟨e | result, disk'⟩
      · exact (hplain disk' _).of_spares hleaves
      · obtain ⟨hresult, file, hfile, hsub, -⟩ := hleaves
        refine ⟨hresult, file, hfile, hsub, fun hwhole => ?_⟩
        rw [hparallel] at hwhole
        cases hwhole
  · exact hplain disk _

/-- What the loop comes to; it may also panic. -/
def LoopLeaves (F : Bytes) (outputPath : String) (whole : Prop) (before : Option Bytes)
    (r : Option (Except String DownloadResult) × Option Bytes) : Prop :=
  match r.1 with
  | some result => Leaves F outputPath whole before (result, r.2)
  | none => Spares F before r.2

theorem LoopLeaves.of_spares {whole : Prop} {a b : Option Bytes}
    {r : Option (Except String DownloadResult) × Option Bytes} (hab : Spares F a b)
    (h : LoopLeaves F outputPath whole b r) : LoopLeaves F outputPath whole a r := by
  unfold LoopLeaves at h ⊢
  split at h
  · exact Leaves.of_spares hab h
  · exact hab.trans h

variable (outputPath) in
theorem downloadFrom_leaves (h : host.Serves F) (hs : Cuts config F.length) (left i : Nat) (lastError : Option String)
    (disk : Option Bytes) : LoopLeaves F outputPath (isParallel config (some F.length) = false) disk
      (host.downloadFrom config outputPath left i lastError disk) := by
  induction left generalizing i lastError disk with
  | zero => exact .refl F disk
  | succ left ih =>
    rw [downloadFrom]
    cases waits config i with
    | none => exact .refl F disk
    | some waited =>
      cases hsize : getContentLength (host.head i) with
      | error e => exact .refl F disk
      | ok size =>
        have hleaves := fetch_leaves outputPath h hs hsize disk
        dsimp only
        generalize host.fetch config outputPath i size disk = r at hleaves ⊢
        rcases r with ⟨e | result, disk'⟩
        · exact (ih (i + 1) (some e) disk').of_spares hleaves
        · exact hleaves

/-- Of a server that has the file and keeps to the ranges, `Ok` leaves the file, or of a large one the parts that have
arrived, in order, and any other end leaves what was there or a beginning of the file. -/
theorem download_leaves (config : Config) (host : Host) (F : Bytes) (outputPath : String) (disk : Option Bytes)
    (h : host.Serves F) (hs : Cuts config F.length) :
    (∀ result, (host.download config outputPath disk).1 = some (.ok result) →
        (∃ secs, result = .ofSuccess outputPath F.length secs) ∧
        ∃ file, (host.download config outputPath disk).2 = some file ∧ file.Sublist F ∧
          (isParallel config (some F.length) = false → file = F)) ∧
      ((∀ result, (host.download config outputPath disk).1 ≠ some (.ok result)) →
        (host.download config outputPath disk).2 = disk ∨
          ∃ file, (host.download config outputPath disk).2 = some file ∧ file <+: F) := by
  have hleaves := downloadFrom_leaves outputPath h hs config.retryCount 0 none disk
  unfold download
  generalize host.downloadFrom config outputPath config.retryCount 0 none disk = r at hleaves ⊢
  rcases r with ⟨_ | e | result, disk'⟩
  · exact ⟨by simp, fun _ => hleaves⟩
  · exact ⟨by simp, fun _ => hleaves⟩
  · refine ⟨fun result' hr => ?_, fun hne => absurd rfl (hne result)⟩
    cases hr
    exact hleaves

end Host
end Retry

namespace Sample
open Retry

/-- The first plain download breaks off, the second one arrives. -/
def brokenOnce : Host where
  head _ := .ok ⟨200, some "4"⟩
  segment _ _ _ _ _ := .error "connection refused"
  plainHead _ := .ok ⟨200, some "4"⟩
  plain i := .ok (if i = 0 then ⟨200, [.ok [1, 2], .error "connection reset"], 1⟩ else .whole 200 [1, 2, 3, 4])
  statusText _ := "200 OK"
  elapsed _ := 1

theorem serves_brokenOnce : brokenOnce.Serves [1, 2, 3, 4] where
  head i size h := by
    have hlength : getContentLength (brokenOnce.head i) = .ok (some 4) := by rfl
    rw [hlength] at h
    cases h
    rfl
  plain i response h _ := by
    cases h
    by_cases hi : i = 0
    · simp [hi, Response.body, Response.bodyOf, Response.error?, Response.errorOf]
    · simp [hi]
  segment i k attempt start stop response _ h _ := by cases h

/-- The beginning that the first attempt has left is written over. -/
theorem download_leaves_brokenOnce : (brokenOnce.download thrice "v.mp4" none).2 = some [1, 2, 3, 4] := by
  have hcuts : Host.Cuts thrice 4 := fun h => by cases h
  have hresult : (brokenOnce.download thrice "v.mp4" none).1 = some (.ok (.ofSuccess "v.mp4" 4 1)) := by rfl
  obtain ⟨-, file, hfile, -, hwhole⟩ :=
    (Host.download_leaves thrice brokenOnce [1, 2, 3, 4] "v.mp4" none serves_brokenOnce hcuts).1 _ hresult
  rw [hfile, hwhole rfl]

end Sample
end XVideoDownloader
