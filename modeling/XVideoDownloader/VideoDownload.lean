import XVideoDownloader.Transfer

/-!
# The segmented download (`downloader.rs`)

`VideoDownloader::parallel_download` fetches the segments of a file into temporary files, each with its own
retries, and merges what these hold if any segment has succeeded. What a segment ends up with is the body of one of its
answers (`deciding`), which begins where the range begins if the status is 206 and where the file begins if it is 200.
`parallel_download_iff` says of these origins and of the numbers of bytes when the result is the file.
-/

namespace XVideoDownloader
open Lib

/-! ### Division of `f64` values -/

/-- `n / d` to the nearest integer, ties to even. -/
def divNearest (n d : Nat) : Nat :=
  let q := n / d
  if 2 * (n % d) < d ∨ 2 * (n % d) = d ∧ q % 2 = 0 then q else q + 1

/-- The `f64` next to `n / d`, as a number of units of `2^-120`: the 53 leading bits are kept. -/
def f64Nearest (n d : Nat) : Nat :=
  let dropped := (n * 2 ^ 120 / d).log2 - 52
  divNearest (n * 2 ^ 120) (d * 2 ^ dropped) * 2 ^ dropped

/-- `(a as f64 / b as f64).ceil() as u64`, for `b` below `2^53`. -/
def f64DivCeil (a b : Nat) : Nat :=
  let quotient := f64Nearest (f64Nearest a 1) (b * 2 ^ 120)
  min ((quotient + 2 ^ 120 - 1) / 2 ^ 120) (UInt64.size - 1)

theorem div_le_divNearest (n d : Nat) : n / d ≤ divNearest n d := by
  unfold divNearest
  dsimp only
  split <;> omega

theorem two_pow_le_f64Nearest {n d : Nat} (hd : 0 < d) (h : d ≤ n * 2 ^ 120) :
    2 ^ ((n * 2 ^ 120 / d).log2 - 52) ≤ f64Nearest n d := by
  have hne : n * 2 ^ 120 / d ≠ 0 := Nat.ne_of_gt (Nat.div_pos h hd)
  have hpow : 2 ^ ((n * 2 ^ 120 / d).log2 - 52) ≤ n * 2 ^ 120 / d :=
    (Nat.pow_le_pow_right (by decide) (Nat.sub_le _ _)).trans (Nat.log2_self_le hne)
  have hunit : 0 < 2 ^ ((n * 2 ^ 120 / d).log2 - 52) := Nat.two_pow_pos _
  unfold f64Nearest
  dsimp only
  generalize 2 ^ ((n * 2 ^ 120 / d).log2 - 52) = unit at hpow hunit ⊢
  have hpos : 0 < n * 2 ^ 120 / (d * unit) := by
    rw [← Nat.div_div_eq_div_mul]
    exact Nat.div_pos hpow hunit
  exact Nat.le_mul_of_pos_left unit (hpos.trans_le (div_le_divNearest _ _))

theorem f64DivCeil_pos {a b : Nat} (ha : 0 < a) (hb : 0 < b) (h : b < 2 ^ 32) : 0 < f64DivCeil a b := by
  have hdividend : b ≤ f64Nearest a 1 := by
    have hle := two_pow_le_f64Nearest (n := a) Nat.one_pos (by omega)
    have hlog : 120 ≤ (a * 2 ^ 120 / 1).log2 := by
      rw [Nat.div_one]
      exact (Nat.le_log2 (by omega)).2 (Nat.le_mul_of_pos_left _ ha)
    have hpow : 2 ^ 68 ≤ 2 ^ ((a * 2 ^ 120 / 1).log2 - 52) := Nat.pow_le_pow_right (by decide) (by omega)
    omega
  have hquotient : 0 < f64Nearest (f64Nearest a 1) (b * 2 ^ 120) :=
    (Nat.two_pow_pos _).trans_le (two_pow_le_f64Nearest (by omega) (Nat.mul_le_mul_right _ hdividend))
  unfold f64DivCeil
  dsimp only
  have hceil : 0 < (f64Nearest (f64Nearest a 1) (b * 2 ^ 120) + 2 ^ 120 - 1) / 2 ^ 120 :=
    Nat.div_pos (by omega) (by decide)
  have hmax : 0 < UInt64.size - 1 := by decide
  omega

/-! ### The code -/

structure DownloaderConfig where
  retryCount : Nat
  parallelSegments : Nat

structure DownloadResult where
  success : Bool
  outputPath : String
  fileSize : Nat
  durationSecs : Rat
  errorMessage : Option String

def DownloadResult.ofSuccess (outputPath : String) (fileSize : Nat) (durationSecs : Rat) : DownloadResult :=
  ⟨true, outputPath, fileSize, durationSecs, none⟩

def Response.isSuccess (r : Response) : Bool := 200 ≤ r.status && r.status ≤ 299

/-- `download_segment`; its error is only logged. -/
def downloadSegment (answer : Except String Response) (file : Bytes) : Option Nat × Bytes :=
  match answer with
  | .error _ => (none, file)
  | .ok response =>
    if !response.isSuccess && response.status ≠ 206 then (none, file)
    else
      let r := Response.receive response.stream [] 0
      -- only what arrives whole is flushed
      match r.1 with
      | .ok downloaded => (some downloaded, r.2)
      | .error _ => (none, response.unflushed r.2)

/-- The task of a segment: `left` attempts of the loop are still to come, and one more behind it. -/
def runSegment (answers : Nat → Except String Response) : Nat → Nat → Bytes → Option Nat × Bytes
  | 0, attempt, file => downloadSegment (answers attempt) file
  | left + 1, attempt, file =>
    let r := downloadSegment (answers attempt) file
    if r.1.isSome then r else runSegment answers left (attempt + 1) r.2

namespace DownloaderConfig
variable (config : DownloaderConfig)

/-! The arithmetic of `u64` wraps, as in a release build. -/

def segmentStart (totalSize i : Nat) : Nat :=
  i * f64DivCeil totalSize config.parallelSegments % UInt64.size

def segmentEnd (totalSize i : Nat) : Nat :=
  if i = config.parallelSegments - 1 then totalSize - 1
  else ((i + 1) * f64DivCeil totalSize config.parallelSegments + (UInt64.size - 1)) % UInt64.size

/-- `get i attempt start stop` is the answer to segment `i` on that attempt, with its range. -/
def parallelDownload (get : Nat → Nat → Nat → Nat → Except String Response) (outputPath : String)
    (totalSize : Nat) (disk : Option Bytes) : Except String DownloadResult × Option Bytes :=
  let segments := List.range config.parallelSegments
  let result (i : Nat) := runSegment (fun attempt =>
    get i attempt (config.segmentStart totalSize i) (config.segmentEnd totalSize i)) config.retryCount 0 []
  let successCount := segments.countP fun i => (result i).1.isSome
  if successCount = 0 then (.error "所有分段下载都失败了", disk)
  else (.ok (.ofSuccess outputPath totalSize 0), some (segments.flatMap fun i => (result i).2))

end DownloaderConfig

/-! ### What a segment ends up with -/

/-- How many bytes of an answer that is accepted are on disk after the attempt. -/
def Response.stored (r : Response) : Nat :=
  if r.error? = none then r.body.length else r.body.length - r.outstanding

def accepted? (answer : Except String Response) : Option Response := answer.toOption.filter (·.isSuccess)

/-- An answer that makes the segment succeed. -/
def arrived? (answer : Except String Response) : Option Response :=
  (accepted? answer).filter fun response => response.error? = none

/-- The first answer that makes the segment succeed, or else the last that is accepted. -/
def deciding (answers : List (Except String Response)) : Option Response :=
  answers.findSome? arrived? <|> answers.reverse.findSome? accepted?

def kept (answers : List (Except String Response)) : Bytes :=
  (deciding answers).elim [] fun response => response.body.take response.stored

theorem Response.stored_le (r : Response) : r.stored ≤ r.body.length := by
  unfold stored
  split
  · exact le_rfl
  · exact Nat.sub_le _ _

theorem arrived?_eq_some {answer : Except String Response} {response : Response} :
    arrived? answer = some response ↔ accepted? answer = some response ∧ response.error? = none := by
  simp [arrived?, Option.filter_eq_some_iff]

theorem accepted?_eq_some {answer : Except String Response} {response : Response} :
    accepted? answer = some response ↔ answer = .ok response ∧ response.isSuccess = true := by
  cases answer with
  | error e => simp [accepted?, Except.toOption]
  | ok r => simp [accepted?, Except.toOption]

theorem mem_of_deciding {answers : List (Except String Response)} {response : Response}
    (h : deciding answers = some response) : .ok response ∈ answers ∧ response.isSuccess = true := by
  have hmem {answer : Except String Response} (ha : answer ∈ answers) (h : accepted? answer = some response) :
      .ok response ∈ answers ∧ response.isSuccess = true := by
    obtain ⟨rfl, hs⟩ := accepted?_eq_some.1 h
    exact ⟨ha, hs⟩
  unfold deciding at h
  cases harrived : answers.findSome? arrived? with
  | some r =>
    rw [harrived] at h
    cases h
    obtain ⟨answer, ha, hanswer⟩ := List.exists_of_findSome?_eq_some harrived
    exact hmem ha (arrived?_eq_some.1 hanswer).1
  | none =>
    rw [harrived] at h
    obtain ⟨answer, ha, hanswer⟩ := List.exists_of_findSome?_eq_some h
    exact hmem (List.mem_reverse.1 ha) hanswer

theorem downloadSegment_eq (answer : Except String Response) (file : Bytes) :
    (downloadSegment answer file).1.isSome = (arrived? answer).isSome ∧
      (downloadSegment answer file).2 = (accepted? answer).elim file fun r => r.body.take r.stored := by
  cases answer with
  | error e => exact ⟨rfl, rfl⟩
  | ok response =>
    have hstatus : response.status = 206 → response.isSuccess = true := by
      intro h
      simp [Response.isSuccess, h]
    have herr : response.error? = Response.errorOf response.stream := rfl
    have hbody : response.body = Response.bodyOf response.stream := rfl
    by_cases hs : response.isSuccess = true
    · have haccepted : accepted? (.ok response) = some response := by simp [accepted?, Except.toOption, hs]
      rw [arrived?, haccepted]
      simp only [downloadSegment, hs, Response.receive_fst, Response.receive_snd, Bool.not_true, Bool.false_and,
        Bool.false_eq_true, if_false, ← herr, ← hbody, List.nil_append, Option.elim_some]
      cases h : response.error? with
      | none => simp [Response.stored, h]
      | some e => simp [Response.stored, h, Response.unflushed]
    · have hne : response.status ≠ 206 := fun h => hs (hstatus h)
      have haccepted : accepted? (.ok response) = none := by
        simpa [accepted?, Except.toOption, Option.filter_eq_none_iff] using hs
      simp [downloadSegment, arrived?, haccepted, hs, hne]

theorem runSegment_eq (answers : Nat → Except String Response) (left attempt : Nat) (file : Bytes) :
    let attempts := (List.range' attempt (left + 1)).map answers
    (runSegment answers left attempt file).1.isSome = (attempts.findSome? arrived?).isSome ∧
      (runSegment answers left attempt file).2 = (deciding attempts).elim file fun r => r.body.take r.stored := by
  induction left generalizing attempt file with
  | zero =>
    obtain ⟨hsome, hfile⟩ := downloadSegment_eq (answers attempt) file
    simp only [runSegment, hsome, hfile]
    cases ha : arrived? (answers attempt) with
    | none => simp [deciding, ha]
    | some response => simp [deciding, ha, (arrived?_eq_some.1 ha).1]
  | succ left ih =>
    obtain ⟨hsome, hfile⟩ := downloadSegment_eq (answers attempt) file
    rw [runSegment, List.range'_succ, List.map_cons]
    cases ha : arrived? (answers attempt) with
    | some response => simp [deciding, hsome, hfile, ha, (arrived?_eq_some.1 ha).1]
    | none =>
      obtain ⟨hsome', hfile'⟩ := ih (attempt + 1) (downloadSegment (answers attempt) file).2
      rw [hfile] at hsome' hfile'
      simp only [hsome, ha, Option.isSome_none, Bool.false_eq_true, if_false, hfile, hsome', hfile', deciding,
        List.findSome?_cons, List.reverse_cons, List.findSome?_append, List.findSome?_nil]
      refine ⟨trivial, ?_⟩
      cases ((List.range' (attempt + 1) (left + 1)).map answers).findSome? arrived? with
      | some response => rfl
      | none =>
        cases ((List.range' (attempt + 1) (left + 1)).map answers).reverse.findSome? accepted? with
        | some response => rfl
        | none => cases accepted? (answers attempt) <;> rfl

namespace DownloaderConfig
variable (config : DownloaderConfig)

/-- The answers to segment `i`, attempt by attempt. -/
def answers (get : Nat → Nat → Nat → Nat → Except String Response) (totalSize i : Nat) :
    List (Except String Response) :=
  (List.range (config.retryCount + 1)).map fun attempt =>
    get i attempt (config.segmentStart totalSize i) (config.segmentEnd totalSize i)

variable {config} in
theorem parallelDownload_eq (get : Nat → Nat → Nat → Nat → Except String Response) (outputPath : String)
    (totalSize : Nat) (disk : Option Bytes) :
    config.parallelDownload get outputPath totalSize disk =
      if ∀ i < config.parallelSegments, ∀ a ∈ config.answers get totalSize i, arrived? a = none then
        (.error "所有分段下载都失败了", disk)
      else
        (.ok (.ofSuccess outputPath totalSize 0),
          some ((List.range config.parallelSegments).flatMap fun i => kept (config.answers get totalSize i))) := by
  have hrun (i : Nat) := runSegment_eq (fun attempt =>
    get i attempt (config.segmentStart totalSize i) (config.segmentEnd totalSize i)) config.retryCount 0 []
  have hnone : ((List.range config.parallelSegments).countP fun i =>
      ((config.answers get totalSize i).findSome? arrived?).isSome) = 0 ↔
      ∀ i < config.parallelSegments, ∀ a ∈ config.answers get totalSize i, arrived? a = none := by
    simp
  simp only [parallelDownload, hrun, ← List.range_eq_range']
  exact if_congr hnone rfl rfl

/-! ### The ranges -/

variable {config} in
theorem segment_range {total i : Nat} (ht : 0 < total)
    (hchunk : 0 < f64DivCeil total config.parallelSegments)
    (hfit : config.parallelSegments * f64DivCeil total config.parallelSegments ≤ UInt64.size)
    (hi : i < config.parallelSegments) :
    config.segmentStart total i = i * f64DivCeil total config.parallelSegments ∧
      config.segmentEnd total i + 1 =
        if i = config.parallelSegments - 1 then total
        else (i + 1) * f64DivCeil total config.parallelSegments := by
  unfold segmentStart segmentEnd
  generalize f64DivCeil total config.parallelSegments = chunk at hchunk hfit ⊢
  have hnext : (i + 1) * chunk ≤ UInt64.size := (Nat.mul_le_mul_right _ hi).trans hfit
  rw [Nat.add_mul, Nat.one_mul] at hnext ⊢
  have hmod : (i * chunk + chunk + (UInt64.size - 1)) % UInt64.size = i * chunk + chunk - 1 := by
    have hsum : i * chunk + chunk + (UInt64.size - 1) = i * chunk + chunk - 1 + UInt64.size := by omega
    rw [hsum, Nat.add_mod_right, Nat.mod_eq_of_lt (by omega)]
  refine ⟨Nat.mod_eq_of_lt (by omega), ?_⟩
  split
  · omega
  · rw [hmod]
    omega

/-- The ranges of the segments, end to end, are the file. -/
theorem flatMap_segments {config : DownloaderConfig} {F : Bytes} (hF : 0 < F.length) (hs : 0 < config.parallelSegments)
    (h32 : config.parallelSegments < 2 ^ 32)
    (hfit : config.parallelSegments * f64DivCeil F.length config.parallelSegments ≤ UInt64.size) :
    (List.range config.parallelSegments).flatMap
      (fun i => slice F (config.segmentStart F.length i) (config.segmentEnd F.length i + 1)) = F := by
  have hrange {i : Nat} (hi : i < config.parallelSegments) := segment_range hF (f64DivCeil_pos hF hs h32) hfit hi
  generalize f64DivCeil F.length config.parallelSegments = chunk at hrange
  -- the last cut is the end of the file, wherever the last segment begins
  let cut (i : Nat) : Nat :=
    if i < config.parallelSegments then i * chunk else max F.length ((config.parallelSegments - 1) * chunk)
  have hmono : Monotone cut := monotone_nat_of_le_succ fun i => by
    have hmul : i * chunk ≤ (i + 1) * chunk := Nat.mul_le_mul_right _ i.le_succ
    dsimp only [cut]
    split <;> split
    · exact hmul
    · have hi : i = config.parallelSegments - 1 := by omega
      rw [hi]
      exact le_max_right _ _
    · omega
    · exact le_rfl
  have hslice (i : Nat) (hi : i ∈ List.range config.parallelSegments) :
      slice F (config.segmentStart F.length i) (config.segmentEnd F.length i + 1) = slice F (cut i) (cut (i + 1)) := by
    have hi := List.mem_range.1 hi
    dsimp only [cut]
    rw [(hrange hi).1, (hrange hi).2, if_pos hi]
    split
    · rename_i hlast
      rw [if_neg (by omega), hlast, slice_of_length_le _ le_rfl, slice_of_length_le _ (le_max_left _ _)]
    · rw [if_pos (by omega)]
  have hfirst : cut 0 = 0 := by
    dsimp only [cut]
    rw [if_pos hs, Nat.zero_mul]
  have hlast : F.length ≤ cut config.parallelSegments := by
    dsimp only [cut]
    rw [if_neg (Nat.lt_irrefl _)]
    exact le_max_left _ _
  rw [List.flatMap_congr hslice, flatMap_slice F hmono, hfirst, slice_full hlast]

/-! ### What the segments have together -/

/-- An answer has the bytes, or a beginning of them where it breaks off. -/
def Brings (bytes : Bytes) (r : Response) : Prop := r.body <+: bytes ∧ (r.error? = none → r.body = bytes)

/-- The answer of a server that has `F` to a range: if it is accepted, it is that part (206) or the whole (200). -/
def Outcome (F : Bytes) (start stop : Nat) (r : Response) : Prop :=
  r.isSuccess = true → r.status = 206 ∧ Brings (slice F start (stop + 1)) r ∨ r.status = 200 ∧ Brings F r

section
variable (get : Nat → Nat → Nat → Nat → Except String Response) (totalSize i : Nat)

/-- Where in the file the answer begins that decides a segment. -/
def origin : Nat :=
  (deciding (config.answers get totalSize i)).elim 0 fun r =>
    if r.status = 206 then config.segmentStart totalSize i else 0

/-- How many bytes it leaves on disk. -/
def count : Nat := (deciding (config.answers get totalSize i)).elim 0 Response.stored

end

variable {config} {F : Bytes} {get : Nat → Nat → Nat → Nat → Except String Response}

theorem outcome_of_deciding {i : Nat} {r : Response}
    (hget : ∀ r, .ok r ∈ config.answers get F.length i →
      Outcome F (config.segmentStart F.length i) (config.segmentEnd F.length i) r)
    (hr : deciding (config.answers get F.length i) = some r) :
    r.status = 206 ∧ Brings (slice F (config.segmentStart F.length i) (config.segmentEnd F.length i + 1)) r ∨
      r.status = 200 ∧ Brings F r := by
  obtain ⟨hmem, hs⟩ := mem_of_deciding hr
  exact hget r hmem hs

theorem take_of_beginning {bytes body : Bytes} {k : Nat} (h : body <+: bytes) (hk : k ≤ body.length) :
    body.take k = bytes.take k := by
  obtain ⟨rest, rfl⟩ := h
  exact (List.take_append_of_le_length hk).symm

/-- A segment ends up with as many bytes of the file from its origin on. -/
theorem kept_eq {i : Nat} (hget : ∀ r, .ok r ∈ config.answers get F.length i →
      Outcome F (config.segmentStart F.length i) (config.segmentEnd F.length i) r) :
    (kept (config.answers get F.length i)).length = config.count get F.length i ∧
      kept (config.answers get F.length i) = slice F (config.origin get F.length i)
        (config.origin get F.length i + config.count get F.length i) := by
  unfold kept origin count
  cases hr : deciding (config.answers get F.length i) with
  | none => exact ⟨rfl, (slice_of_le le_rfl).symm⟩
  | some r =>
    have hle := r.stored_le
    simp only [Option.elim_some]
    refine ⟨by rw [List.length_take, Nat.min_eq_left hle], ?_⟩
    rcases outcome_of_deciding hget hr with ⟨hs, hpre, -⟩ | ⟨hs, hpre, -⟩
    · have hlen := hpre.length_le
      rw [length_slice] at hlen
      rw [take_of_beginning hpre hle, take_slice, if_pos hs]
      rcases Nat.eq_zero_or_pos r.stored with h0 | hpos
      · rw [slice_of_le (by omega), slice_of_le (by omega)]
      · rw [Nat.min_eq_left (by omega)]
    · have hne : r.status ≠ 206 := by omega
      rw [take_of_beginning hpre hle, if_neg hne, Nat.zero_add, slice, List.drop_zero]

theorem forall_arrived?_eq_none {answers : List (Except String Response)} :
    (∀ a ∈ answers, arrived? a = none) ↔ ∀ r, .ok r ∈ answers → r.isSuccess = true → r.error? ≠ none := by
  have hok (r : Response) : arrived? (.ok r) = none ↔ (r.isSuccess = true → r.error? ≠ none) := by
    by_cases hs : r.isSuccess = true <;> simp [arrived?, accepted?, Except.toOption, Option.filter, hs]
  constructor
  · exact fun h r hr => (hok r).1 (h _ hr)
  · intro h a ha
    cases a with
    | error e => rfl
    | ok r => exact (hok r).2 (h r ha)

/-- Where every segment is decided by an answer that has all of its range, the result is the file. -/
theorem flatMap_kept_of_ranges (hF : 0 < F.length) (hs : 0 < config.parallelSegments)
    (h32 : config.parallelSegments < 2 ^ 32)
    (hfit : config.parallelSegments * f64DivCeil F.length config.parallelSegments ≤ UInt64.size)
    (hget : ∀ i < config.parallelSegments, ∀ r, .ok r ∈ config.answers get F.length i →
      Outcome F (config.segmentStart F.length i) (config.segmentEnd F.length i) r)
    (hwhole : ∀ i < config.parallelSegments, ∃ r, deciding (config.answers get F.length i) = some r ∧
      r.status = 206 ∧ r.error? = none) :
    (List.range config.parallelSegments).flatMap (fun i => kept (config.answers get F.length i)) = F := by
  refine Eq.trans (List.flatMap_congr fun i hi => ?_) (flatMap_segments hF hs h32 hfit)
  have hi := List.mem_range.1 hi
  obtain ⟨r, hr, hstatus, herr⟩ := hwhole i hi
  have hstored : r.stored = r.body.length := if_pos herr
  rcases outcome_of_deciding (hget i hi) hr with ⟨-, -, hbody⟩ | ⟨hs, -⟩
  · rw [kept, hr, Option.elim_some, hstored, List.take_length, hbody herr]
  · omega

variable (config) in
/-- Success means the whole file if and only if no segment succeeds, or the numbers of bytes that the segments have add
up to the length of the file and each segment has from its origin on what the file has in its place. So it is where
every segment is decided by a whole answer with the status 206, unless the ranges do not fit into 64 bits. -/
theorem parallel_download_iff (F : Bytes) (get : Nat → Nat → Nat → Nat → Except String Response)
    (outputPath : String) (disk : Option Bytes)
    (hget : ∀ i < config.parallelSegments, ∀ r, .ok r ∈ config.answers get F.length i →
      Outcome F (config.segmentStart F.length i) (config.segmentEnd F.length i) r) :
    ((∀ result, (config.parallelDownload get outputPath F.length disk).1 = .ok result →
        (config.parallelDownload get outputPath F.length disk).2 = some F ∧ result.fileSize = F.length) ↔
      (∀ i < config.parallelSegments, ∀ r, .ok r ∈ config.answers get F.length i → r.isSuccess = true →
        r.error? ≠ none) ∨
      place (config.count get F.length) config.parallelSegments = F.length ∧
        ∀ i < config.parallelSegments,
          slice F (config.origin get F.length i) (config.origin get F.length i + config.count get F.length i) =
            slice F (place (config.count get F.length) i) (place (config.count get F.length) (i + 1))) ∧
    (0 < F.length → 0 < config.parallelSegments → config.parallelSegments < 2 ^ 32 →
      config.parallelSegments * f64DivCeil F.length config.parallelSegments ≤ UInt64.size →
      (∀ i < config.parallelSegments, ∃ r, deciding (config.answers get F.length i) = some r ∧
        r.status = 206 ∧ r.error? = none) →
      config.parallelDownload get outputPath F.length disk = (.ok (.ofSuccess outputPath F.length 0), some F)) := by
  have hfail : (∀ i < config.parallelSegments, ∀ a ∈ config.answers get F.length i, arrived? a = none) ↔ _ :=
    forall₂_congr fun i _ => forall_arrived?_eq_none
  have hkept (i : Nat) (hi : i < config.parallelSegments) := kept_eq (hget i hi)
  have hplace {n : Nat} (hn : n ≤ config.parallelSegments) :
      place (fun i => (kept (config.answers get F.length i)).length) n = place (config.count get F.length) n :=
    place_congr fun i hi => (hkept i (hi.trans_le hn)).1
  have hmerged : (List.range config.parallelSegments).flatMap (fun i => kept (config.answers get F.length i)) = F ↔
      place (config.count get F.length) config.parallelSegments = F.length ∧
        ∀ i < config.parallelSegments,
          slice F (config.origin get F.length i) (config.origin get F.length i + config.count get F.length i) =
            slice F (place (config.count get F.length) i) (place (config.count get F.length) (i + 1)) := by
    rw [flatMap_range_eq_iff, hplace le_rfl]
    refine and_congr_right fun _ => forall₂_congr fun i hi => ?_
    rw [hplace hi.le, hplace hi, (hkept i hi).2]
  rw [parallelDownload_eq]
  constructor
  · rw [← hfail, ← hmerged]
    split
    · rename_i hall
      exact iff_of_true (fun result h => by cases h) (.inl hall)
    · rename_i hsome
      rw [or_iff_right hsome]
      simp [DownloadResult.ofSuccess]
  · intro hF hs h32 hfit hwhole
    have hsome : ¬ ∀ i < config.parallelSegments, ∀ a ∈ config.answers get F.length i, arrived? a = none := by
      intro hall
      obtain ⟨r, hr, -, herr⟩ := hwhole 0 hs
      obtain ⟨hmem, hsuccess⟩ := mem_of_deciding hr
      exact forall_arrived?_eq_none.1 (hall 0 hs) r hmem hsuccess herr
    rw [if_neg hsome, flatMap_kept_of_ranges hF hs h32 hfit hget hwhole]

end DownloaderConfig

namespace Sample
open DownloaderConfig

def zeros : Bytes := List.replicate 10485761 0

theorem length_zeros : zeros.length = 10485761 := List.length_replicate

/-- Every segment is answered with its range. -/
def bothHalves (_i _attempt start stop : Nat) : Except String Response := .ok (.whole 206 (slice zeros start (stop + 1)))

theorem parallel_download_bothHalves :
    parallelDownload ⟨5, 2⟩ bothHalves "out" zeros.length none = (.ok (.ofSuccess "out" zeros.length 0), some zeros) := by
  refine (parallel_download_iff ⟨5, 2⟩ zeros bothHalves "out" none ?_).2 ?_ (by decide) (by decide) ?_ fun i _ =>
    ⟨_, rfl, rfl, rfl⟩
  · intro i _ r hr _
    obtain ⟨attempt, -, hr⟩ := List.mem_map.1 hr
    cases hr
    have hbody := Response.body_whole 206 (slice zeros (segmentStart ⟨5, 2⟩ zeros.length i)
      (segmentEnd ⟨5, 2⟩ zeros.length i + 1))
    exact .inl ⟨rfl, ⟨[], (List.append_nil _).trans hbody⟩, fun _ => hbody⟩
  · rw [length_zeros]
    exact Nat.succ_pos _
  · rw [length_zeros]
    decide +kernel

/-- The first of two segments is not found, the second is answered with its range. -/
def secondHalf (i _attempt start stop : Nat) : Except String Response :=
  if i = 0 then .ok (.whole 404 []) else .ok (.whole 206 (slice zeros start (stop + 1)))

theorem kept_secondHalf :
    kept (answers ⟨5, 2⟩ secondHalf 10485761 0) = [] ∧
      kept (answers ⟨5, 2⟩ secondHalf 10485761 1) = slice zeros 5242881 10485761 := by
  have hstart : segmentStart ⟨5, 2⟩ 10485761 1 = 5242881 := by decide +kernel
  have hend : segmentEnd ⟨5, 2⟩ 10485761 1 = 10485760 := by decide +kernel
  have hsecond : deciding (answers ⟨5, 2⟩ secondHalf 10485761 1) =
      some (.whole 206 (slice zeros 5242881 10485761)) := by
    simp only [answers, hstart, hend]
    rfl
  refine ⟨rfl, ?_⟩
  rw [kept, hsecond, Option.elim_some, Response.stored, Response.error?_whole, if_pos rfl, List.take_length,
    Response.body_whole]

/-- The second half alone is reported as the whole file. -/
theorem not_parallel_download_secondHalf :
    10 * 1024 * 1024 < zeros.length ∧
      ¬ ∀ result, (parallelDownload ⟨5, 2⟩ secondHalf "out" zeros.length none).1 = .ok result →
        (parallelDownload ⟨5, 2⟩ secondHalf "out" zeros.length none).2 = some zeros ∧
          result.fileSize = zeros.length := by
  obtain ⟨h0, h1⟩ := kept_secondHalf
  have hsome : ¬ ∀ i < 2, ∀ a ∈ answers ⟨5, 2⟩ secondHalf 10485761 i, arrived? a = none := by
    intro h
    cases h 1 (by decide) _ (List.mem_map_of_mem (List.mem_range.2 (Nat.succ_pos 5)))
  have hmerged : (List.range 2).flatMap (fun i => kept (answers ⟨5, 2⟩ secondHalf 10485761 i)) =
      slice zeros 5242881 10485761 := by
    have hrange : List.range 2 = [0, 1] := rfl
    rw [hrange, List.flatMap_cons, List.flatMap_singleton, h0, h1, List.nil_append]
  refine ⟨by rw [length_zeros]; decide, fun h => ?_⟩
  rw [length_zeros, parallelDownload_eq, if_neg hsome, hmerged] at h
  have hfile := congrArg List.length (Option.some.inj (h _ rfl).1)
  rw [length_slice, length_zeros] at hfile
  cases hfile

end Sample

end XVideoDownloader
