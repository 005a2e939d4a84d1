import XVideoDownloader.VideoDownload
import XVideoDownloader.RangeReply

/-!
# The retries of a download

`download` is the loop of `VideoDownloader::download` over whatever its three requests come to in each attempt, with
what it does in order. `Conforms` is what a loop with `retry_count` attempts and doubling delays owes. The code keeps
to it unless a HEAD request fails, whose error leaves the loop by `?`, or the loop comes to its 66th attempt, where
`2u64.pow(64)` overflows (`download_conforms_iff`).
-/

namespace XVideoDownloader
namespace Retry

structure Config extends DownloaderConfig where
  retryMaxDelay : Nat

/-- The response to a HEAD request; the header is that of `content-length`, if it is visible text. -/
structure HeadResponse where
  status : Nat
  contentLength : Option String

/-- What the requests of each attempt come to; errors are given by their `Debug` text. -/
structure Answers where
  head : Nat → Except String HeadResponse
  parallel : Nat → Except String DownloadResult
  plain : Nat → Except String DownloadResult

/-- What the loop does. -/
inductive Act
  | sleep (secs : Nat)
  | head
  | parallel
  | plain
  deriving DecidableEq

def getContentLength (answer : Except String HeadResponse) : Except String (Option Nat) :=
  answer.map fun response =>
    if 200 ≤ response.status ∧ response.status ≤ 299 then response.contentLength.bind Text.parseU64 else none

section
variable (config : Config) (answers : Answers)

/-- `2u64.pow(attempt - 1)` against the greatest delay; `none` is an overflow. -/
def retryDelay (attempt : Nat) : Option Nat :=
  if 2 ^ (attempt - 1) < UInt64.size then some (min (2 ^ (attempt - 1)) config.retryMaxDelay) else none

def waits (attempt : Nat) : Option (List Act) :=
  if 0 < attempt then (retryDelay config attempt).map fun secs => [.sleep secs] else some []

def isParallel (size : Option Nat) : Bool := size.any fun size => 0 < config.parallelSegments && 10 * 1024 * 1024 < size

/-- The parallel download of a large file, and if that is not made or fails the plain one. -/
def tryOnce (attempt : Nat) (size : Option Nat) : List Act × Except String DownloadResult :=
  if isParallel config size then
    match answers.parallel attempt with
    | .ok result => ([.parallel], .ok result)
    | .error _ => ([.parallel, .plain], answers.plain attempt)
  else ([.plain], answers.plain attempt)

def exhausted (lastError : Option String) : String :=
  "下载失败，已重试 " ++ toString config.retryCount ++ " 次: " ++
    match lastError with
    | none => "None"
    | some e => "Some(" ++ e ++ ")"

/-- The loop from an attempt on, with the number of those that are left. No result means that it panics. -/
def downloadFrom : Nat → Nat → Option String → List Act × Option (Except String DownloadResult)
  | 0, _, lastError => ([], some (.error (exhausted config lastError)))
  | left + 1, attempt, _ =>
    match waits config attempt with
    | none => ([], none)
    | some waited =>
      match getContentLength (answers.head attempt) with
      | .error e => (waited ++ [.head], some (.error e))
      | .ok size =>
        match tryOnce config answers attempt size with
        | (acts, .ok result) => (waited ++ .head :: acts, some (.ok result))
        | (acts, .error e) =>
          let rest := downloadFrom left (attempt + 1) (some e)
          (waited ++ .head :: acts ++ rest.1, rest.2)

def download : List Act × Option (Except String DownloadResult) := downloadFrom config answers config.retryCount 0 none

/-! ### What is owed -/

/-- An attempt by itself: what it asks for, and the file it gets. A failed HEAD request is a failed attempt. -/
def attempt (i : Nat) : List Act × Option DownloadResult :=
  match getContentLength (answers.head i) with
  | .error _ => ([.head], none)
  | .ok size => (.head :: (tryOnce config answers i size).1, (tryOnce config answers i size).2.toOption)

/-- The attempt with the delay before it. -/
def delayed (i : Nat) : List Act :=
  (if 0 < i then [.sleep (min (2 ^ (i - 1)) config.retryMaxDelay)] else []) ++ (attempt config answers i).1

/-- The loop makes attempts until one succeeds, whose result it returns, or until all of them have failed. -/
def Conforms (run : List Act × Option (Except String DownloadResult)) : Prop :=
  ∃ n ≤ config.retryCount, run.1 = (List.range n).flatMap (delayed config answers) ∧
    ((∃ i result, n = i + 1 ∧ (∀ j < i, (attempt config answers j).2 = none) ∧
        (attempt config answers i).2 = some result ∧ run.2 = some (.ok result)) ∨
      n = config.retryCount ∧ (∀ j < n, (attempt config answers j).2 = none) ∧ ∃ e, run.2 = some (.error e))

end

variable {config : Config} {answers : Answers} {i n left : Nat} {lastError : Option String}

/-! ### The loop -/

theorem waits_of_lt (h : i < 65) :
    waits config i = some (if 0 < i then [.sleep (min (2 ^ (i - 1)) config.retryMaxDelay)] else []) := by
  by_cases hi : 0 < i
  · have hpow : 2 ^ (i - 1) < UInt64.size := Nat.pow_lt_pow_right (by decide) (by omega : i - 1 < 64)
    rw [waits, if_pos hi, if_pos hi, retryDelay, if_pos hpow]
    rfl
  · rw [waits, if_neg hi, if_neg hi]

theorem waits_of_le (h : 65 ≤ i) : waits config i = none := by
  have hpow : UInt64.size ≤ 2 ^ (i - 1) := Nat.pow_le_pow_right (by decide : 0 < 2) (by omega : 64 ≤ i - 1)
  rw [waits, if_pos (by omega), retryDelay, if_neg (by omega)]
  rfl

theorem getContentLength_error {answer : Except String HeadResponse} {e : String} :
    getContentLength answer = .error e ↔ answer = .error e := by
  rcases answer with e' | response <;> simp [getContentLength, Except.map]

theorem attempt_of_error {e : String} (h : answers.head i = .error e) : attempt config answers i = ([.head], none) := by
  rw [attempt, getContentLength_error.2 h]

/-- An attempt that fails although its HEAD request is answered. -/
structure Fails (config : Config) (answers : Answers) (i : Nat) : Prop where
  lt : i < 65
  head : ∀ e, answers.head i ≠ .error e
  attempt : (attempt config answers i).2 = none

/-- What one pass of the loop comes to. -/
theorem downloadFrom_succ (config : Config) (answers : Answers) (left i : Nat) (lastError : Option String) :
    (65 ≤ i ∧ downloadFrom config answers (left + 1) i lastError = ([], none)) ∨
    (i < 65 ∧ ∃ e, answers.head i = .error e ∧
      downloadFrom config answers (left + 1) i lastError = (delayed config answers i, some (.error e))) ∨
    (i < 65 ∧ ∃ result, (attempt config answers i).2 = some result ∧
      downloadFrom config answers (left + 1) i lastError = (delayed config answers i, some (.ok result))) ∨
    (Fails config answers i ∧ ∃ e, downloadFrom config answers (left + 1) i lastError =
      (delayed config answers i ++ (downloadFrom config answers left (i + 1) (some e)).1,
        (downloadFrom config answers left (i + 1) (some e)).2)) := by
  by_cases hi : 65 ≤ i
  · refine .inl ⟨hi, ?_⟩
    rw [downloadFrom, waits_of_le hi]
  have hlt : i < 65 := by omega
  refine .inr ?_
  rw [downloadFrom, waits_of_lt hlt]
  rcases hhead : getContentLength (answers.head i) with e | size
  · have herror := getContentLength_error.1 hhead
    refine .inl ⟨hlt, e, herror, ?_⟩
    rw [delayed, attempt_of_error herror]
  · have hok : ∀ e, answers.head i ≠ .error e := by
      intro e he
      rw [getContentLength_error.2 he] at hhead
      cases hhead
    rcases htry : tryOnce config answers i size with ⟨acts, e | result⟩
    · refine .inr (.inr ⟨⟨hlt, hok, ?_⟩, e, ?_⟩)
      · rw [attempt, hhead]
        show (tryOnce config answers i size).2.toOption = none
        rw [htry]
        rfl
      · simp only [delayed, attempt, hhead, htry]
    · refine .inr (.inl ⟨hlt, result, ?_, ?_⟩)
      · rw [attempt, hhead]
        show (tryOnce config answers i size).2.toOption = some result
        rw [htry]
        rfl
      · simp only [delayed, attempt, hhead, htry]

/-- What is done in the first attempts. -/
def firstActs (config : Config) (answers : Answers) (n : Nat) : List Act :=
  (List.range n).flatMap (delayed config answers)

theorem firstActs_succ (n : Nat) :
    firstActs config answers (n + 1) = firstActs config answers n ++ delayed config answers n := by
  rw [firstActs, List.range_succ, List.flatMap_append, List.flatMap_singleton]
  rfl

/-- How the loop ends after `n` attempts that fail. -/
inductive EndsAt (config : Config) (answers : Answers) : Nat → List Act × Option (Except String DownloadResult) → Prop
  | exhausted (e : String) :
      EndsAt config answers config.retryCount (firstActs config answers config.retryCount, some (.error e))
  | overflow {n : Nat} (hn : n < config.retryCount) (h : 65 ≤ n) :
      EndsAt config answers n (firstActs config answers n, none)
  | headFailed {n : Nat} {e : String} (hn : n < config.retryCount) (hlt : n < 65) (h : answers.head n = .error e) :
      EndsAt config answers n (firstActs config answers (n + 1), some (.error e))
  | succeeded {n : Nat} {result : DownloadResult} (hn : n < config.retryCount) (hlt : n < 65)
      (h : (attempt config answers n).2 = some result) :
      EndsAt config answers n (firstActs config answers (n + 1), some (.ok result))

theorem downloadFrom_endsAt (answers : Answers) (h : i + left = config.retryCount) (lastError : Option String) :
    ∃ n, (∀ j, i ≤ j → j < n → Fails config answers j) ∧ EndsAt config answers n
      (firstActs config answers i ++ (downloadFrom config answers left i lastError).1,
        (downloadFrom config answers left i lastError).2) := by
  induction left generalizing i lastError with
  | zero =>
    refine ⟨i, by omega, ?_⟩
    rw [downloadFrom, List.append_nil, show i = config.retryCount from h]
    exact .exhausted _
  | succ left ih =>
    have hlt : i < config.retryCount := by omega
    rcases downloadFrom_succ config answers left i lastError with
      ⟨hi, he⟩ | ⟨hi, e, hhead, he⟩ | ⟨hi, result, hresult, he⟩ | ⟨hfails, e, he⟩
    · refine ⟨i, by omega, ?_⟩
      rw [he, List.append_nil]
      exact .overflow hlt hi
    · refine ⟨i, by omega, ?_⟩
      rw [he, ← firstActs_succ]
      exact .headFailed hlt hi hhead
    · refine ⟨i, by omega, ?_⟩
      rw [he, ← firstActs_succ]
      exact .succeeded hlt hi hresult
    · obtain ⟨n, hn, hends⟩ := ih (i := i + 1) (by omega) (some e)
      refine ⟨n, fun j hij hjn => ?_, ?_⟩
      · rcases Nat.eq_or_lt_of_le hij with rfl | hij
        · exact hfails
        · exact hn j hij hjn
      · rw [he, ← List.append_assoc, ← firstActs_succ]
        exact hends

theorem download_endsAt (config : Config) (answers : Answers) :
    ∃ n, (∀ j < n, Fails config answers j) ∧ EndsAt config answers n (download config answers) := by
  obtain ⟨n, hn, hends⟩ := downloadFrom_endsAt answers (Nat.zero_add config.retryCount) none
  exact ⟨n, fun j hj => hn j j.zero_le hj, hends⟩

/-- Every attempt makes one HEAD request, so what is done tells how many attempts there were. -/
theorem count_firstActs (config : Config) (answers : Answers) (n : Nat) :
    (firstActs config answers n).count .head = n := by
  induction n with
  | zero => rfl
  | succ n ih =>
    have hone : (delayed config answers n).count .head = 1 := by
      have htry (size : Option Nat) : (tryOnce config answers n size).1.count .head = 0 := by
        unfold tryOnce
        split
        · split <;> rfl
        · rfl
      have hwait : (if 0 < n then [Act.sleep (min (2 ^ (n - 1)) config.retryMaxDelay)] else []).count .head = 0 := by
        split <;> rfl
      rw [delayed, List.count_append, hwait, attempt]
      split
      · rfl
      · rw [List.count_cons_self, htry]
    rw [firstActs_succ, List.count_append, ih, hone]

theorem firstActs_inj {m n : Nat} (h : firstActs config answers m = firstActs config answers n) : m = n := by
  rw [← count_firstActs config answers m, h, count_firstActs]

/-- No HEAD request fails before the last attempt, as long as the attempts before it have failed. -/
def HeadsAnswered (config : Config) (answers : Answers) : Prop :=
  ∀ i, i + 1 < config.retryCount → (∀ j < i, (attempt config answers j).2 = none) → ∀ e, answers.head i ≠ .error e

/-- There are at most 65 attempts, or one of the first 65 succeeds. -/
def NoOverflow (config : Config) (answers : Answers) : Prop :=
  config.retryCount ≤ 65 ∨ ∃ i < 65, (attempt config answers i).2 ≠ none

/-- The loop tries as often and waits as long as it should, unless a HEAD request fails or the 66th attempt is
reached. -/
theorem download_conforms_iff (config : Config) (answers : Answers) :
    Conforms config answers (download config answers) ↔ HeadsAnswered config answers ∧ NoOverflow config answers := by
  obtain ⟨n, hfails, hends⟩ := download_endsAt config answers
  generalize download config answers = run at hends
  rcases hends with e | @⟨n, hn, h65⟩ | @⟨n, e, hn, hlt, hhead⟩ | @⟨n, result, hn, hlt, hresult⟩
  · refine iff_of_true ⟨config.retryCount, le_rfl, rfl, .inr ⟨rfl, fun j hj => (hfails j hj).attempt, e, rfl⟩⟩ ⟨?_, ?_⟩
    · exact fun i hi _ => (hfails i (by omega)).head
    · refine .inl ?_
      by_contra hmore
      exact absurd (hfails 65 (by omega)).lt (by decide)
  · refine iff_of_false ?_ ?_
    · rintro ⟨m, -, -, ⟨i, result, -, -, -, h⟩ | ⟨-, -, e, h⟩⟩ <;> cases h
    · rintro ⟨-, hle | ⟨i, hi, hsome⟩⟩
      · omega
      · exact hsome (hfails i (by omega)).attempt
  · constructor
    · rintro ⟨m, -, hacts, ⟨i, result, -, -, -, h⟩ | ⟨rfl, -, -⟩⟩
      · cases h
      · have hm : n + 1 = config.retryCount := firstActs_inj hacts
        exact ⟨fun i hi _ => (hfails i (by omega)).head, .inl (by omega)⟩
    · rintro ⟨hheads, -⟩
      have hlast : n + 1 = config.retryCount := by
        by_contra hne
        exact hheads n (by omega) (fun j hj => (hfails j hj).attempt) e hhead
      refine ⟨n + 1, by omega, rfl, .inr ⟨hlast, fun j hj => ?_, e, rfl⟩⟩
      rcases Nat.eq_or_lt_of_le (Nat.le_of_lt_succ hj) with rfl | hj
      · rw [attempt_of_error hhead]
      · exact (hfails j hj).attempt
  · refine iff_of_true
      ⟨n + 1, by omega, rfl, .inl ⟨n, result, rfl, fun j hj => (hfails j hj).attempt, hresult, rfl⟩⟩ ⟨?_, ?_⟩
    · intro i hi hbefore e he
      rcases Nat.lt_trichotomy i n with hin | rfl | hin
      · exact (hfails i hin).head e he
      · rw [attempt_of_error he] at hresult
        cases hresult
      · rw [hbefore n hin] at hresult
        cases hresult
    · refine .inr ⟨n, hlt, ?_⟩
      rw [hresult]
      exact fun h => by cases h

end Retry

namespace Sample
open Retry

def thrice : Config := ⟨⟨3, 4⟩, 30⟩

/-- The first HEAD request finds no connection, and the second attempt would succeed. -/
def droppedOnce : Answers where
  head i := if i = 0 then .error "error sending request" else .ok ⟨200, some "4"⟩
  parallel _ := .error "分段下载失败"
  plain _ := .ok (.ofSuccess "v.mp4" 4 1)

/-- The server answers, and sends no file. -/
def refused : Answers where
  head _ := .ok ⟨404, none⟩
  parallel _ := .error "分段下载失败"
  plain _ := .error "HTTP 404"

/-- One failed HEAD request ends a download that the second attempt would finish, and the 66th attempt overflows. -/
theorem not_conforms_droppedOnce :
    ((download thrice droppedOnce).1 = [.head] ∧ (attempt thrice droppedOnce 1).2.isSome ∧
      ¬ Conforms thrice droppedOnce (download thrice droppedOnce)) ∧
      (download ⟨⟨66, 4⟩, 30⟩ refused).2 = none := by
  have hsome : (attempt thrice droppedOnce 1).2.isSome := rfl
  refine ⟨⟨rfl, hsome, ?_⟩, rfl⟩
  rintro ⟨m, hm, hlog, ⟨i, result, -, -, -, h⟩ | ⟨rfl, hfailed, -⟩⟩
  · cases h
  · rw [hfailed 1 (by decide)] at hsome
    cases hsome

end Sample
end XVideoDownloader
