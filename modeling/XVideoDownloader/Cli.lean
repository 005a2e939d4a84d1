import XVideoDownloader.HistoryCrash
import XVideoDownloader.VideoDownload
import XVideoDownloader.YtDlp
import XVideoDownloader.Lib.UnixPath

/-!
# The command line program (`main.rs`)

`run` handles its URLs one after the other, and the first error ends it. A direct download is entered in the history
when its result says so. A yt-dlp download is entered whenever yt-dlp could be run at all: `download_with_ytdlp` prints
that a run has failed and returns `Ok` (`history_iff`).
-/

namespace XVideoDownloader
open Lib

/-- Equality of `PathBuf`s: `.` is `./`, too. -/
def samePath (p q : String) : Bool := UnixPath.components p.toList = UnixPath.components q.toList

/-- `n as f64`: the 53 leading bits, rounded to even. -/
def f64OfNat (n : Nat) : F64 :=
  let e := n.log2
  if n = 0 then 0
  else .ofNat 64 ((e + 1022) * 2 ^ 52 + if e ≤ 52 then n * 2 ^ (52 - e) else divNearest n (2 ^ (e - 52)))

example : f64OfNat 1 = 0x3FF0000000000000 ∧ f64OfNat 90 = 0x4056800000000000 := by decide

/-- Where `p` implies `q`, they select the same of the list if their selections have equal images. -/
theorem map_filter_eq_iff {α β : Type} {f : α → β} {p q : α → Bool} (hpq : ∀ x, p x = true → q x = true)
    (l : List α) : (l.filter p).map f = (l.filter q).map f ↔ ∀ x ∈ l, q x = true → p x = true := by
  constructor
  · intro h x hx hq
    have hfilter : l.filter p = (l.filter q).filter p := by
      rw [List.filter_filter]
      refine List.filter_congr fun y _ => ?_
      cases hp : p y <;> simp [hpq, hp]
    have hlen : (l.filter p).length = (l.filter q).length := by simpa using congrArg List.length h
    have heq : (l.filter q).filter p = l.filter q :=
      List.filter_sublist.eq_of_length (by rw [← hfilter, hlen])
    exact List.filter_eq_self.1 heq x (List.mem_filter.2 ⟨hx, hq⟩)
  · intro h
    rw [List.filter_congr fun x hx => Bool.eq_iff_iff.2 ⟨hpq x, h x hx⟩]

structure Cli where
  url : Option String
  batch : Option String
  output : String
  format : Option String
  audioOnly : Bool
  subtitles : Bool
  filename : Option String
  listFormats : Bool
  proxy : Option String
  cookies : Option String
  userAgent : Option String
  direct : Bool

namespace Cli

/-- What the outside has to say while one URL is handled. -/
structure World where
  ytdlp : YtDlpWorld
  /-- yt-dlp with `--dump-json`, and what it prints. -/
  query : List String → Except String VideoJson
  /-- `validate_output_dir` and `create_dir_all`: the absolute directory. -/
  outputDir : String → Except String String
  /-- yt-dlp with the arguments of a download: whether its exit status is that of a success. -/
  execute : List String → Except String Bool
  /-- `VideoDownloader::download` of a URL to a path, with a User-Agent. -/
  download : String → String → String → Except String DownloadResult
  defaultOutputDir : String
  /-- The id and the time of the history entry, and the answers to its save. -/
  id : Uuid
  now : Time
  io : History.Io

variable (cli : Cli) (ytdlp : YtDlp) (configDir : String)

/-- The URLs to handle; the argument reads the batch file. -/
def urls (readToString : String → Except String (List Char)) : Except String (List String) :=
  match cli.url, cli.batch with
  | some url, _ => .ok [url]
  | none, some batchFile => do
    let content ← readToString batchFile
    return ((Text.lines content).map Text.trim).filter fun s => s ≠ "" && s.toList.head? ≠ some '#'
  | none, none => .error "请提供视频 URL 或使用 -b/--batch 指定批量文件"

/-- yt-dlp with the User-Agent, the cookies and the proxy of the command line. -/
def configured : YtDlp :=
  let yt := cli.userAgent.elim ytdlp ytdlp.withUserAgent
  let yt := cli.cookies.elim yt yt.withCookieFile
  cli.proxy.elim yt yt.withProxy

def getVideoInfo (w : World) (url : String) : Except String VideoInfo :=
  (cli.configured ytdlp).getVideoInfo w.ytdlp w.query url

variable [UnicodeDeps]

/-- The arguments of the download of `info` into the directory. -/
def ytdlpArgs (w : World) (info : VideoInfo) (outputDir : String) : List String :=
  let filename := sanitizeFilename (cli.filename.getD info.title)
  let isDirectUrl := Text.contains info.url "video.twimg.com"
  let format := cli.format.or (if cli.audioOnly then some "bestaudio" else if isDirectUrl then some "best" else none)
  (cli.configured ytdlp).buildDownloadArgs w.ytdlp info.url (joinPath outputDir (filename ++ ".%(ext)s")) format
    cli.audioOnly cli.subtitles

/-- Whether yt-dlp has succeeded is only printed. -/
def downloadWithYtdlp (w : World) (info : VideoInfo) : Except String Unit := do
  let outputDir ← w.outputDir (if samePath cli.output "." then configDir else cli.output)
  let _success ← w.execute (cli.ytdlpArgs ytdlp w info outputDir)
  return ()

def downloadDirect (w : World) (url : String) : Except String DownloadResult := do
  let outputDir ← w.outputDir (if samePath cli.output "." then w.defaultOutputDir else cli.output)
  let filename := cli.filename.elim "video.mp4" sanitizeFilename
  w.download url (joinPath outputDir filename) (cli.userAgent.getD
    ("Mozilla/5.0 (Windows NT 10.0; Win64; x64) AppleWebKit/537.36 (KHTML, like Gecko) " ++
      "Chrome/131.0.0.0 Safari/537.36"))

variable [Codec (List HistoryEntry)] [Codec (List BookmarkEntry)]

/-- The history and its files. -/
abbrev Kept := History × History.Files

def addEntry (w : World) (url : String) (title : Option String) (filePath : Option Path) (fileSize : Option Nat)
    (durationSecs : Option F64) (h : Kept) : Except String Unit × Kept :=
  (History.Op.addEntry url title filePath fileSize durationSecs w.id w.now).run w.io h.1 h.2

/-- One pass of the loop. -/
def process (w : World) (url : String) (h : Kept) : Except String Unit × Kept :=
  match (if cli.direct then .ok none else (cli.getVideoInfo ytdlp w url).map some) with
  | .error e => (.error e, h)
  | .ok videoInfo =>
    if cli.listFormats then (.ok (), h)
    else if cli.direct then
      match cli.downloadDirect w url with
      | .error e => (.error e, h)
      | .ok result =>
        if result.success then
          addEntry w url none (some (utf8 result.outputPath)) (some result.fileSize) none h
        else (.ok (), h)
    else
      match videoInfo with
      | none => (.ok (), h)
      | some info =>
        match cli.downloadWithYtdlp ytdlp configDir w info with
        | .error e => (.error e, h)
        | .ok () => addEntry w url (some info.title) none none (info.duration.map f64OfNat) h

/-- The loop, from the `i`-th URL on. -/
def loop (w : Nat → World) : List String → Nat → Kept → Except String Unit × Kept
  | [], _, h => (.ok (), h)
  | url :: urls, i, h =>
    match cli.process ytdlp configDir (w i) url h with
    | (.error e, h') => (.error e, h')
    | (.ok (), h') => loop w urls (i + 1) h'

def run (available : Bool) (w : Nat → World) (urls : Except String (List String)) (h : Kept) :
    Except String Unit × Kept :=
  if !available then
    (.error "错误: 未找到 yt-dlp。请安装 yt-dlp: https://github.com/yt-dlp/yt-dlp#installation", h)
  else
    match urls with
    | .error e => (.error e, h)
    | .ok urls => cli.loop ytdlp configDir w urls 0 h

/-! ### What is entered -/

/-- The URLs that the loop gets to, with their places: all of them, or those up to the one that ends the run. -/
def reached (w : Nat → World) : List String → Nat → Kept → List (Nat × String)
  | [], _, _ => []
  | url :: urls, i, h =>
    match cli.process ytdlp configDir (w i) url h with
    | (.error _, _) => [(i, url)]
    | (.ok (), h') => (i, url) :: reached w urls (i + 1) h'

omit [Codec (List HistoryEntry)] [Codec (List BookmarkEntry)]

/-- Whether the exit status of the yt-dlp run for a URL is that of a success, where it comes to that run. -/
def exitSuccess (w : World) (url : String) : Option Bool := do
  let info ← (cli.getVideoInfo ytdlp w url).toOption
  let outputDir ← (w.outputDir (if samePath cli.output "." then configDir else cli.output)).toOption
  (w.execute (cli.ytdlpArgs ytdlp w info outputDir)).toOption

def directSuccess (w : World) (url : String) : Bool :=
  match cli.downloadDirect w url with
  | .error _ => false
  | .ok result => result.success

/-- The download of the URL succeeds. -/
def succeeds (w : Nat → World) (x : Nat × String) : Bool :=
  if cli.direct then cli.directSuccess (w x.1) x.2 else cli.exitSuccess ytdlp configDir (w x.1) x.2 = some true

/-- The URL is entered in the history. -/
def enters (w : Nat → World) (x : Nat × String) : Bool :=
  if cli.direct then cli.directSuccess (w x.1) x.2 else (cli.exitSuccess ytdlp configDir (w x.1) x.2).isSome

variable {cli ytdlp configDir} {url : String}

theorem enters_of_succeeds {w : Nat → World} {x : Nat × String} (h : cli.succeeds ytdlp configDir w x = true) :
    cli.enters ytdlp configDir w x = true := by
  unfold succeeds at h
  unfold enters
  split at h
  · rwa [if_pos (by assumption)]
  · rw [if_neg (by assumption), of_decide_eq_true h]
    rfl

/-- What is entered has succeeded, unless it is a yt-dlp run that has exited with a failure. -/
theorem succeeds_of_enters_iff {w : Nat → World} {x : Nat × String} :
    (cli.enters ytdlp configDir w x = true → cli.succeeds ytdlp configDir w x = true) ↔
      (cli.direct = false → cli.exitSuccess ytdlp configDir (w x.1) x.2 ≠ some false) := by
  unfold succeeds enters
  cases cli.direct with
  | true => simp
  | false => rcases cli.exitSuccess ytdlp configDir (w x.1) x.2 with _ | _ | _ <;> simp

theorem exitSuccess_eq_none (cli : Cli) (ytdlp : YtDlp) (configDir : String) (w : World) (url : String) :
    cli.exitSuccess ytdlp configDir w url = none ↔
      ∀ info, cli.getVideoInfo ytdlp w url = .ok info →
        ∃ e, cli.downloadWithYtdlp ytdlp configDir w info = .error e := by
  unfold exitSuccess downloadWithYtdlp
  cases cli.getVideoInfo ytdlp w url with
  | error e => simp [Except.toOption]
  | ok info =>
    cases ho : w.outputDir (if samePath cli.output "." then configDir else cli.output) with
    | error e => simp [Except.toOption, bind, Except.bind]
    | ok dir =>
      cases he : w.execute (cli.ytdlpArgs ytdlp w info dir) <;>
        simp [Except.toOption, he, bind, Except.bind, pure, Except.pure]

variable [Codec (List HistoryEntry)] [Codec (List BookmarkEntry)] {h : Kept}

theorem process_direct (hl : cli.listFormats = false) (hd : cli.direct = true) (w : World) :
    cli.process ytdlp configDir w url h =
      match cli.downloadDirect w url with
      | .error e => (.error e, h)
      | .ok result =>
        if result.success then addEntry w url none (some (utf8 result.outputPath)) (some result.fileSize) none h
        else (.ok (), h) := by
  simp only [process, hl, hd, if_true, Bool.false_eq_true, if_false]

theorem process_ytdlp (hl : cli.listFormats = false) (hd : cli.direct = false) (w : World) :
    cli.process ytdlp configDir w url h =
      match cli.getVideoInfo ytdlp w url with
      | .error e => (.error e, h)
      | .ok info =>
        match cli.downloadWithYtdlp ytdlp configDir w info with
        | .error e => (.error e, h)
        | .ok () => addEntry w url (some info.title) none none (info.duration.map f64OfNat) h := by
  simp only [process, hl, hd, Bool.false_eq_true, if_false]
  cases cli.getVideoInfo ytdlp w url <;> rfl

omit [UnicodeDeps] in
/-- An entry is added in memory even if it cannot be saved. -/
theorem entries_addEntry (w : World) (title : Option String) (filePath : Option Path) (fileSize : Option Nat)
    (durationSecs : Option F64) :
    (addEntry w url title filePath fileSize durationSecs h).2.1.entries =
      ⟨w.id, url, title, filePath, fileSize, w.now, durationSecs⟩ :: h.1.entries := rfl

/-- One pass adds the URL or nothing. -/
theorem entries_process (ytdlp : YtDlp) (configDir : String) (hl : cli.listFormats = false) (w : Nat → World) (i : Nat)
    (url : String) (h : Kept) :
    ∃ added, (cli.process ytdlp configDir (w i) url h).2.1.entries = added ++ h.1.entries ∧
      added.map (·.url) = if cli.enters ytdlp configDir w (i, url) then [url] else [] := by
  cases hd : cli.direct with
  | true =>
    rw [process_direct hl hd, enters, if_pos hd, directSuccess]
    cases cli.downloadDirect (w i) url with
    | error e => exact ⟨[], rfl, rfl⟩
    | ok result =>
      by_cases hs : result.success = true
      · simp only [if_pos hs, entries_addEntry]
        exact ⟨[_], rfl, rfl⟩
      · simp only [if_neg hs]
        exact ⟨[], rfl, rfl⟩
  | false =>
    have hnone := exitSuccess_eq_none cli ytdlp configDir (w i) url
    rw [process_ytdlp hl hd, enters, hd, if_neg Bool.false_ne_true]
    cases hv : cli.getVideoInfo ytdlp (w i) url with
    | error e => exact ⟨[], rfl, by simp [hnone.2 fun info hinfo => by rw [hv] at hinfo; cases hinfo]⟩
    | ok info =>
      dsimp only
      cases hy : cli.downloadWithYtdlp ytdlp configDir (w i) info with
      | error e =>
        refine ⟨[], rfl, ?_⟩
        have hexit : cli.exitSuccess ytdlp configDir (w i) url = none :=
          hnone.2 fun info' hinfo => ⟨e, by rw [← Except.ok.inj (hv.symm.trans hinfo), hy]⟩
        simp [hexit]
      | ok =>
        have hexit : cli.exitSuccess ytdlp configDir (w i) url ≠ none := by
          intro hn
          obtain ⟨e, he⟩ := hnone.1 hn info hv
          cases hy.symm.trans he
        rw [if_pos (Option.isSome_iff_ne_none.2 hexit)]
        exact ⟨[_], entries_addEntry .., rfl⟩

/-- The loop adds the URLs that are entered, the last one first. -/
theorem entries_loop (ytdlp : YtDlp) (configDir : String) (hl : cli.listFormats = false) (w : Nat → World)
    (urls : List String) (i : Nat) (h : Kept) :
    ∃ added, (cli.loop ytdlp configDir w urls i h).2.1.entries = added ++ h.1.entries ∧
      added.reverse.map (·.url) =
        ((cli.reached ytdlp configDir w urls i h).filter (cli.enters ytdlp configDir w)).map (·.2) := by
  induction urls generalizing i h with
  | nil => exact ⟨[], rfl, rfl⟩
  | cons url urls ih =>
    obtain ⟨first, hfirst, hurl⟩ := entries_process ytdlp configDir hl w i url h
    have hlen : first.reverse.map (·.url) = if cli.enters ytdlp configDir w (i, url) then [url] else [] := by
      rw [List.map_reverse, hurl]
      split <;> rfl
    rcases hp : cli.process ytdlp configDir (w i) url h with ⟨_ | _, h'⟩
    · refine ⟨first, ?_, ?_⟩
      · rw [← hfirst, loop, hp]
      · rw [hlen, reached, hp]
        cases hx : cli.enters ytdlp configDir w (i, url) <;> simp [hx]
    · obtain ⟨rest, hrest, hurls⟩ := ih (i + 1) h'
      rw [hp] at hfirst
      have hfirst : h'.1.entries = first ++ h.1.entries := hfirst
      refine ⟨rest ++ first, ?_, ?_⟩
      · rw [loop, hp, List.append_assoc, ← hfirst, ← hrest]
      · rw [List.reverse_append, List.map_append, hlen, hurls, reached, hp]
        cases hx : cli.enters ytdlp configDir w (i, url) <;> simp [hx]

/-- The entries that `run` adds are those of the URLs whose download has succeeded, each once and in the order of the
list, exactly when no yt-dlp that it has run has exited with a failure. -/
theorem history_iff (cli : Cli) (ytdlp : YtDlp) (configDir : String) (hl : cli.listFormats = false) (available : Bool)
    (w : Nat → World) (urls : List String) (h : Kept) :
    (∃ added, (cli.run ytdlp configDir available w (.ok urls) h).2.1.entries = added ++ h.1.entries ∧
        added.reverse.map (·.url) = ((if available then cli.reached ytdlp configDir w urls 0 h else []).filter
          (cli.succeeds ytdlp configDir w)).map (·.2)) ↔
      cli.direct = false → available = true →
        ∀ x ∈ cli.reached ytdlp configDir w urls 0 h, cli.exitSuccess ytdlp configDir (w x.1) x.2 ≠ some false := by
  cases available with
  | false => exact iff_of_true ⟨[], rfl, rfl⟩ fun _ ha => by cases ha
  | true =>
    obtain ⟨added, hentries, hurls⟩ := entries_loop ytdlp configDir hl w urls 0 h
    have hrun : cli.run ytdlp configDir true w (.ok urls) h = cli.loop ytdlp configDir w urls 0 h := rfl
    rw [hrun, if_pos rfl]
    have hleft : (∃ added, (cli.loop ytdlp configDir w urls 0 h).2.1.entries = added ++ h.1.entries ∧
        added.reverse.map (·.url) = ((cli.reached ytdlp configDir w urls 0 h).filter
          (cli.succeeds ytdlp configDir w)).map (·.2)) ↔
        ((cli.reached ytdlp configDir w urls 0 h).filter (cli.succeeds ytdlp configDir w)).map (·.2) =
          ((cli.reached ytdlp configDir w urls 0 h).filter (cli.enters ytdlp configDir w)).map (·.2) := by
      constructor
      · rintro ⟨added', hentries', hurls'⟩
        cases List.append_cancel_right (hentries'.symm.trans hentries)
        rw [← hurls', hurls]
      · intro heq
        exact ⟨added, hentries, by rw [hurls, heq]⟩
    rw [hleft, map_filter_eq_iff fun _ => enters_of_succeeds]
    simp only [succeeds_of_enters_iff]
    exact ⟨fun hx hd _ x hmem => hx x hmem hd, fun hx x hmem hd => hx hd trivial x hmem⟩

end Cli

namespace Sample
open Cli

/-- ASCII only. -/
scoped instance unicode : UnicodeDeps := ⟨Char.isAlphanum⟩

def plainCli : Cli where
  url := some "https://x.com/a"
  batch := none
  output := "."
  format := none
  audioOnly := false
  subtitles := false
  filename := none
  listFormats := false
  proxy := none
  cookies := none
  userAgent := none
  direct := false

/-- yt-dlp knows the video, and its download exits with a success or a failure. -/
def videoWorld (success : Bool) : World where
  ytdlp := ⟨fun _ => false, "Mozilla/5.0", "1970-01-01T00:00:00+00:00"⟩
  query _ := .ok ⟨some "a", none, none, none, none, none⟩
  outputDir := .ok
  execute _ := .ok success
  download _ _ _ := .error "error sending request"
  defaultOutputDir := "/videos"
  id := 9
  now := 0
  io := ⟨none, .done, .done⟩

def noHistory : Kept := (⟨[], []⟩, ⟨none, none⟩)

theorem history_success : ∃ added,
    (plainCli.run (.new "yt-dlp") "/videos" true (fun _ => videoWorld true) (.ok ["https://x.com/a"])
        noHistory).2.1.entries =
      added ++ noHistory.1.entries ∧
    added.reverse.map (·.url) =
      ((plainCli.reached (.new "yt-dlp") "/videos" (fun _ => videoWorld true) ["https://x.com/a"] 0 noHistory).filter
        (plainCli.succeeds (.new "yt-dlp") "/videos" fun _ => videoWorld true)).map (·.2) := by
  refine (history_iff plainCli (.new "yt-dlp") "/videos" rfl true (fun _ => videoWorld true) ["https://x.com/a"]
    noHistory).2 ?_
  rintro - - ⟨i, url⟩ -
  have hexit : plainCli.exitSuccess (.new "yt-dlp") "/videos" (videoWorld true) url = some true := rfl
  rw [hexit]
  decide

/-- The run of yt-dlp has failed, and its video is entered. -/
theorem failure_entered :
    (plainCli.run (.new "yt-dlp") "/videos" true (fun _ => videoWorld false) (.ok ["https://x.com/a"])
        noHistory).2.1.entries =
      [titledEntry] ∧
      (plainCli.reached (.new "yt-dlp") "/videos" (fun _ => videoWorld false) ["https://x.com/a"] 0 noHistory).filter
        (plainCli.succeeds (.new "yt-dlp") "/videos" fun _ => videoWorld false) = [] := by
  decide +kernel

end Sample

end XVideoDownloader
