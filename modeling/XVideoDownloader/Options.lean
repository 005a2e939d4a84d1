import XVideoDownloader.Cli
import XVideoDownloader.Lib.Argv

/-!
# What yt-dlp reads

The two lists of arguments are written from the program's own options (`videoInfoArgs_eq`, `buildDownloadArgs_eq`), and
every value stands behind an option that takes it, so nothing depends on what a format, a path, a User-Agent or a proxy
looks like. The URL stands alone and no `--` stands before it: a URL that begins with a dash is an option
(`reads_own_options_iff`), and a line of a batch file may begin so.
-/

namespace XVideoDownloader
open Lib

def startsWithDash (word : String) : Bool := word.toList.head? = some '-'

namespace YtDlp

/-- The options that the program uses with a value, and those that it uses without one. -/
def valueOptions : List String :=
  ["--retries", "--fragment-retries", "--retry-sleep", "--socket-timeout", "--http-chunk-size", "--user-agent",
    "--cookies", "--proxy", "-o", "--concurrent-fragments", "-f", "--audio-format", "--sub-lang"]

def flagOptions : List String :=
  ["--dump-json", "--no-playlist", "--no-check-certificate", "--no-warnings", "--newline", "--no-abort-on-error", "-x",
    "--write-subs"]

/-- yt-dlp takes a value for the former and none for the latter. -/
structure KnowsOptions (takesValue : String → Bool) : Prop where
  values : ∀ name ∈ valueOptions, takesValue name = true
  flags : ∀ name ∈ flagOptions, takesValue name = false

/-- A reader that knows an option by its dash. -/
def optionTable (takesValue : String → Bool) : OptionTable String := ⟨startsWithDash, takesValue, "--"⟩

section
variable (yt : YtDlp) (world : YtDlpWorld)

def cookieOptions : List (Arg String) :=
  match yt.antiBot.cookieFile with
  | some cookieFile => if world.exists? cookieFile then [.setting "--cookies" cookieFile] else []
  | none => []

def proxyOptions : List (Arg String) :=
  match yt.antiBot.proxy with
  | some proxy => [.setting "--proxy" proxy]
  | none => []

def sslOptions : List (Arg String) := if yt.antiBot.skipSslVerify then [.flag "--no-check-certificate"] else []

/-- The options of `get_video_info`, and the URL. -/
def videoInfoOptions (url : String) : List (Arg String) :=
  [.flag "--dump-json", .flag "--no-playlist", .setting "--retries" "10", .setting "--fragment-retries" "10",
    .setting "--retry-sleep" "5", .setting "--socket-timeout" "120", .setting "--http-chunk-size" "10M",
    .positional url] ++
  if yt.antiBot.enabled then
    [.setting "--user-agent" (yt.getUserAgent world)] ++ yt.cookieOptions world ++ yt.proxyOptions ++ yt.sslOptions
  else []

/-- The options of a download. -/
def downloadOptions (outputPath : String) (format : Option String) (audioOnly subtitles : Bool) : List (Arg String) :=
  [.flag "--no-warnings", .flag "--newline", .setting "-o" outputPath, .setting "--concurrent-fragments" "4",
    .setting "--fragment-retries" "10", .setting "--retries" "10", .setting "--socket-timeout" "60",
    .flag "--no-abort-on-error"] ++ yt.sslOptions ++
  [.setting "-f" (format.getD "bestvideo[ext=mp4]+bestaudio[ext=m4a]/best[ext=mp4]/best")] ++
  (if audioOnly then [.flag "-x", .setting "--audio-format" "mp3"] else []) ++
  (if subtitles then [.flag "--write-subs", .setting "--sub-lang" "en,zh-Hans,zh-Hant"] else []) ++
  [.setting "--user-agent" (yt.getUserAgent world)] ++ yt.cookieOptions world ++ yt.proxyOptions

end

variable {yt : YtDlp} {world : YtDlpWorld} {takesValue : String → Bool} {url outputPath : String}
  {format : Option String} {audioOnly subtitles : Bool} {name value : String}

theorem flatMap_cookieOptions : (yt.cookieOptions world).flatMap Arg.words = yt.cookieArgs world := by
  unfold cookieOptions cookieArgs
  rcases yt.antiBot.cookieFile with _ | cookieFile
  · rfl
  · by_cases h : world.exists? cookieFile = true
    · simp only [h, if_true]
      rfl
    · simp only [h]
      rfl

theorem flatMap_proxyOptions : yt.proxyOptions.flatMap Arg.words = yt.proxyArgs := by
  unfold proxyOptions proxyArgs
  rcases yt.antiBot.proxy with _ | proxy <;> rfl

theorem flatMap_sslOptions : yt.sslOptions.flatMap Arg.words = yt.sslArgs := by
  unfold sslOptions sslArgs
  split <;> rfl

theorem videoInfoArgs_eq : yt.videoInfoArgs world url = (yt.videoInfoOptions world url).flatMap Arg.words := by
  unfold videoInfoArgs videoInfoOptions
  rw [List.flatMap_append]
  congr 1
  split
  · simp only [List.flatMap_append, flatMap_cookieOptions, flatMap_proxyOptions, flatMap_sslOptions]
    rfl
  · rfl

theorem buildDownloadArgs_eq : yt.buildDownloadArgs world url outputPath format audioOnly subtitles =
    (yt.downloadOptions world outputPath format audioOnly subtitles).flatMap Arg.words ++ [url] := by
  unfold buildDownloadArgs downloadOptions
  simp only [List.flatMap_append, flatMap_cookieOptions, flatMap_proxyOptions, flatMap_sslOptions,
    apply_ite (List.flatMap Arg.words)]
  rfl

/-! ### The options are the program's own -/

/-- An option of the program, used with or without a value as it should be, or a word without a dash. -/
def Own : Arg String → Prop
  | .flag name => name ∈ flagOptions
  | .setting name _ => name ∈ valueOptions
  | .positional word => startsWithDash word = false

theorem valid_of_own (h : KnowsOptions takesValue) {a : Arg String} (ha : Own a) :
    (optionTable takesValue).Valid a := by
  have hdash : ∀ name ∈ flagOptions ++ valueOptions, name ≠ "--" ∧ startsWithDash name = true := by decide
  rcases a with name | ⟨name, value⟩ | word
  · obtain ⟨hne, hopt⟩ := hdash name (List.mem_append_left _ ha)
    exact ⟨hne, hopt, h.flags name ha⟩
  · obtain ⟨hne, hopt⟩ := hdash name (List.mem_append_right _ ha)
    exact ⟨hne, hopt, h.values name ha⟩
  · have ha : startsWithDash word = false := ha
    refine ⟨?_, ha⟩
    rintro rfl
    exact absurd (show startsWithDash "--" = false from ha) (by decide)

theorem own_cookieOptions : ∀ a ∈ yt.cookieOptions world, Own a := by
  unfold cookieOptions
  rcases yt.antiBot.cookieFile with _ | cookieFile
  · simp
  · by_cases h : world.exists? cookieFile = true
    · simp [h, Own, valueOptions]
    · simp [h]

theorem own_proxyOptions : ∀ a ∈ yt.proxyOptions, Own a := by
  unfold proxyOptions
  rcases yt.antiBot.proxy with _ | proxy <;> simp [Own, valueOptions]

theorem own_sslOptions : ∀ a ∈ yt.sslOptions, Own a := by
  unfold sslOptions
  split <;> simp [Own, flagOptions]

theorem own_videoInfoOptions (hurl : startsWithDash url = false) : ∀ a ∈ yt.videoInfoOptions world url, Own a := by
  unfold videoInfoOptions
  refine List.forall_mem_append.2 ⟨by simp [Own, valueOptions, flagOptions, hurl], ?_⟩
  split
  · simp only [List.forall_mem_append]
    exact ⟨⟨⟨by simp [Own, valueOptions], own_cookieOptions⟩, own_proxyOptions⟩, own_sslOptions⟩
  · simp

theorem own_downloadOptions : ∀ a ∈ yt.downloadOptions world outputPath format audioOnly subtitles, Own a := by
  unfold downloadOptions
  simp only [List.forall_mem_append]
  refine ⟨⟨⟨⟨⟨⟨⟨?_, own_sslOptions⟩, ?_⟩, ?_⟩, ?_⟩, ?_⟩, own_cookieOptions⟩, own_proxyOptions⟩
  · simp [Own, valueOptions, flagOptions]
  · simp [Own, valueOptions]
  · split <;> simp [Own, valueOptions, flagOptions]
  · split <;> simp [Own, valueOptions, flagOptions]
  · simp [Own, valueOptions]

/-- Both lists are read as the program's options and one URL, whatever else is put into them, if and only if the URL
does not begin with a dash. -/
theorem reads_own_options_iff (h : KnowsOptions takesValue) (yt : YtDlp) (world : YtDlpWorld)
    (url outputPath : String) (format : Option String) (audioOnly subtitles : Bool) :
    ((optionTable takesValue).read (yt.videoInfoArgs world url) = yt.videoInfoOptions world url ∧
      (optionTable takesValue).read (yt.buildDownloadArgs world url outputPath format audioOnly subtitles) =
        yt.downloadOptions world outputPath format audioOnly subtitles ++ [.positional url]) ↔
      startsWithDash url = false := by
  have hdownload : (optionTable takesValue).read
      (yt.buildDownloadArgs world url outputPath format audioOnly subtitles) =
        yt.downloadOptions world outputPath format audioOnly subtitles ++ (optionTable takesValue).read [url] := by
    rw [buildDownloadArgs_eq, OptionTable.read_words_append fun a ha => valid_of_own h (own_downloadOptions a ha)]
  rw [hdownload, List.append_cancel_left_eq]
  constructor
  · rintro ⟨-, hread⟩
    rcases hdash : startsWithDash url with _ | _
    · rfl
    · exact absurd hread (OptionTable.read_option_ne (t := optionTable takesValue) hdash)
  · intro hurl
    have hvalid : ∀ a ∈ [Arg.positional url], (optionTable takesValue).Valid a := by
      intro a ha
      rw [List.mem_singleton.1 ha]
      exact valid_of_own h hurl
    refine ⟨?_, OptionTable.read_words hvalid⟩
    rw [videoInfoArgs_eq]
    exact OptionTable.read_words fun a ha => valid_of_own h (own_videoInfoOptions hurl a ha)

end YtDlp

namespace Sample
open YtDlp

def takesValue (name : String) : Bool := name ∈ valueOptions

theorem knowsOptions : KnowsOptions takesValue := ⟨by decide, by decide⟩

/-- A proxy and a format that look like options. -/
theorem reads_own_options_dashes :
    ((optionTable takesValue).read
        ((YtDlp.new "yt-dlp").videoInfoArgs (videoWorld true).ytdlp "https://x.com/a") =
          (YtDlp.new "yt-dlp").videoInfoOptions (videoWorld true).ytdlp "https://x.com/a" ∧
      (optionTable takesValue).read
        ((YtDlp.new "yt-dlp").buildDownloadArgs (videoWorld true).ytdlp "https://x.com/a" "--" (some "-x") true false) =
          (YtDlp.new "yt-dlp").downloadOptions (videoWorld true).ytdlp "--" (some "-x") true false ++
            [.positional "https://x.com/a"]) ↔
      startsWithDash "https://x.com/a" = false :=
  reads_own_options_iff knowsOptions (.new "yt-dlp") (videoWorld true).ytdlp "https://x.com/a" "--" (some "-x") true
    false

def batchCli : Cli := { plainCli with url := none, batch := some "urls.txt" }

/-- A line of a batch file that has yt-dlp run a program. -/
def batchLine : String := "--exec=reboot"

theorem not_reads_own_options_batchLine :
    batchCli.urls (fun _ => .ok "--exec=reboot\n".toList) = .ok [batchLine] ∧
      (optionTable takesValue).read ((YtDlp.new "yt-dlp").buildDownloadArgs (videoWorld true).ytdlp batchLine "v.mp4"
          none false false) =
        (YtDlp.new "yt-dlp").downloadOptions (videoWorld true).ytdlp "v.mp4" none false false ++ [.flag batchLine] ∧
      (optionTable takesValue).read ((YtDlp.new "yt-dlp").buildDownloadArgs (videoWorld true).ytdlp batchLine "v.mp4"
          none false false) ≠
        (YtDlp.new "yt-dlp").downloadOptions (videoWorld true).ytdlp "v.mp4" none false false ++
          [.positional batchLine] := by
  have hread : (optionTable takesValue).read
      ((YtDlp.new "yt-dlp").buildDownloadArgs (videoWorld true).ytdlp batchLine "v.mp4" none false false) =
        (YtDlp.new "yt-dlp").downloadOptions (videoWorld true).ytdlp "v.mp4" none false false ++
          [.flag batchLine] := by
    rw [buildDownloadArgs_eq,
      OptionTable.read_words_append fun a ha => valid_of_own knowsOptions (own_downloadOptions a ha)]
    rfl
  refine ⟨by decide, hread, ?_⟩
  rw [hread, Ne, List.append_cancel_left_eq]
  simp

end Sample
end XVideoDownloader
