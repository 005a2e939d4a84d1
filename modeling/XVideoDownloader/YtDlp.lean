import XVideoDownloader.Text

/-!
# yt-dlp (`types.rs`, `yt_dlp.rs`)

The command lines that the program runs, and the `VideoInfo` that it makes of what yt-dlp prints about a video. Which
characters Unicode counts as alphanumeric, which files exist and which of its User-Agents the program draws are given
from outside.
-/

namespace XVideoDownloader

structure VideoFormat where
  formatId : String
  ext : String
  resolution : Option String
  filesize : Option Nat
  bitrate : Option Nat
  codec : Option String
  audioOnly : Bool
  formatNote : Option String
  deriving DecidableEq

structure VideoInfo where
  title : String
  description : Option String
  uploader : Option String
  duration : Option Nat
  url : String
  thumbnail : Option String
  formats : List VideoFormat
  createdAt : Option String
  deriving DecidableEq

def VideoInfo.new (now title url : String) : VideoInfo where
  title := title
  description := none
  uploader := none
  duration := none
  url := url
  thumbnail := none
  formats := []
  createdAt := some now

class UnicodeDeps where
  /-- `char::is_alphanumeric`. -/
  isAlphanumeric : Char → Bool

def sanitizeFilename [UnicodeDeps] (name : String) : String :=
  let hasPathTraversal := Text.contains name ".." || name.toList.head? = some '/' || name.toList.head? = some '\\' ||
    name.toList.head? = some '~'
  if hasPathTraversal then "video"
  else
    let sanitized := (name.toList.map fun c =>
      if UnicodeDeps.isAlphanumeric c || c = '-' || c = '_' || c = '.' then c else '_').take 200
    if sanitized = [] then "video" else .ofList sanitized

/-- `Path::join` with a relative path. -/
def joinPath (dir name : String) : String :=
  if dir = "" then name
  else if dir.toList.getLast? = some '/' then dir ++ name
  else dir ++ "/" ++ name

structure AntiBotConfig where
  enabled : Bool
  userAgent : Option String
  cookieFile : Option String
  proxy : Option String
  skipSslVerify : Bool

structure YtDlp where
  executable : String
  antiBot : AntiBotConfig

/-- What a call sees from outside: which files exist, the User-Agent that would be drawn and the time, as text. -/
structure YtDlpWorld where
  exists? : String → Bool
  userAgent : String
  now : String

/-- A format in what yt-dlp prints; a field that is missing or of another type is `none`. -/
structure FormatJson where
  formatId : Option String
  ext : Option String
  resolution : Option String
  filesize : Option Nat
  filesizeApprox : Option Nat
  tbr : Option Nat
  vcodec : Option String
  formatNote : Option String

structure VideoJson where
  title : Option String
  description : Option String
  uploader : Option String
  duration : Option Nat
  thumbnail : Option String
  formats : Option (List FormatJson)

def FormatJson.format (fmt : FormatJson) : Option VideoFormat :=
  fmt.formatId.map fun formatId =>
    let ext := fmt.ext.getD "unknown"
    { formatId := formatId
      ext := ext
      resolution := fmt.resolution
      filesize := fmt.filesize.or fmt.filesizeApprox
      bitrate := fmt.tbr
      codec := none
      audioOnly := ext = "m4a" || ext = "mp3" || ext = "webm" || fmt.vcodec = some "none"
      formatNote := fmt.formatNote }

namespace YtDlp

def new (executable : String) : YtDlp := ⟨executable, ⟨true, none, none, none, false⟩⟩

def withUserAgent (yt : YtDlp) (userAgent : String) : YtDlp :=
  { yt with antiBot := { yt.antiBot with userAgent := some userAgent } }

def withCookieFile (yt : YtDlp) (cookieFile : String) : YtDlp :=
  { yt with antiBot := { yt.antiBot with cookieFile := some cookieFile } }

def withProxy (yt : YtDlp) (proxy : String) : YtDlp :=
  { yt with antiBot := { yt.antiBot with proxy := some proxy } }

variable (yt : YtDlp) (world : YtDlpWorld)

def getUserAgent : String := yt.antiBot.userAgent.getD world.userAgent

def cookieArgs : List String :=
  match yt.antiBot.cookieFile with
  | some cookieFile => if world.exists? cookieFile then ["--cookies", cookieFile] else []
  | none => []

def proxyArgs : List String :=
  match yt.antiBot.proxy with
  | some proxy => ["--proxy", proxy]
  | none => []

def sslArgs : List String := if yt.antiBot.skipSslVerify then ["--no-check-certificate"] else []

/-- The arguments with which `get_video_info` asks for a video. -/
def videoInfoArgs (url : String) : List String :=
  ["--dump-json", "--no-playlist", "--retries", "10", "--fragment-retries", "10", "--retry-sleep", "5",
    "--socket-timeout", "120", "--http-chunk-size", "10M", url] ++
  if yt.antiBot.enabled then
    ["--user-agent", yt.getUserAgent world] ++ yt.cookieArgs world ++ yt.proxyArgs ++ yt.sslArgs
  else []

def videoInfo (now url : String) (json : VideoJson) : VideoInfo :=
  { VideoInfo.new now (json.title.getD "未知标题") url with
    description := json.description
    uploader := json.uploader
    duration := json.duration
    thumbnail := json.thumbnail
    formats := (json.formats.getD []).filterMap FormatJson.format }

/-- `run` runs yt-dlp and parses what it prints. -/
def getVideoInfo (run : List String → Except String VideoJson) (url : String) : Except String VideoInfo :=
  (run (yt.videoInfoArgs world url)).map (videoInfo world.now url)

def buildDownloadArgs (url outputPath : String) (format : Option String) (audioOnly subtitles : Bool) : List String :=
  ["--no-warnings", "--newline", "-o", outputPath, "--concurrent-fragments", "4", "--fragment-retries", "10",
    "--retries", "10", "--socket-timeout", "60", "--no-abort-on-error"] ++ yt.sslArgs ++
  ["-f", format.getD "bestvideo[ext=mp4]+bestaudio[ext=m4a]/best[ext=mp4]/best"] ++
  (if audioOnly then ["-x", "--audio-format", "mp3"] else []) ++
  (if subtitles then ["--write-subs", "--sub-lang", "en,zh-Hans,zh-Hant"] else []) ++
  ["--user-agent", yt.getUserAgent world] ++ yt.cookieArgs world ++ yt.proxyArgs ++ [url]

/-- The info names the URL that was asked for. -/
theorem url_of_getVideoInfo {run : List String → Except String VideoJson} {url : String} {info : VideoInfo}
    (h : yt.getVideoInfo world run url = .ok info) : info.url = url := by
  unfold getVideoInfo at h
  cases hr : run (yt.videoInfoArgs world url) with
  | error e => simp [hr, Except.map] at h
  | ok json =>
    simp only [hr, Except.map, Except.ok.injEq] at h
    rw [← h]
    rfl

end YtDlp

end XVideoDownloader
