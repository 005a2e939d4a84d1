import XVideoDownloader.YtDlp

/-!
# The window (`gui.rs`)

`App.update` changes the application by one message and says what is to be run for it; what runs ends in another
message. Of the view the buttons of the format list are modelled: they are all that depends on more than one field.
-/

namespace XVideoDownloader

/-- The text without white space around it, where it is a link that yt-dlp can be asked about. -/
def validateUrl (url : String) : Except String String :=
  let url := Text.trim url
  if url = "" then .error "URL cannot be empty"
  else if !Text.contains url "x.com" && !Text.contains url "twitter.com" then
    .error "Please enter a valid X.com or Twitter.com video link"
  else if !"http://".toList.isPrefixOf url.toList && !"https://".toList.isPrefixOf url.toList then
    .error "URL must start with http:// or https://"
  else .ok url

structure App where
  urlInput : String
  outputDir : String
  cookieFile : String
  videoInfo : Option VideoInfo
  selectedFormat : Option Nat
  isFetching : Bool
  isDownloading : Bool
  downloadProgress : Rat
  statusMessage : String
  errorMessage : Option String
  ytdlp : YtDlp

inductive Message
  | urlChanged (url : String)
  | outputDirChanged (dir : String)
  | cookieChanged (cookie : String)
  | fetchInfo
  | startDownload
  | selectFormat (index : Nat)
  | browseOutputDir
  | browseCookie
  | folderSelected (path : Option String)
  | cookieSelected (path : Option String)
  | clearError
  | saveCookie
  | clearSavedCookie
  | infoFetched (result : Except String VideoInfo)
  | downloadCompleted (result : Except String String)

/-- What is to be run for a message, with the values that it takes along. -/
inductive Command
  | none
  | pickFolder (currentDir : String)
  | pickFile
  /-- `get_video_info`, for `Message.infoFetched`. -/
  | getVideoInfo (ytdlp : YtDlp) (url : String)
  /-- A download, for `Message.downloadCompleted`. -/
  | download (url formatId outputDir title : String)

/-- What the file system has to say. -/
structure GuiWorld where
  canonicalize : String → Option String
  saveConfig : String → String → Except String Unit

/-- The format that yt-dlp is asked for. -/
def finalFormat (url formatId : String) : String :=
  let isDirectUrl := Text.contains url "video.twimg.com"
  if Text.contains formatId "+" || formatId = "best" || isDirectUrl then
    if isDirectUrl then "best" else formatId
  else formatId ++ "+bestaudio"

/-- The arguments with which a download runs yt-dlp. -/
def downloadArgs [UnicodeDeps] (executable : String) (world : YtDlpWorld) (url formatId outputDir title : String) :
    List String :=
  (YtDlp.new executable).buildDownloadArgs world url (joinPath outputDir (sanitizeFilename title ++ ".%(ext)s"))
    (some (finalFormat url formatId)) false false

namespace App

def new (executable savedCookie savedOutput defaultOutput : String) : App where
  urlInput := ""
  outputDir := if savedOutput = "" then defaultOutput else savedOutput
  cookieFile := savedCookie
  videoInfo := none
  selectedFormat := none
  isFetching := false
  isDownloading := false
  downloadProgress := 0
  statusMessage := "Enter video URL"
  errorMessage := none
  ytdlp := .new executable

def fetchInfo (w : GuiWorld) (app : App) : App × Command :=
  match validateUrl app.urlInput with
  | .ok _ =>
    let ytdlp :=
      if app.cookieFile = "" then app.ytdlp
      else (w.canonicalize app.cookieFile).elim app.ytdlp app.ytdlp.withCookieFile
    ({ app with
        isFetching := true, statusMessage := "Fetching video info...", errorMessage := none, videoInfo := none },
      .getVideoInfo ytdlp app.urlInput)
  | .error e => ({ app with errorMessage := some e }, .none)

def infoFetched (app : App) : Except String VideoInfo → App
  | .ok info =>
    { app with
      isFetching := false
      videoInfo := some info
      selectedFormat := if info.formats = [] then none else some 0
      statusMessage := "Fetched: " ++ info.title }
  | .error e =>
    { app with isFetching := false, errorMessage := some e, statusMessage := "Failed to fetch video info" }

/-- The format id at the selected place of the whole list. -/
def formatId (app : App) (info : VideoInfo) : String :=
  match info.formats[app.selectedFormat.getD 0]? with
  | some format => format.formatId
  | none => "best"

def startDownload (app : App) : App × Command :=
  match validateUrl app.urlInput with
  | .error _ => ({ app with errorMessage := some "Please enter a valid URL" }, .none)
  | .ok _ =>
    match app.videoInfo with
    | some info =>
      ({ app with
          isDownloading := true, downloadProgress := 0, statusMessage := "Connecting to server...",
          errorMessage := none },
        .download app.urlInput (app.formatId info) app.outputDir info.title)
    | none => ({ app with errorMessage := some "Please get video info first" }, .none)

def downloadCompleted (app : App) : Except String String → App
  | .ok msg => { app with isDownloading := false, statusMessage := msg, downloadProgress := 1 }
  | .error e => { app with isDownloading := false, errorMessage := some e, statusMessage := "Download failed" }

def update (w : GuiWorld) (app : App) : Message → App × Command
  | .urlChanged url => ({ app with urlInput := url }, .none)
  | .outputDirChanged dir => ({ app with outputDir := dir }, .none)
  | .cookieChanged cookie => ({ app with cookieFile := cookie }, .none)
  | .browseOutputDir => (app, .pickFolder app.outputDir)
  | .browseCookie => (app, .pickFile)
  | .cookieSelected path => ({ app with cookieFile := path.getD app.cookieFile }, .none)
  | .folderSelected path => ({ app with outputDir := path.getD app.outputDir }, .none)
  | .fetchInfo => app.fetchInfo w
  | .infoFetched result => (app.infoFetched result, .none)
  | .selectFormat index => ({ app with selectedFormat := some index }, .none)
  | .startDownload => app.startDownload
  | .downloadCompleted result => (app.downloadCompleted result, .none)
  | .clearError => ({ app with errorMessage := none }, .none)
  | .saveCookie =>
    match w.saveConfig app.cookieFile app.outputDir with
    | .ok () => ({ app with statusMessage := "Cookie saved successfully!" }, .none)
    | .error e => ({ app with errorMessage := some ("Failed to save: " ++ e) }, .none)
  | .clearSavedCookie =>
    match w.saveConfig "" app.outputDir with
    | .ok () => ({ app with cookieFile := "", statusMessage := "Cookie cleared!" }, .none)
    | .error e => ({ app with cookieFile := "", errorMessage := some ("Failed to clear: " ++ e) }, .none)

theorem startDownload_command (w : GuiWorld) {app : App} {url : String} {info : VideoInfo}
    (hurl : validateUrl app.urlInput = .ok url) (hinfo : app.videoInfo = some info) :
    (app.update w .startDownload).2 = .download app.urlInput (app.formatId info) app.outputDir info.title := by
  simp only [update, startDownload, hurl, hinfo]

end App

/-! ### The format list -/

namespace VideoInfo

/-- The order of the list: the largest first. -/
def notSmaller (a b : VideoFormat) : Bool := b.filesize.getD 0 ≤ a.filesize.getD 0

/-- The formats that get a button: the first eight with a picture and a known type. -/
def candidates (info : VideoInfo) : List VideoFormat :=
  (info.formats.filter fun f => !f.audioOnly && f.ext ≠ "unknown").take 8

/-- A button of the list: the format that it shows, and what is sent when it is pressed. -/
structure FormatButton where
  format : VideoFormat
  onPress : Message

def formatButtons (info : VideoInfo) : List FormatButton :=
  (info.candidates.mergeSort notSmaller).zipIdx.map fun x => ⟨x.1, .selectFormat x.2⟩

end VideoInfo

end XVideoDownloader
