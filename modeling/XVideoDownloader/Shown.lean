import XVideoDownloader.Gui
import Mathlib.Data.List.Induction
import Mathlib.Data.List.InsertIdx

/-!
# The shown video and the downloaded one

A download takes its URL from the input field and everything else from the video that is shown. Pressing the button
for a new video takes the old one away, but typing does not, and the answer to a press is shown whatever has been typed
since. So the two are the same exactly as long as, at every download, the field holds the text that it held at the press
whose answer is shown (`shown_downloaded_iff`).
-/

namespace XVideoDownloader

/-- A message that is not the answer to a press of the info button. -/
abbrev UserMessage := { m : Message // ∀ result, m ≠ .infoFetched result }

/-- The window, and the queries that are running: with which yt-dlp and for which URL. -/
structure GuiState where
  app : App
  running : List (YtDlp × String)

inductive GuiEvent
  | message (m : UserMessage)
  /-- The `k`-th running query ends. -/
  | fetched (k : Nat) (world : YtDlpWorld) (answer : Except String VideoJson)

def GuiEvent.startDownload : GuiEvent := .message ⟨.startDownload, by simp⟩

namespace GuiState

def step (w : GuiWorld) (s : GuiState) : GuiEvent → GuiState
  | .message m =>
    match s.app.update w m.1 with
    | (app, .getVideoInfo ytdlp url) => ⟨app, s.running ++ [(ytdlp, url)]⟩
    | (app, _) => ⟨app, s.running⟩
  | .fetched k world answer =>
    match s.running[k]? with
    | some (ytdlp, url) =>
      ⟨(s.app.update w (.infoFetched (ytdlp.getVideoInfo world (fun _ => answer) url))).1, s.running.eraseIdx k⟩
    | none => s

def after (w : GuiWorld) (s : GuiState) (xs : List GuiEvent) : GuiState := xs.foldl (step w) s

def start (executable savedCookie savedOutput defaultOutput : String) : GuiState :=
  ⟨.new executable savedCookie savedOutput defaultOutput, []⟩

end GuiState

/-! ### What was in the field -/

/-- What has been typed last, and what was in the field at the presses whose queries are running and at the press whose
answer is shown. -/
structure TypedLog where
  typed : String
  running : List String
  shown : Option String

namespace TypedLog

def step (log : TypedLog) : GuiEvent → TypedLog
  | .message ⟨.urlChanged url, _⟩ => { log with typed := url }
  | .message ⟨.fetchInfo, _⟩ =>
    match validateUrl log.typed with
    | .ok _ => { log with running := log.running ++ [log.typed], shown := none }
    | .error _ => log
  | .message _ => log
  | .fetched k _ answer =>
    match log.running[k]? with
    | some url =>
      { log with
        running := log.running.eraseIdx k
        shown := match answer with
          | .ok _ => some url
          | .error _ => log.shown }
    | none => log

def after (log : TypedLog) (xs : List GuiEvent) : TypedLog := xs.foldl step log

def start : TypedLog := ⟨"", [], none⟩

end TypedLog

/-- The log tells what the window has. -/
structure GuiState.Logged (s : GuiState) (log : TypedLog) : Prop where
  typed : s.app.urlInput = log.typed
  running : s.running.map (·.2) = log.running
  shown : s.app.videoInfo.map (·.url) = log.shown

variable {w : GuiWorld} {s : GuiState} {log : TypedLog} {x : GuiEvent}

namespace GuiState

/-- A message that neither types nor asks for a video leaves what the log is about. -/
theorem Logged.of_update (h : s.Logged log) {app : App} (hurl : app.urlInput = s.app.urlInput)
    (hinfo : app.videoInfo = s.app.videoInfo) : Logged ⟨app, s.running⟩ log :=
  ⟨hurl.trans h.typed, h.running, hinfo ▸ h.shown⟩

theorem Logged.fetchInfo (h : s.Logged log) (hm : ∀ result, Message.fetchInfo ≠ .infoFetched result) :
    (s.step w (.message ⟨.fetchInfo, hm⟩)).Logged (log.step (.message ⟨.fetchInfo, hm⟩)) := by
  cases hv : validateUrl s.app.urlInput with
  | error e =>
    simp only [step, App.update, App.fetchInfo, TypedLog.step, hv, h.typed ▸ hv]
    exact h.of_update rfl rfl
  | ok url =>
    simp only [step, App.update, App.fetchInfo, TypedLog.step, hv, h.typed ▸ hv]
    refine ⟨h.typed, ?_, rfl⟩
    rw [List.map_append, h.running, h.typed]
    rfl

theorem Logged.fetched (h : s.Logged log) (k : Nat) (world : YtDlpWorld) (answer : Except String VideoJson) :
    (s.step w (.fetched k world answer)).Logged (log.step (.fetched k world answer)) := by
  have hk : log.running[k]? = (s.running[k]?).map (·.2) := by rw [← h.running, List.getElem?_map]
  rcases hr : s.running[k]? with _ | ⟨ytdlp, url⟩
  · rw [hr] at hk
    simp only [step, TypedLog.step, hr, hk, Option.map_none]
    exact h
  · rw [hr] at hk
    simp only [step, TypedLog.step, hr, hk, Option.map_some, App.update]
    have hrunning : (s.running.eraseIdx k).map (·.2) = log.running.eraseIdx k := by
      rw [← h.running, List.eraseIdx_map]
    rcases answer with e | json
    · exact ⟨h.typed, hrunning, h.shown⟩
    · have hget : ytdlp.getVideoInfo world (fun _ => .ok json) url = .ok (YtDlp.videoInfo world.now url json) := rfl
      rw [hget]
      exact ⟨h.typed, hrunning, congrArg some (ytdlp.url_of_getVideoInfo world hget)⟩

theorem Logged.step (h : s.Logged log) (x : GuiEvent) : (s.step w x).Logged (log.step x) := by
  rcases x with ⟨m, hm⟩ | ⟨k, world, answer⟩
  · cases m with
    | urlChanged url => exact ⟨rfl, h.running, h.shown⟩
    | fetchInfo => exact h.fetchInfo hm
    | infoFetched result => exact absurd rfl (hm result)
    | startDownload =>
      simp only [GuiState.step, App.update, App.startDownload]
      cases validateUrl s.app.urlInput with
      | error e => exact h.of_update rfl rfl
      | ok url => cases hinfo : s.app.videoInfo <;> exact h.of_update rfl hinfo.symm
    | downloadCompleted result => cases result <;> exact h.of_update rfl rfl
    | saveCookie =>
      simp only [GuiState.step, App.update]
      cases w.saveConfig s.app.cookieFile s.app.outputDir <;> exact h.of_update rfl rfl
    | clearSavedCookie =>
      simp only [GuiState.step, App.update]
      cases w.saveConfig "" s.app.outputDir <;> exact h.of_update rfl rfl
    | _ => exact h.of_update rfl rfl
  · exact h.fetched k world answer

theorem after_concat (w : GuiWorld) (s : GuiState) (xs : List GuiEvent) (x : GuiEvent) :
    s.after w (xs ++ [x]) = (s.after w xs).step w x := by
  rw [after, List.foldl_append]
  rfl

theorem Logged.after (h : s.Logged log) (xs : List GuiEvent) : (s.after w xs).Logged (log.after xs) := by
  induction xs using List.reverseRecOn with
  | nil => exact h
  | append_singleton xs x ih =>
    have hlog : log.after (xs ++ [x]) = (log.after xs).step x := by
      rw [TypedLog.after, List.foldl_append]
      rfl
    rw [after_concat, hlog]
    exact ih.step x

theorem logged_start (executable savedCookie savedOutput defaultOutput : String) :
    (start executable savedCookie savedOutput defaultOutput).Logged .start := ⟨rfl, rfl, rfl⟩

end GuiState

/-- When a download starts, its URL is that of the shown video. -/
def App.DownloadsShown (w : GuiWorld) (app : App) : Prop :=
  ∀ url formatId outputDir title, (app.update w .startDownload).2 = .download url formatId outputDir title →
    ∃ info, app.videoInfo = some info ∧ Text.trim url = Text.trim info.url

theorem App.downloadsShown_iff (w : GuiWorld) (app : App) :
    app.DownloadsShown w ↔ ∀ url info, validateUrl app.urlInput = .ok url → app.videoInfo = some info →
      Text.trim app.urlInput = Text.trim info.url := by
  constructor
  · intro h url info hv hinfo
    obtain ⟨info', hinfo', htrim⟩ := h _ _ _ _ (startDownload_command w hv hinfo)
    cases hinfo.symm.trans hinfo'
    exact htrim
  · intro h url formatId outputDir title hcommand
    cases hv : validateUrl app.urlInput with
    | error e => simp [update, startDownload, hv] at hcommand
    | ok url' =>
      cases hinfo : app.videoInfo with
      | none => simp [update, startDownload, hv, hinfo] at hcommand
      | some info =>
        rw [startDownload_command w hv hinfo, Command.download.injEq] at hcommand
        exact ⟨info, rfl, hcommand.1 ▸ h url' info hv hinfo⟩

/-- Every download is of the shown video exactly when, at each, the field holds a link that is, up to white space around
it, the text that it held at the press whose answer is shown. -/
theorem shown_downloaded_iff (w : GuiWorld) (executable savedCookie savedOutput defaultOutput : String)
    (xs : List GuiEvent) :
    (∀ before after, xs = before ++ .startDownload :: after →
        ((GuiState.start executable savedCookie savedOutput defaultOutput).after w before).app.DownloadsShown w) ↔
      ∀ before after, xs = before ++ .startDownload :: after → ∀ url shown,
        validateUrl (TypedLog.start.after before).typed = .ok url → (TypedLog.start.after before).shown = some shown →
          Text.trim (TypedLog.start.after before).typed = Text.trim shown := by
  refine forall_congr' fun before => forall_congr' fun after => imp_congr_right fun _ => ?_
  obtain ⟨htyped, -, hshown⟩ :=
    (GuiState.logged_start executable savedCookie savedOutput defaultOutput).after (w := w) before
  rw [App.downloadsShown_iff, htyped, ← hshown]
  constructor
  · intro h url shown hv hs
    obtain ⟨info, hinfo, rfl⟩ := Option.map_eq_some_iff.1 hs
    exact h url info hv hinfo
  · intro h url info hv hinfo
    exact h url info.url hv (by rw [hinfo]; rfl)

namespace Sample

def typeUrl (url : String) : GuiEvent := .message ⟨.urlChanged url, by simp⟩

def pressInfo : GuiEvent := .message ⟨.fetchInfo, by simp⟩

def answered : GuiEvent :=
  .fetched 0 ⟨fun _ => false, "Mozilla/5.0", "1970-01-01T00:00:00+00:00"⟩ (.ok ⟨some "a", none, none, none, none, none⟩)

/-- After the answer for one video has come, the link of another is typed and the download button pressed. -/
def retyped : List GuiEvent :=
  [typeUrl "https://x.com/a", pressInfo, answered, typeUrl "https://x.com/b", .startDownload]

/-- The window when the download button is pressed. -/
def retypedApp : App :=
  ((GuiState.start "yt-dlp" "" "" "/videos").after ⟨fun _ => none, fun _ _ => .ok ()⟩ (retyped.take 4)).app

theorem not_shown_downloaded_retyped :
    retyped = retyped.take 4 ++ .startDownload :: [] ∧
      retypedApp.videoInfo = some (.new "1970-01-01T00:00:00+00:00" "a" "https://x.com/a") ∧
      (retypedApp.update ⟨fun _ => none, fun _ _ => .ok ()⟩ .startDownload).2 =
        .download "https://x.com/b" "best" "/videos" "a" ∧
      Text.trim "https://x.com/b" ≠ Text.trim "https://x.com/a" := by
  have hinfo : retypedApp.videoInfo = some (.new "1970-01-01T00:00:00+00:00" "a" "https://x.com/a") := by
    decide +kernel
  have hfield : retypedApp.urlInput = "https://x.com/b" ∧
      retypedApp.formatId (.new "1970-01-01T00:00:00+00:00" "a" "https://x.com/a") = "best" ∧
      retypedApp.outputDir = "/videos" := by
    decide +kernel
  have hurl : validateUrl retypedApp.urlInput = .ok "https://x.com/b" := by decide +kernel
  refine ⟨rfl, hinfo, ?_, by decide +kernel⟩
  rw [App.startDownload_command _ hurl hinfo, hfield.1, hfield.2.1, hfield.2.2]
  rfl

end Sample

end XVideoDownloader
