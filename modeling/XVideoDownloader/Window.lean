import XVideoDownloader.Lib.Slices
import XVideoDownloader.Shown

/-!
# What runs for the window

The window shows that it waits for a video or for a download; what it waits for runs beside it and ends at any time, or
never: what has panicked runs on here, for it sends no message. `run_sound` says what holds whatever is typed and pressed
meanwhile and in whatever order the commands end: the window waits only where something runs for it, yt-dlp is asked
about links only, and a download has its title and its format from one video that yt-dlp has told of in this run, or
takes the best format. As nothing tells of the progress of a download, the window shows 0% until it ends. Without its
dialogs and its downloads, of which only the messages that they end in are kept, a run is one of `GuiState`, and what is
known there of the field, the queries and the shown video holds here (`run_logged`).
-/

namespace XVideoDownloader
open Lib

/-- What a program has printed, and whether it has ended well. -/
structure Output where
  success : Bool
  stdout : String
  stderr : String

/-- What a download ends in: yt-dlp could not be run, or has printed this. -/
def downloadResult (title : String) : Except String Output → Except String String
  | .error e => .error ("Failed to run yt-dlp: " ++ e)
  | .ok output =>
    if output.success then .ok ("Download completed: " ++ title)
    else if output.stderr ≠ "" then .error output.stderr
    else if output.stdout ≠ "" then .error output.stdout
    else .error "Unknown error"

/-- What the outside has to say when a command ends. -/
inductive Ending
  | picked (path : Option String)
  | fetched (world : YtDlpWorld) (answer : Except String VideoJson)
  | downloaded (output : Except String Output)

/-- The text beside the download button. -/
def App.statusText (app : App) : String :=
  -- the cast to an integer drops what is behind the point
  if app.isDownloading then toString ((app.downloadProgress * 100).num.tdiv (app.downloadProgress * 100).den) ++ "%"
  else app.statusMessage

namespace Command

/-- The message that a command ends in. -/
def endsIn : Command → Ending → Option Message
  | pickFolder _, .picked path => some (.folderSelected path)
  | pickFile, .picked path => some (.cookieSelected path)
  | getVideoInfo ytdlp url, .fetched world answer =>
    some (.infoFetched (ytdlp.getVideoInfo world (fun _ => answer) url))
  | download _ _ _ title, .downloaded output => some (.downloadCompleted (downloadResult title output))
  | _, _ => Option.none

/-- What is to be run: `Command.none` is nothing. -/
def toList : Command → List Command
  | none => []
  | c => [c]

def isQuery : Command → Bool
  | getVideoInfo .. => true
  | _ => false

def isDownload : Command → Bool
  | download .. => true
  | _ => false

/-- A command as it may run once yt-dlp has told of these videos. -/
def Sound (infos : List VideoInfo) : Command → Prop
  | getVideoInfo _ url => ∃ link, validateUrl url = .ok link
  | download url formatId _ title =>
    (∃ link, validateUrl url = .ok link) ∧
      ∃ info ∈ infos, title = info.title ∧ (formatId = "best" ∨ ∃ f ∈ info.formats, f.formatId = formatId)
  | _ => True

end Command

namespace Message

/-- What the user can send: in the other messages a command ends. -/
def byUser : Message → Bool
  | folderSelected _ | cookieSelected _ | infoFetched _ | downloadCompleted _ => false
  | _ => true

/-- The video that a message tells of. -/
def told : Message → List VideoInfo
  | infoFetched (.ok info) => [info]
  | _ => []

end Message

/-- The window, and what it has started and has not ended. -/
structure Window where
  app : App
  running : List Command

namespace Window

inductive Event
  | message (w : GuiWorld) (m : { m : Message // m.byUser })
  /-- The `k`-th running command ends. -/
  | ended (w : GuiWorld) (k : Nat) (ending : Ending)

/-- The message in which the `k`-th running command ends. -/
def ends (s : Window) (k : Nat) (ending : Ending) : Option Message := s.running[k]?.bind (·.endsIn ending)

def step (s : Window) : Event → Window
  | .message w m => ⟨(s.app.update w m.1).1, s.running ++ (s.app.update w m.1).2.toList⟩
  | .ended w k ending => (s.ends k ending).elim s fun m => ⟨(s.app.update w m).1, s.running.eraseIdx k⟩

def after (s : Window) (xs : List Event) : Window := xs.foldl step s

def start (executable savedCookie savedOutput defaultOutput : String) : Window :=
  ⟨.new executable savedCookie savedOutput defaultOutput, []⟩

/-- The video that an event tells of. -/
def told (s : Window) : Event → List VideoInfo
  | .message .. => []
  | .ended _ k ending => (s.ends k ending).elim [] Message.told

/-- The videos that a run tells of. -/
def toldIn (s : Window) : List Event → List VideoInfo
  | [] => []
  | x :: xs => s.told x ++ (s.step x).toldIn xs

/-- The window as it is once yt-dlp has told of these videos. -/
structure Sound (s : Window) (infos : List VideoInfo) : Prop where
  fetching : s.app.isFetching → s.running.any Command.isQuery
  downloading : s.app.isDownloading → s.running.any Command.isDownload
  progress : s.app.isDownloading → s.app.downloadProgress = 0
  shown : ∀ info, s.app.videoInfo = some info → info ∈ infos
  links : ∀ info ∈ infos, ∃ link, validateUrl info.url = .ok link
  running : ∀ c ∈ s.running, c.Sound infos

end Window

variable {s : Window} {infos : List VideoInfo} {w : GuiWorld}

namespace Command

variable {c : Command}

theorem Sound.mono {infos' : List VideoInfo} (hsub : infos ⊆ infos') (h : c.Sound infos) : c.Sound infos' := by
  cases c with
  | download url formatId outputDir title =>
    obtain ⟨hurl, info, hinfo, hrest⟩ := h
    exact ⟨hurl, info, hsub hinfo, hrest⟩
  | _ => exact h

theorem eq_of_mem_toList {c' : Command} (h : c' ∈ c.toList) : c' = c := by
  cases c <;> simp_all [toList]

theorem any_isQuery_toList : c.toList.any isQuery = c.isQuery := by
  cases c <;> rfl

theorem any_isDownload_toList : c.toList.any isDownload = c.isDownload := by
  cases c <;> rfl

end Command

/-- The format of a download is one of the video, or the best. -/
theorem App.formatId_cases (app : App) (info : VideoInfo) :
    app.formatId info = "best" ∨ ∃ f ∈ info.formats, f.formatId = app.formatId info := by
  unfold formatId
  rcases hf : info.formats[app.selectedFormat.getD 0]? with _ | f
  · exact .inl rfl
  · exact .inr ⟨f, List.mem_of_getElem? hf, rfl⟩

namespace Window

/-- What a message of the user has to keep. -/
theorem Sound.started (h : s.Sound infos) {app : App} {c : Command}
    (hfetching : app.isFetching → s.app.isFetching ∨ c.isQuery)
    (hdownloading : app.isDownloading → s.app.isDownloading ∨ c.isDownload)
    (hprogress : app.isDownloading → app.downloadProgress = 0)
    (hshown : ∀ info, app.videoInfo = some info → s.app.videoInfo = some info) (hc : c.Sound infos) :
    Sound ⟨app, s.running ++ c.toList⟩ infos where
  fetching hf := by
    rw [List.any_append, Command.any_isQuery_toList, Bool.or_eq_true]
    exact (hfetching hf).imp_left h.fetching
  downloading hd := by
    rw [List.any_append, Command.any_isDownload_toList, Bool.or_eq_true]
    exact (hdownloading hd).imp_left h.downloading
  progress := hprogress
  shown info hi := h.shown info (hshown info hi)
  links := h.links
  running c' hc' := by
    rcases List.mem_append.1 hc' with hold | hnew
    · exact h.running c' hold
    · exact Command.eq_of_mem_toList hnew ▸ hc

/-- Most messages keep what the window waits for and what it shows. -/
theorem Sound.quiet (h : s.Sound infos) {app : App} {c : Command} (hfetching : app.isFetching = s.app.isFetching)
    (hdownloading : app.isDownloading = s.app.isDownloading)
    (hprogress : app.downloadProgress = s.app.downloadProgress) (hshown : app.videoInfo = s.app.videoInfo)
    (hc : c.Sound infos) : Sound ⟨app, s.running ++ c.toList⟩ infos := by
  refine h.started ?_ ?_ ?_ ?_ hc
  · exact fun hf => .inl (hfetching ▸ hf)
  · exact fun hd => .inl (hdownloading ▸ hd)
  · exact fun hd => hprogress.trans (h.progress (hdownloading ▸ hd))
  · exact fun _ hi => hshown.symm.trans hi

/-- What the message in which a command ends has to keep. -/
theorem Sound.ended (h : s.Sound infos) {app : App} {c : Command} {k : Nat} {new : List VideoInfo}
    (hk : s.running[k]? = some c)
    (hfetching : app.isFetching → s.app.isFetching ∧ c.isQuery = false)
    (hdownloading : app.isDownloading → s.app.isDownloading ∧ c.isDownload = false)
    (hprogress : app.downloadProgress = s.app.downloadProgress ∨ app.isDownloading = false)
    (hshown : ∀ info, app.videoInfo = some info → s.app.videoInfo = some info ∨ info ∈ new)
    (hlinks : ∀ info ∈ new, ∃ link, validateUrl info.url = .ok link) :
    Sound ⟨app, s.running.eraseIdx k⟩ (infos ++ new) where
  fetching hf := any_eraseIdx_of_not hk (hfetching hf).2 (h.fetching (hfetching hf).1)
  downloading hd := any_eraseIdx_of_not hk (hdownloading hd).2 (h.downloading (hdownloading hd).1)
  progress hd := by
    rcases hprogress with hp | hp
    · exact hp.trans (h.progress (hdownloading hd).1)
    · exact Bool.noConfusion (hp.symm.trans hd)
  shown info hi := List.mem_append.2 ((hshown info hi).imp_left (h.shown info))
  links info hi := (List.mem_append.1 hi).elim (h.links info) (hlinks info)
  running c' hc' := (h.running c' (List.mem_of_mem_eraseIdx hc')).mono (List.subset_append_left _ _)

theorem Sound.message (h : s.Sound infos) (w : GuiWorld) (m : { m : Message // m.byUser }) :
    (s.step (.message w m)).Sound infos := by
  obtain ⟨m, hm⟩ := m
  cases m with
  | folderSelected | cookieSelected | infoFetched | downloadCompleted => exact absurd hm (by simp [Message.byUser])
  | fetchInfo =>
    simp only [step, App.update, App.fetchInfo]
    rcases hv : validateUrl s.app.urlInput with e | link
    · exact h.quiet rfl rfl rfl rfl trivial
    · refine h.started (fun _ => .inr rfl) .inl h.progress ?_ ⟨link, hv⟩
      intro info hi
      cases hi
  | startDownload =>
    simp only [step, App.update, App.startDownload]
    rcases hv : validateUrl s.app.urlInput with e | link
    · exact h.quiet rfl rfl rfl rfl trivial
    · rcases hi : s.app.videoInfo with _ | info
      · exact h.quiet rfl rfl rfl hi.symm trivial
      · refine h.started .inl (fun _ => .inr rfl) (fun _ => rfl) (fun _ => hi.trans) ⟨⟨link, hv⟩, ?_⟩
        exact ⟨info, h.shown info hi, rfl, s.app.formatId_cases info⟩
  | saveCookie =>
    simp only [step, App.update]
    cases w.saveConfig s.app.cookieFile s.app.outputDir <;> exact h.quiet rfl rfl rfl rfl trivial
  | clearSavedCookie =>
    simp only [step, App.update]
    cases w.saveConfig "" s.app.outputDir <;> exact h.quiet rfl rfl rfl rfl trivial
  | _ => exact h.quiet rfl rfl rfl rfl trivial

theorem Sound.ending (h : s.Sound infos) (w : GuiWorld) (k : Nat) (ending : Ending) :
    (s.step (.ended w k ending)).Sound (infos ++ s.told (.ended w k ending)) := by
  simp only [step, told]
  rcases hends : s.ends k ending with _ | m
  · rw [Option.elim_none, Option.elim_none, List.append_nil]
    exact h
  · obtain ⟨c, hk, hm⟩ := Option.bind_eq_some_iff.1 hends
    rw [Option.elim_some, Option.elim_some]
    unfold Command.endsIn at hm
    split at hm
    -- the two dialogs
    · obtain rfl := Option.some.inj hm
      exact h.ended hk (fun hf => ⟨hf, rfl⟩) (fun hd => ⟨hd, rfl⟩) (.inl rfl) (fun _ => .inl) (List.forall_mem_nil _)
    · obtain rfl := Option.some.inj hm
      exact h.ended hk (fun hf => ⟨hf, rfl⟩) (fun hd => ⟨hd, rfl⟩) (.inl rfl) (fun _ => .inl) (List.forall_mem_nil _)
    -- a query: it was started with a link, and the video that it tells of has this link
    · rename_i ytdlp url world answer
      obtain rfl := Option.some.inj hm
      rcases hget : ytdlp.getVideoInfo world (fun _ => answer) url with e | info
      · exact h.ended hk (fun hf => absurd hf Bool.false_ne_true) (fun hd => ⟨hd, rfl⟩) (.inl rfl) (fun _ => .inl)
          (List.forall_mem_nil _)
      · refine h.ended hk (fun hf => absurd hf Bool.false_ne_true) (fun hd => ⟨hd, rfl⟩) (.inl rfl) ?_ ?_
        · intro info' hi
          exact .inr (List.mem_singleton.2 (Option.some.inj hi).symm)
        · intro info' hi
          rw [List.mem_singleton.1 hi, ytdlp.url_of_getVideoInfo world hget]
          exact h.running _ (List.mem_of_getElem? hk)
    · rename_i title output
      obtain rfl := Option.some.inj hm
      rcases hres : downloadResult title output with e | text <;>
        exact h.ended hk (fun hf => ⟨hf, rfl⟩) (fun hd => absurd hd Bool.false_ne_true) (.inr rfl) (fun _ => .inl)
          (List.forall_mem_nil _)
    · cases hm

theorem Sound.step (h : s.Sound infos) (x : Event) : (s.step x).Sound (infos ++ s.told x) := by
  cases x with
  | message w m =>
    rw [told, List.append_nil]
    exact h.message w m
  | ended w k ending => exact h.ending w k ending

theorem Sound.after (h : s.Sound infos) (xs : List Event) : (s.after xs).Sound (infos ++ s.toldIn xs) := by
  induction xs generalizing s infos with
  | nil =>
    rw [toldIn, List.append_nil]
    exact h
  | cons x xs ih =>
    rw [toldIn, ← List.append_assoc]
    exact ih (h.step x)

theorem sound_start (executable savedCookie savedOutput defaultOutput : String) :
    (start executable savedCookie savedOutput defaultOutput).Sound [] where
  fetching hf := absurd hf Bool.false_ne_true
  downloading hd := absurd hd Bool.false_ne_true
  progress _ := rfl
  shown _ hi := by cases hi
  links := List.forall_mem_nil _
  running := List.forall_mem_nil _

theorem Sound.statusText (h : s.Sound infos) (hdownloading : s.app.isDownloading) : s.app.statusText = "0%" := by
  rw [App.statusText, if_pos hdownloading, h.progress hdownloading, Rat.zero_mul]
  rfl

/-- In every run the window waits only where something runs for it, and what runs is about links and about videos that
yt-dlp has told of since the window was opened. A download shows no progress before its end. -/
theorem run_sound (executable savedCookie savedOutput defaultOutput : String) (xs : List Event) :
    let s := (start executable savedCookie savedOutput defaultOutput).after xs
    s.Sound ((start executable savedCookie savedOutput defaultOutput).toldIn xs) ∧
      (s.app.isDownloading → s.app.statusText = "0%") := by
  have hsound := (sound_start executable savedCookie savedOutput defaultOutput).after xs
  rw [List.nil_append] at hsound
  exact ⟨hsound, hsound.statusText⟩

end Window

/-! ### The queries alone -/

namespace Command

/-- What `GuiState` has of a command. -/
def query? : Command → Option (YtDlp × String)
  | getVideoInfo ytdlp url => some (ytdlp, url)
  | _ => Option.none

/-- What `GuiState` sees of the end of a command; `before` are the queries before it. -/
def seen (before : Nat) : Command → Ending → Option GuiEvent
  | pickFolder _, .picked path => some (.message ⟨.folderSelected path, by simp⟩)
  | pickFile, .picked path => some (.message ⟨.cookieSelected path, by simp⟩)
  | getVideoInfo .., .fetched world answer => some (.fetched before world answer)
  | download _ _ _ title, .downloaded output =>
    some (.message ⟨.downloadCompleted (downloadResult title output), by simp⟩)
  | _, _ => Option.none

end Command

theorem Message.ne_infoFetched_of_byUser {m : Message} (h : m.byUser) (result : Except String VideoInfo) :
    m ≠ .infoFetched result := by
  rintro rfl
  exact Bool.noConfusion h

namespace Window

/-- The window with its queries. -/
def queries (s : Window) : GuiState := ⟨s.app, s.running.filterMap Command.query?⟩

/-- What `GuiState` sees of an event. -/
def seen (s : Window) : Event → List (GuiWorld × GuiEvent)
  | .message w m => [(w, .message ⟨m.1, Message.ne_infoFetched_of_byUser m.2⟩)]
  | .ended w k ending =>
    let before := ((s.running.take k).filterMap Command.query?).length
    ((s.running[k]?.bind (·.seen before ending)).map (w, ·)).toList

def seenIn (s : Window) : List Event → List (GuiWorld × GuiEvent)
  | [] => []
  | x :: xs => s.seen x ++ (s.step x).seenIn xs

theorem queries_message (s : Window) (w : GuiWorld) (m : { m : Message // m.byUser }) :
    (s.step (.message w m)).queries =
      s.queries.step w (.message ⟨m.1, Message.ne_infoFetched_of_byUser m.2⟩) := by
  simp only [step, queries, GuiState.step, List.filterMap_append]
  generalize s.app.update w m.1 = r
  rcases r with ⟨app, c⟩
  cases c with
  | getVideoInfo ytdlp url => rfl
  | _ => exact congrArg _ (List.append_nil _)

/-- The end of a dialog or of a download is a message to `GuiState`. -/
theorem queries_ended {c : Command} {k : Nat} (hk : s.running[k]? = some c) (hc : c.query? = none) (w : GuiWorld)
    (m : UserMessage) (hm : (s.app.update w m.1).2 = .none) :
    queries ⟨(s.app.update w m.1).1, s.running.eraseIdx k⟩ = s.queries.step w (.message m) := by
  simp only [queries, GuiState.step, filterMap_eraseIdx_of_none hk hc]
  generalize s.app.update w m.1 = r at hm
  rcases r with ⟨app, c'⟩
  cases hm
  rfl

theorem queries_fetched {ytdlp : YtDlp} {url : String} {k : Nat} (hk : s.running[k]? = some (.getVideoInfo ytdlp url))
    (w : GuiWorld) (world : YtDlpWorld) (answer : Except String VideoJson) :
    queries ⟨(s.app.update w (.infoFetched (ytdlp.getVideoInfo world (fun _ => answer) url))).1, s.running.eraseIdx k⟩ =
      s.queries.step w (.fetched ((s.running.take k).filterMap Command.query?).length world answer) := by
  have hrunning := getElem?_filterMap_of_some (f := Command.query?) hk rfl
  simp only [queries, GuiState.step, hrunning, filterMap_eraseIdx_of_some (f := Command.query?) hk rfl]

theorem queries_step (s : Window) (x : Event) :
    (s.step x).queries = (s.seen x).foldl (fun s y => s.step y.1 y.2) s.queries := by
  cases x with
  | message w m => exact queries_message s w m
  | ended w k ending =>
    simp only [step, seen, ends]
    rcases hk : s.running[k]? with _ | c
    · rfl
    · rw [Option.bind_some, Option.bind_some]
      cases c with
      | none => rfl
      | pickFolder dir =>
        cases ending with
        | picked path => exact queries_ended hk rfl w ⟨.folderSelected path, by simp⟩ rfl
        | fetched | downloaded => rfl
      | pickFile =>
        cases ending with
        | picked path => exact queries_ended hk rfl w ⟨.cookieSelected path, by simp⟩ rfl
        | fetched | downloaded => rfl
      | getVideoInfo ytdlp url =>
        cases ending with
        | fetched world answer => exact queries_fetched hk w world answer
        | picked | downloaded => rfl
      | download url formatId outputDir title =>
        cases ending with
        | downloaded output =>
          exact queries_ended hk rfl w ⟨.downloadCompleted (downloadResult title output), by simp⟩ rfl
        | picked | fetched => rfl

theorem queries_after (s : Window) (xs : List Event) :
    (s.after xs).queries = (s.seenIn xs).foldl (fun s y => s.step y.1 y.2) s.queries := by
  induction xs generalizing s with
  | nil => rfl
  | cons x xs ih =>
    rw [seenIn, List.foldl_append, ← queries_step]
    exact ih (s.step x)

theorem logged_foldl {s : GuiState} {log : TypedLog} (h : s.Logged log) (ys : List (GuiWorld × GuiEvent)) :
    (ys.foldl (fun s y => s.step y.1 y.2) s).Logged (log.after (ys.map (·.2))) := by
  induction ys generalizing s log with
  | nil => exact h
  | cons y ys ih => exact ih (h.step y.2)

/-- Whatever the dialogs and the downloads do, the window has the queries and the shown video of a run without them:
every query asks for what was in the field at its press, and what is shown is the answer to such a press. -/
theorem run_logged (executable savedCookie savedOutput defaultOutput : String) (xs : List Event) :
    let ys := (start executable savedCookie savedOutput defaultOutput).seenIn xs
    let s := ((start executable savedCookie savedOutput defaultOutput).after xs).queries
    s = ys.foldl (fun s y => s.step y.1 y.2) (.start executable savedCookie savedOutput defaultOutput) ∧
      s.Logged (TypedLog.start.after (ys.map (·.2))) := by
  intro ys s
  have hs : s = ys.foldl (fun s y => s.step y.1 y.2) (.start executable savedCookie savedOutput defaultOutput) :=
    queries_after _ xs
  refine ⟨hs, ?_⟩
  rw [hs]
  exact logged_foldl (GuiState.logged_start executable savedCookie savedOutput defaultOutput) ys

end Window

end XVideoDownloader
