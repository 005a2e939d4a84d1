import XVideoDownloader.Cli
import XVideoDownloader.Lib.Disk
import XVideoDownloader.OnDisk

/-!
# A batch of direct downloads (`main.rs`)

`download_direct` gives every URL of a batch the same file: the one that `--filename` names, or `video.mp4`. So after a
batch in which nothing has failed, the history has an entry for each URL, all with one path, and there is the last video
(`batch_leaves`), unless the path is that of a file of the history, which is saved behind each download.

All of these are files of one disk. Which file a path names is a parameter: two paths may name one file.
-/

namespace XVideoDownloader
open Lib Retry

namespace History
variable {ν : Type} [DecidableEq ν] [Codec (List HistoryEntry)] [Codec (List BookmarkEntry)] {io : Io} {h : History}
  {name : FileName → ν} {disk : Disk ν}

def FileName.text : FileName → String
  | history => "history.json"
  | bookmarks => "bookmarks.json"

/-- `save` on the files that there are. -/
def saveOnDisk (name : FileName → ν) (io : Io) (h : History) (disk : Disk ν) : Except String Unit × Disk ν :=
  match io.createDir with
  | some e => (.error e, disk)
  | none =>
    match Codec.encode h.entries with
    | .error e => (.error e, disk)
    | .ok json =>
      let disk := Function.update disk (name .history) ((io.writeHistory.run json).2.map utf8)
      match (io.writeHistory.run json).1 with
      | .error e => (.error e, disk)
      | .ok () =>
        match Codec.encode h.bookmarks with
        | .error e => (.error e, disk)
        | .ok json =>
          ((io.writeBookmarks.run json).1,
            Function.update disk (name .bookmarks) ((io.writeBookmarks.run json).2.map utf8))

/-- The files make no difference to what a save comes to. -/
theorem saveOnDisk_fst (files : Files) : (h.saveOnDisk name io disk).1 = (h.save io files).1 := by
  unfold saveOnDisk save
  cases io.createDir with
  | some e => rfl
  | none =>
    cases Codec.encode h.entries with
    | error e => rfl
    | ok json =>
      dsimp only
      rcases io.writeHistory.run json with ⟨e | ⟨⟩, file⟩
      · rfl
      · cases Codec.encode h.bookmarks <;> rfl

theorem saveOnDisk_of_ne {p : ν} (hp : ∀ f, p ≠ name f) : (h.saveOnDisk name io disk).2 p = disk p := by
  have hhistory (content : Option Bytes) : Function.update disk (name .history) content p = disk p :=
    Function.update_of_ne (hp .history) _ _
  unfold saveOnDisk
  cases io.createDir with
  | some e => rfl
  | none =>
    cases Codec.encode h.entries with
    | error e => rfl
    | ok json =>
      dsimp only
      cases (io.writeHistory.run json).1 with
      | error e => exact hhistory _
      | ok =>
        cases Codec.encode h.bookmarks with
        | error e => exact hhistory _
        | ok json => exact (Function.update_of_ne (hp .bookmarks) _ _).trans (hhistory _)

/-- What a save that succeeds leaves. -/
theorem saveOnDisk_ok (hname : name .history ≠ name .bookmarks) (hok : (h.saveOnDisk name io disk).1 = .ok ()) :
    (∃ json, Codec.encode h.entries = .ok json ∧ (h.saveOnDisk name io disk).2 (name .history) = some (utf8 json)) ∧
      ∃ json, Codec.encode h.bookmarks = .ok json ∧
        (h.saveOnDisk name io disk).2 (name .bookmarks) = some (utf8 json) := by
  unfold saveOnDisk at hok ⊢
  cases hdir : io.createDir with
  | some e =>
    rw [hdir] at hok
    cases hok
  | none =>
    cases hjson : Codec.encode h.entries with
    | error e =>
      simp only [hdir, hjson] at hok
      cases hok
    | ok json =>
      cases hjson' : Codec.encode h.bookmarks with
      | error e =>
        simp only [hdir, hjson, hjson'] at hok
        split at hok <;> cases hok
      | ok json' =>
        cases hw : io.writeHistory with
        | failed e left =>
          simp only [hdir, hjson, hw, FileWrite.run] at hok
          cases hok
        | done =>
          simp only [hdir, hjson, hjson', hw, FileWrite.run] at hok ⊢
          cases hw' : io.writeBookmarks with
          | failed e left =>
            rw [hw'] at hok
            cases hok
          | done =>
            refine ⟨⟨json, rfl, ?_⟩, json', rfl, Function.update_self ..⟩
            rw [Function.update_of_ne hname, Function.update_self]
            rfl

end History

namespace Cli

/-- The configuration of `download_direct`. -/
def directConfig : Config := ⟨⟨5, 4⟩, 30⟩

variable {ν : Type} [DecidableEq ν] [UnicodeDeps] (cli : Cli) (locate : String → ν) (configDir : String)

def directPath (dir : String) : String := joinPath dir (cli.filename.elim "video.mp4" sanitizeFilename)

/-- A file of the history. -/
def dataFile (f : History.FileName) : ν := locate (joinPath configDir f.text)

/-- `download_direct` on the files that there are. -/
def directOnDisk (w : World) (host : Host) (disk : Disk ν) : Except String DownloadResult × Disk ν :=
  match w.outputDir (if samePath cli.output "." then w.defaultOutputDir else cli.output) with
  | .error e => (.error e, disk)
  | .ok dir =>
    let path := cli.directPath dir
    let r := host.download directConfig path (disk (locate path))
    (r.1.getD (.error "attempt to multiply with overflow"), Function.update disk (locate path) r.2)

variable [Codec (List HistoryEntry)] [Codec (List BookmarkEntry)]

/-- What `run` enters of a direct download. -/
def enterDirect (w : World) (url : String) (result : DownloadResult) (h : History) (disk : Disk ν) :
    Except String Unit × History × Disk ν :=
  if result.success then
    commit (History.Op.addEntry url none (some (utf8 result.outputPath)) (some result.fileSize) none w.id w.now).edit
      (History.saveOnDisk (dataFile locate configDir) w.io) h disk
  else (.ok (), h, disk)

/-- The loop of `run` with `--direct`, on the files that there are. -/
def directLoop (w : Nat → World) (hosts : Nat → Host) :
    List String → Nat → History → Disk ν → Except String Unit × History × Disk ν
  | [], _, h, disk => (.ok (), h, disk)
  | url :: urls, i, h, disk =>
    match cli.directOnDisk locate (w i) (hosts i) disk with
    | (.error e, disk) => (.error e, h, disk)
    | (.ok result, disk) =>
      match enterDirect locate configDir (w i) url result h disk with
      | (.error e, h, disk) => (.error e, h, disk)
      | (.ok (), h, disk) => directLoop w hosts urls (i + 1) h disk

/-! ### What it comes to -/

omit [UnicodeDeps] [Codec (List HistoryEntry)] [Codec (List BookmarkEntry)]

/-- The host is asked for the download. -/
def World.withHost (w : World) (host : Host) : World :=
  { w with
    download := fun _ path _ =>
      (host.download directConfig path none).1.getD (.error "attempt to multiply with overflow") }

/-- The entry of a direct download. -/
def directEntry (w : World) (url path : String) (fileSize : Nat) : HistoryEntry :=
  ⟨w.id, url, none, some (utf8 path), some fileSize, w.now, none⟩

variable [UnicodeDeps] {cli : Cli} {locate : String → ν} {configDir : String} {w : World} {host : Host} {F : Bytes}
  {dir : String}

theorem downloadDirect_withHost (url : String) (disk : Disk ν) :
    cli.downloadDirect (w.withHost host) url = (cli.directOnDisk locate w host disk).1 := by
  unfold downloadDirect directOnDisk
  have hdir : (w.withHost host).outputDir = w.outputDir := rfl
  have hdefault : (w.withHost host).defaultOutputDir = w.defaultOutputDir := rfl
  rw [hdir, hdefault]
  cases w.outputDir (if samePath cli.output "." then w.defaultOutputDir else cli.output) with
  | error e => rfl
  | ok dir =>
    have hfst := Host.download_fst directConfig host (cli.directPath dir)
    simp only [hfst (disk (locate (cli.directPath dir))), ← hfst none]
    rfl

theorem directOnDisk_of_ne
    (hdir : w.outputDir (if samePath cli.output "." then w.defaultOutputDir else cli.output) = .ok dir)
    (host : Host) (disk : Disk ν) {p : ν} (hp : p ≠ locate (cli.directPath dir)) :
    (cli.directOnDisk locate w host disk).2 p = disk p := by
  simp only [directOnDisk, hdir]
  exact Function.update_of_ne hp _ _

theorem directOnDisk_ok
    (hdir : w.outputDir (if samePath cli.output "." then w.defaultOutputDir else cli.output) = .ok dir)
    (hserves : host.Serves F) (hcuts : Host.Cuts directConfig F.length) {disk disk' : Disk ν}
    {result : DownloadResult} (h : cli.directOnDisk locate w host disk = (.ok result, disk')) :
    (∃ secs, result = .ofSuccess (cli.directPath dir) F.length secs) ∧
      ∃ file, disk' (locate (cli.directPath dir)) = some file ∧ file.Sublist F := by
  simp only [directOnDisk, hdir, Prod.mk.injEq] at h
  obtain ⟨hresult, rfl⟩ := h
  generalize hbefore : disk (locate (cli.directPath dir)) = before at hresult ⊢
  have hok : (host.download directConfig (cli.directPath dir) before).1 = some (.ok result) := by
    cases hrun : (host.download directConfig (cli.directPath dir) before).1 with
    | none =>
      rw [hrun] at hresult
      cases hresult
    | some r =>
      rw [hrun, Option.getD_some] at hresult
      rw [hresult]
  rw [Function.update_self]
  obtain ⟨hsuccess, file, hfile, hsub, -⟩ :=
    (Host.download_leaves directConfig host F (cli.directPath dir) _ hserves hcuts).1 result hok
  exact ⟨hsuccess, file, hfile, hsub⟩

variable [Codec (List HistoryEntry)] [Codec (List BookmarkEntry)] {w : Nat → World} {hosts : Nat → Host}

variable (locate configDir) in
omit [UnicodeDeps] in
/-- The entry is the one that `run` adds. -/
theorem enterDirect_fst (w : World) (url : String) {result : DownloadResult} (hs : result.success = true)
    (h : History) (files : History.Files) (disk : Disk ν) :
    let r := enterDirect locate configDir w url result h disk
    let kept := addEntry w url none (some (utf8 result.outputPath)) (some result.fileSize) none (h, files)
    (r.1, r.2.1) = (kept.1, kept.2.1) := by
  intro r kept
  have hr : r = commit _ _ h disk := if_pos hs
  rw [hr]
  exact congrArg (·, _) (History.saveOnDisk_fst files)

omit [UnicodeDeps] in
theorem enterDirect_of_ne (w : World) (url : String) (result : DownloadResult) (h : History) (disk : Disk ν) {p : ν}
    (hp : ∀ f, p ≠ dataFile locate configDir f) :
    (enterDirect locate configDir w url result h disk).2.2 p = disk p := by
  unfold enterDirect
  split
  · exact History.saveOnDisk_of_ne hp
  · rfl

variable (locate) in
theorem process_withHost (hl : cli.listFormats = false) (hd : cli.direct = true) (ytdlp : YtDlp) (configDir : String)
    (w : World) (host : Host) (url : String) (h : Kept) (disk : Disk ν) :
    cli.process ytdlp configDir (w.withHost host) url h =
      match (cli.directOnDisk locate w host disk).1 with
      | .error e => (.error e, h)
      | .ok result =>
        if result.success then addEntry w url none (some (utf8 result.outputPath)) (some result.fileSize) none h
        else (.ok (), h) := by
  rw [process_direct hl hd, downloadDirect_withHost url disk]
  rfl

/-- The loop on the files is the loop of `run`. -/
theorem directLoop_eq (hl : cli.listFormats = false) (hd : cli.direct = true) (ytdlp : YtDlp) (urls : List String)
    (i : Nat) (h : History) (files : History.Files) (disk : Disk ν) :
    let r := cli.directLoop locate configDir w hosts urls i h disk
    let run := cli.loop ytdlp configDir (fun i => (w i).withHost (hosts i)) urls i (h, files)
    (r.1, r.2.1) = (run.1, run.2.1) := by
  induction urls generalizing i h files disk with
  | nil => rfl
  | cons url urls ih =>
    dsimp only
    rw [directLoop, loop, process_withHost locate hl hd ytdlp configDir (w i) (hosts i) url (h, files) disk]
    rcases cli.directOnDisk locate (w i) (hosts i) disk with ⟨e | result, disk'⟩
    · rfl
    · dsimp only
      cases hs : result.success with
      | false =>
        have hr : enterDirect locate configDir (w i) url result h disk' = (.ok (), h, disk') := by
          rw [enterDirect, hs, if_neg Bool.false_ne_true]
        rw [hr]
        exact ih (i + 1) h files disk'
      | true =>
        have hfst := enterDirect_fst locate configDir (w i) url hs h files disk'
        dsimp only at hfst
        rw [if_pos rfl]
        generalize enterDirect locate configDir (w i) url result h disk' = r at hfst ⊢
        generalize addEntry (w i) url none _ _ none (h, files) = kept at hfst ⊢
        rcases r with ⟨a, h', disk''⟩
        rcases kept with ⟨b, h'', files'⟩
        obtain ⟨rfl, rfl⟩ := Prod.mk.inj hfst
        rcases a with e | ⟨⟩
        · rfl
        · exact ih (i + 1) h' files' disk''

/-- The loop touches no other file. -/
theorem directLoop_of_ne
    (hdir : ∀ i, (w i).outputDir (if samePath cli.output "." then (w i).defaultOutputDir else cli.output) = .ok dir)
    (urls : List String) (i : Nat) (h : History) (disk : Disk ν) {p : ν} (hp : p ≠ locate (cli.directPath dir))
    (hdata : ∀ f, p ≠ dataFile locate configDir f) :
    (cli.directLoop locate configDir w hosts urls i h disk).2.2 p = disk p := by
  induction urls generalizing i h disk with
  | nil => rfl
  | cons url urls ih =>
    have hone := directOnDisk_of_ne (hdir i) (hosts i) disk hp
    rw [directLoop]
    generalize cli.directOnDisk locate (w i) (hosts i) disk = r at hone ⊢
    rcases r with ⟨e | result, disk'⟩
    · exact hone
    · have hentered := enterDirect_of_ne (w i) url result h disk' hdata
      dsimp only at hone ⊢
      generalize enterDirect locate configDir (w i) url result h disk' = r' at hentered ⊢
      rcases r' with ⟨e | _, h', disk''⟩
      · exact hentered.trans hone
      · exact (ih (i + 1) h' disk'').trans (hentered.trans hone)

omit [UnicodeDeps] in
/-- What a download that is entered does to the history and its files. -/
theorem enterDirect_ok {w : World} {url path : String} {size : Nat} {secs : Rat} {h h' : History} {disk disk' : Disk ν}
    (hname : dataFile locate configDir .history ≠ dataFile locate configDir .bookmarks)
    (hadd : enterDirect locate configDir w url (.ofSuccess path size secs) h disk = (.ok (), h', disk')) :
    h' = { h with entries := directEntry w url path size :: h.entries } ∧
      (∃ json, Codec.encode h'.entries = .ok json ∧ disk' (dataFile locate configDir .history) = some (utf8 json)) ∧
      ∃ json, Codec.encode h'.bookmarks = .ok json ∧
        disk' (dataFile locate configDir .bookmarks) = some (utf8 json) := by
  obtain ⟨hok, hrest⟩ := Prod.mk.inj hadd
  obtain ⟨rfl, rfl⟩ := Prod.mk.inj hrest
  exact ⟨rfl, History.saveOnDisk_ok hname hok⟩

/-- What is on the disk behind a loop in which nothing has failed: the video, unless the history is saved there, and
the history. -/
structure Left (locate : String → ν) (configDir path : String) (F : Bytes) (h : History) (disk : Disk ν) : Prop where
  video : (∀ f, locate path ≠ dataFile locate configDir f) → ∃ file, disk (locate path) = some file ∧ file.Sublist F
  history : ∃ json, Codec.encode h.entries = .ok json ∧ disk (dataFile locate configDir .history) = some (utf8 json)
  bookmarks : ∃ json, Codec.encode h.bookmarks = .ok json ∧
    disk (dataFile locate configDir .bookmarks) = some (utf8 json)

/-- What a loop in which nothing fails does to the history and to the files. -/
theorem directLoop_ok {F : Nat → Bytes}
    (hname : dataFile locate configDir .history ≠ dataFile locate configDir .bookmarks)
    (hdir : ∀ i, (w i).outputDir (if samePath cli.output "." then (w i).defaultOutputDir else cli.output) = .ok dir)
    (hserves : ∀ i, (hosts i).Serves (F i)) (hcuts : ∀ i, Host.Cuts directConfig (F i).length) (urls : List String)
    (i : Nat) (h : History) (disk : Disk ν)
    (hok : (cli.directLoop locate configDir w hosts urls i h disk).1 = .ok ()) :
    (cli.directLoop locate configDir w hosts urls i h disk).2.1 = {
        entries := ((urls.zipIdx i).map fun x =>
          directEntry (w x.2) x.1 (cli.directPath dir) (F x.2).length).reverse ++ h.entries
        bookmarks := h.bookmarks } ∧
      (urls ≠ [] → Left locate configDir (cli.directPath dir) (F (i + (urls.length - 1)))
        (cli.directLoop locate configDir w hosts urls i h disk).2.1
        (cli.directLoop locate configDir w hosts urls i h disk).2.2) := by
  induction urls generalizing i h disk with
  | nil => exact ⟨rfl, fun hne => absurd rfl hne⟩
  | cons url urls ih =>
    rw [directLoop] at hok ⊢
    rcases hone : cli.directOnDisk locate (w i) (hosts i) disk with ⟨e | result, disk'⟩
    · rw [hone] at hok
      cases hok
    · obtain ⟨⟨secs, rfl⟩, file, hfile, hsub⟩ := directOnDisk_ok (hdir i) (hserves i) (hcuts i) hone
      rw [hone] at hok
      dsimp only at hok ⊢
      rcases hadd : enterDirect locate configDir (w i) url (.ofSuccess (cli.directPath dir) (F i).length secs) h disk'
        with ⟨e | ⟨⟩, h', disk''⟩
      · rw [hadd] at hok
        cases hok
      · rw [hadd] at hok
        obtain ⟨hall, hlast⟩ := ih (i + 1) h' disk'' hok
        obtain ⟨hentries, hhistory, hbookmarks⟩ := enterDirect_ok hname hadd
        refine ⟨?_, fun _ => ?_⟩
        · rw [hall, hentries]
          simp
        · cases urls with
          | nil =>
            refine ⟨fun hdata => ⟨file, ?_, hsub⟩, hhistory, hbookmarks⟩
            have hkept := enterDirect_of_ne (w i) url (.ofSuccess (cli.directPath dir) (F i).length secs) h disk' hdata
            rw [hadd] at hkept
            exact hkept.trans hfile
          | cons url' urls =>
            have hindex : i + 1 + ((url' :: urls).length - 1) = i + ((url :: url' :: urls).length - 1) := by
              simp only [List.length_cons]
              omega
            rw [← hindex]
            exact hlast (List.cons_ne_nil _ _)

/-- All downloads of a direct batch are to one path, and no file but this and those of the history is touched. In a run in
which nothing fails, every URL is entered with that path and the size of its own video, and what is there is of the last
one, unless the history is saved there. -/
theorem batch_leaves (cli : Cli) (ytdlp : YtDlp) (locate : String → ν) (configDir dir : String) (w : Nat → World)
    (hosts : Nat → Host) (hl : cli.listFormats = false) (hd : cli.direct = true)
    (hdir : ∀ i, (w i).outputDir (if samePath cli.output "." then (w i).defaultOutputDir else cli.output) = .ok dir)
    (urls : List String) (h : History) (files : History.Files) (disk : Disk ν) :
    let r := cli.directLoop locate configDir w hosts urls 0 h disk
    let run := cli.run ytdlp configDir true (fun i => (w i).withHost (hosts i)) (.ok urls) (h, files)
    (r.1, r.2.1) = (run.1, run.2.1) ∧
      (∀ p, p ≠ locate (cli.directPath dir) → (∀ f, p ≠ dataFile locate configDir f) → r.2.2 p = disk p) ∧
      ∀ F : Nat → Bytes, (∀ i, (hosts i).Serves (F i)) → (∀ i, Host.Cuts directConfig (F i).length) →
        dataFile locate configDir .history ≠ dataFile locate configDir .bookmarks → r.1 = .ok () →
        r.2.1 = {
          entries := (urls.zipIdx.map fun x =>
            directEntry (w x.2) x.1 (cli.directPath dir) (F x.2).length).reverse ++ h.entries
          bookmarks := h.bookmarks } ∧
        (urls ≠ [] → Left locate configDir (cli.directPath dir) (F (urls.length - 1)) r.2.1 r.2.2) := by
  intro r run
  refine ⟨directLoop_eq hl hd ytdlp urls 0 h files disk, fun p hp hdata => ?_, ?_⟩
  · exact directLoop_of_ne hdir urls 0 h disk hp hdata
  · intro F hserves hcuts hname hok
    have hleaves := directLoop_ok hname hdir hserves hcuts urls 0 h disk hok
    rwa [Nat.zero_add] at hleaves

end Cli

namespace TwoVideos
open Cli

def cli : Cli := { Sample.plainCli with direct := true }

def video (i : Nat) : Bytes := if i = 0 then [1, 2, 3] else [4, 5]

def world (i : Nat) : World := { Sample.videoWorld true with id := BitVec.ofNat 128 i }

/-- No length is told. -/
def host (i : Nat) : Host where
  head _ := .ok ⟨404, none⟩
  segment _ _ _ _ _ := .error "connection refused"
  plainHead _ := .ok ⟨404, none⟩
  plain _ := .ok (.whole 200 (video i))
  statusText _ := "200 OK"
  elapsed _ := 1

def first : HistoryEntry := directEntry (world 0) "https://x.com/a" "/videos/video.mp4" 3

def second : HistoryEntry := directEntry (world 1) "https://x.com/b" "/videos/video.mp4" 2

def text (id url size : String) : String :=
  "\x7b\"id\":\"00000000-0000-0000-0000-00000000000" ++ id ++ "\",\"url\":\"" ++ url ++
    "\",\"title\":null,\"file_path\":\"/videos/video.mp4\",\"file_size\":" ++ size ++
    ",\"downloaded_at\":\"1970-01-01T00:00:00Z\",\"duration_secs\":null\x7d"

scoped instance entryCodec : Codec (List HistoryEntry) := Sample.tableCodec
  [([first], "[" ++ text "0" "https://x.com/a" "3" ++ "]"),
    ([second, first], "[" ++ text "1" "https://x.com/b" "2" ++ "," ++ text "0" "https://x.com/a" "3" ++ "]")]

scoped instance bookmarkCodec : Codec (List BookmarkEntry) := Sample.bookmarkCodec

scoped instance unicode : UnicodeDeps := Sample.unicode

theorem serves_host (i : Nat) : (host i).Serves (video i) where
  head j size h := by cases h
  plain j response h _ := by
    cases h
    simp
  segment j k attempt start stop response _ h _ := by cases h

/-- Both videos are entered, with one path, and there is the second. -/
theorem batch_leaves_twoVideos :
    let r := cli.directLoop id "/data" world host ["https://x.com/a", "https://x.com/b"] 0 Sample.noHistory.1
      fun _ => none
    r.2.1.entries = [second, first] ∧ (∃ file, r.2.2 "/videos/video.mp4" = some file ∧ file.Sublist [4, 5]) ∧
      ∃ json, Codec.encode [second, first] = .ok json ∧ r.2.2 "/data/history.json" = some (utf8 json) := by
  intro r
  have hcuts (i : Nat) : Host.Cuts directConfig (video i).length := by
    intro h
    unfold video at h
    split at h <;> cases h
  have hname : dataFile id "/data" .history ≠ dataFile id "/data" .bookmarks := by decide
  have hok : r.1 = .ok () := by rfl
  obtain ⟨-, -, hleaves⟩ := batch_leaves cli (.new "yt-dlp") id "/data" "/videos" world host rfl rfl (fun _ => rfl)
    ["https://x.com/a", "https://x.com/b"] Sample.noHistory.1 ⟨none, none⟩ fun _ => none
  obtain ⟨hentries, hleft⟩ := hleaves video serves_host hcuts hname hok
  obtain ⟨hvideo, hhistory, -⟩ := hleft (List.cons_ne_nil _ _)
  have hdata (f : History.FileName) : id (cli.directPath "/videos") ≠ dataFile id "/data" f := by cases f <;> decide
  rw [hentries] at hhistory ⊢
  exact ⟨rfl, hvideo hdata, hhistory⟩

end TwoVideos
end XVideoDownloader
