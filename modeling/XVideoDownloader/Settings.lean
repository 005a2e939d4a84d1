import XVideoDownloader.Gui
import XVideoDownloader.Wire
import XVideoDownloader.Lib.Disk
import XVideoDownloader.Lib.JsonPrefix
import XVideoDownloader.Lib.Utf8

/-!
# The saved settings of the window (`gui.rs`)

`save_config` writes the cookie file and the output directory in place, and `load_config` reads them when the window is
opened again; what does not parse is read as two empty texts. The text is of `serde_json`, a `JsonText`. Proper
beginnings of it do not parse, so no save that is cut off is ever read as settings that nobody has saved
(`app_after_restart`).
-/

namespace XVideoDownloader
open Lib List

/-- The cookie file and the output directory. -/
structure Settings where
  cookieFile : String
  outputDir : String
  deriving DecidableEq

namespace Settings

def config (s : Settings) : List (String × String) := [("cookie_file", s.cookieFile), ("output_dir", s.outputDir)]

variable [JsonText]

/-- The text that `save_config` writes. -/
def text (s : Settings) : List Char := JsonText.toStringPretty s.config

def bytes (s : Settings) : List UInt8 := utf8 (.ofList s.text)

/-- A member of an object, the last where there are several, if it is a text; else the empty text. -/
def textAt (config : Json JsonText.Number) (name : String) : String :=
  match config with
  | .object fields =>
    match fields.reverse.lookup name with
    | some (.string s) => s
    | _ => ""
  | _ => ""

/-- `load_config`, where `file` is what can be read. -/
def loadConfig (file : Option (List UInt8)) : Settings :=
  match (file.bind fromUtf8).bind fun content => JsonText.fromStr content.toList with
  | some config => ⟨textAt config "cookie_file", textAt config "output_dir"⟩
  | none => ⟨"", ""⟩

/-! ### What a save leaves is read whole or not at all -/

theorem fromStr_text (hjson : JsonText.LawfulPretty) (s : Settings) :
    JsonText.fromStr s.text = some (.object (s.config.map fun f => (f.1, .string f.2))) := by
  have horder : ["cookie_file", "output_dir"].Pairwise (· < ·) := by decide
  exact hjson.fromStr_toStringPretty s.config horder

theorem loadConfig_bytes (hjson : JsonText.LawfulPretty) (s : Settings) : loadConfig (some s.bytes) = s := by
  have hread : fromUtf8 s.bytes = some (.ofList s.text) := fromUtf8_eq_some.2 rfl
  simp only [loadConfig, Option.bind_some, hread, String.toList_ofList, fromStr_text hjson]
  rfl

theorem loadConfig_take (hjson : JsonText.LawfulPretty) {s : Settings} {n : Nat} (h : n < s.bytes.length) :
    loadConfig (some (s.bytes.take n)) = ⟨"", ""⟩ := by
  have hnone : ((some (s.bytes.take n)).bind fromUtf8).bind (fun content => JsonText.fromStr content.toList) = none := by
    cases hread : fromUtf8 (s.bytes.take n) with
    | none => simp only [Option.bind_some, hread, Option.bind_none]
    | some pre =>
      have hbytes : utf8 pre ++ s.bytes.drop n = s.bytes := by rw [fromUtf8_eq_some.1 hread, take_append_drop]
      have htext : pre.toList ++ decodeLossy (s.bytes.drop n) = s.text := by
        rw [← decodeLossy_utf8_append, hbytes, bytes, decodeLossy_utf8, String.toList_ofList]
      simp only [Option.bind_some, hread]
      refine hjson.fromStr_of_cut s.config _ _ htext fun hnil => ?_
      -- nothing is left of the text, but bytes are left of it
      rw [hnil, append_nil] at htext
      have hwhole : s.bytes.take n = s.bytes := by
        rw [← fromUtf8_eq_some.1 hread, bytes, ← htext, String.ofList_toList]
      have hlen := congrArg length hwhole
      rw [length_take] at hlen
      omega
  rw [loadConfig, hnone]

/-- What is read where `n` steps of a save have been taken, the truncation included. -/
theorem loadConfig_cut (hjson : JsonText.LawfulPretty) (s : Settings) (file : Option (List UInt8)) {n : Nat} (hn : n ≠ 0) :
    loadConfig (cut file s.bytes n) = if s.bytes.length < n then s else ⟨"", ""⟩ := by
  obtain ⟨n, rfl⟩ := Nat.exists_eq_add_one_of_ne_zero hn
  rw [cut, if_neg hn, Nat.add_sub_cancel]
  split_ifs with hlen
  · rw [take_of_length_le (Nat.le_of_lt_succ hlen), loadConfig_bytes hjson]
  · exact loadConfig_take hjson (by omega)

end Settings

/-! ### Runs -/

/-- How a save ends. -/
inductive SaveEnd
  /-- `create_dir_all` fails. -/
  | noDirectory (error : String)
  /-- The write fails, after so many steps. -/
  | failed (error : String) (steps : Nat)
  | done
  /-- The program ends, after so many steps of the write. -/
  | killed (steps : Nat)

namespace SaveEnd

def steps (bytes : List UInt8) : SaveEnd → Nat
  | noDirectory _ => 0
  | failed _ n | killed n => n
  | done => bytes.length + 1

/-- What `save_config` returns, where it does. -/
def result : SaveEnd → Option (Except String Unit)
  | noDirectory e | failed e _ => some (.error e)
  | done => some (.ok ())
  | killed _ => none

end SaveEnd

/-- What a message has saved. -/
def Message.settings (app : App) : Message → Option Settings
  | .saveCookie => some ⟨app.cookieFile, app.outputDir⟩
  | .clearSavedCookie => some ⟨"", app.outputDir⟩
  | _ => none

/-- The file of the settings and the window, where it is open. -/
structure Desktop where
  file : Option (List UInt8)
  app : Option App

namespace Desktop

inductive Event
  /-- The window is opened; `readable` says whether the file can be read, if there is one. -/
  | start (executable defaultOutput : String) (readable : Bool)
  | message (m : Message) (canonicalize : String → Option String) (save : SaveEnd)
  | quit

variable [JsonText]

def step (d : Desktop) : Event → Desktop
  | .start executable defaultOutput readable =>
    match d.app with
    | none =>
      let saved := Settings.loadConfig (if readable then d.file else none)
      { d with app := some (.new executable saved.cookieFile saved.outputDir defaultOutput) }
    | some _ => d
  | .message m canonicalize save =>
    match d.app with
    | none => d
    | some app =>
      match m.settings app with
      | none => { d with app := some (app.update ⟨canonicalize, fun _ _ => .ok ()⟩ m).1 }
      | some s =>
        { file := cut d.file s.bytes (save.steps s.bytes)
          app := save.result.map fun r => (app.update ⟨canonicalize, fun _ _ => r⟩ m).1 }
  | .quit => { d with app := none }

def after (d : Desktop) (xs : List Event) : Desktop := xs.foldl step d

/-- The settings whose save an event begins, and the number of its steps: the first is the truncation. -/
def begins (d : Desktop) : Event → Option (Settings × Nat)
  | .message m _ save => do
    let s ← m.settings (← d.app)
    if save.steps s.bytes = 0 then none else some (s, save.steps s.bytes)
  | _ => none

/-- The last save of a run that was begun. -/
def lastSave (d : Desktop) : List Event → Option (Settings × Nat)
  | [] => none
  | x :: xs => ((d.step x).lastSave xs).or (d.begins x)

/-- What is read behind a save that was begun: the settings, if all steps were taken. -/
def readBack (save : Settings × Nat) : Settings := if save.1.bytes.length < save.2 then save.1 else ⟨"", ""⟩

theorem loadConfig_step (hjson : JsonText.LawfulPretty) (d : Desktop) (x : Event) :
    Settings.loadConfig (d.step x).file = (d.begins x).elim (Settings.loadConfig d.file) readBack := by
  rcases d with ⟨file, _ | app⟩
  · cases x <;> rfl
  · cases x with
    | start | quit => rfl
    | message m canonicalize save =>
      cases hm : m.settings app with
      | none => simp [step, begins, hm]
      | some s =>
        have hfile : (step ⟨file, some app⟩ (.message m canonicalize save)).file =
            cut file s.bytes (save.steps s.bytes) := by simp only [step, hm]
        have hbegins : begins ⟨file, some app⟩ (.message m canonicalize save) =
            if save.steps s.bytes = 0 then none else some (s, save.steps s.bytes) := by simp [begins, hm]
        rw [hfile, hbegins]
        split_ifs with hsteps
        · rw [hsteps, cut, if_pos rfl]
          rfl
        · exact s.loadConfig_cut hjson file hsteps

theorem loadConfig_after (hjson : JsonText.LawfulPretty) (d : Desktop) (xs : List Event) :
    Settings.loadConfig (d.after xs).file = (d.lastSave xs).elim (Settings.loadConfig d.file) readBack := by
  induction xs generalizing d with
  | nil => rfl
  | cons x xs ih =>
    show Settings.loadConfig ((d.step x).after xs).file = _
    rw [ih, lastSave]
    cases (d.step x).lastSave xs with
    | none =>
      rw [Option.none_or]
      exact loadConfig_step hjson d x
    | some save => rfl

/-- Closed and opened again, the window has the settings of the last save that was begun, where all of it was written,
and else none. Without such a save it has what it would have had before. -/
theorem app_after_restart (hjson : JsonText.LawfulPretty) (d : Desktop) (xs : List Event)
    (executable defaultOutput : String) :
    ((d.after xs).after [.quit, .start executable defaultOutput true]).app =
      some (let s := (d.lastSave xs).elim (Settings.loadConfig d.file) readBack
        .new executable s.cookieFile s.outputDir defaultOutput) := by
  rw [← loadConfig_after hjson]
  rfl

end Desktop

namespace Sample

theorem lawfulPretty_jsonText : JsonText.LawfulPretty := by
  have hfits (fields : List (String × String)) :
      (Json.object (fields.map fun f => (f.1, .string f.2))).Fits Json.IsToken Json.maxDepth := by
    intro f hf
    obtain ⟨g, -, rfl⟩ := List.mem_map.1 hf
    trivial
  exact {
    fromStr_toStringPretty := fun fields _ => Json.parse_pretty (hfits fields)
    fromStr_of_cut := fun fields _ _ h hne => Json.parse_of_cut (hfits fields) h hne }

/-- A cookie file is saved; the save of the next one is killed on its way. -/
def killedSave : List Desktop.Event :=
  [.start "yt-dlp" "/out" true, .message (.cookieChanged "c.txt") some .done, .message .saveCookie some .done,
    .message (.cookieChanged "d.txt") some .done, .message .saveCookie some (.killed 5)]

theorem killedSave_begun :
    Desktop.lastSave ⟨none, none⟩ (killedSave.take 4) = some (⟨"c.txt", "/out"⟩, 53) ∧
      Desktop.lastSave ⟨none, none⟩ killedSave = some (⟨"d.txt", "/out"⟩, 5) := by
  decide +kernel

theorem app_after_restart_killedSave :
    (((Desktop.after ⟨none, none⟩ (killedSave.take 4)).after [.quit, .start "yt-dlp" "/out" true]).app =
        some (.new "yt-dlp" "c.txt" "/out" "/out")) ∧
      ((Desktop.after ⟨none, none⟩ killedSave).after [.quit, .start "yt-dlp" "/out" true]).app =
        some (.new "yt-dlp" "" "" "/out") := by
  have hsaved := Desktop.app_after_restart lawfulPretty_jsonText ⟨none, none⟩ (killedSave.take 4) "yt-dlp" "/out"
  have hkilled := Desktop.app_after_restart lawfulPretty_jsonText ⟨none, none⟩ killedSave "yt-dlp" "/out"
  rw [killedSave_begun.1] at hsaved
  rw [killedSave_begun.2] at hkilled
  exact ⟨hsaved, hkilled⟩

end Sample
end XVideoDownloader
