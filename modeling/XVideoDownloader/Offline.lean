import XVideoDownloader.AuthMessage
import XVideoDownloader.Storage
import XVideoDownloader.Lib.Rfc3339

/-!
# Offline messages (`server/db.rs`)

The messages for devices that are away are rows of one table. Reading those of a device sorts them by the text of the
time when they were saved. These texts have different lengths, but as bytes they are ordered as the times are, so the
messages come in the order in which they were saved (`offline_order`).
-/

namespace XVideoDownloader
open Lib

namespace Storage
open ColumnText

/-- A row of `offline_messages`. -/
structure OfflineMessage where
  deviceId : String
  message : String
  createdAt : String
  deriving DecidableEq

/-- The rows in the order of their ids, which SQLite counts up. -/
abbrev OfflineTable := List OfflineMessage

section
variable [ColumnText]

/-- `fail` is an error of SQLite, here and below. -/
def saveOfflineMessage (fail : Option String) (now : Time) (t : OfflineTable) (deviceId : Uuid) (message : String) :
    Except String Unit × OfflineTable :=
  match fail with
  | some e => (.error e, t)
  | none => (.ok (), t ++ [⟨uuidText deviceId, message, toRfc3339 now⟩])

/-- `WHERE device_id = ?1 ORDER BY created_at`: SQLite compares texts byte by byte. -/
def getOfflineMessages (fail : Option String) (t : OfflineTable) (deviceId : Uuid) : Except String (List String) :=
  match fail with
  | some e => .error e
  | none =>
    let rows := t.filter fun row => row.deviceId = uuidText deviceId
    .ok ((rows.mergeSort fun a b => utf8 a.createdAt ≤ utf8 b.createdAt).map (·.message))

def clearOfflineMessages (fail : Option String) (t : OfflineTable) (deviceId : Uuid) :
    Except String Unit × OfflineTable :=
  match fail with
  | some e => (.error e, t)
  | none => (.ok (), t.filter fun row => row.deviceId ≠ uuidText deviceId)

end

/-- A call that changes the table, with what the outside has to say to it. -/
inductive OfflineCall
  | save (fail : Option String) (now : Time) (deviceId : Uuid) (message : String)
  | clear (fail : Option String) (deviceId : Uuid)

namespace OfflineCall

def run [ColumnText] (t : OfflineTable) : OfflineCall → OfflineTable
  | save fail now deviceId message => (saveOfflineMessage fail now t deviceId message).2
  | clear fail deviceId => (clearOfflineMessages fail t deviceId).2

def runAll [ColumnText] (calls : List OfflineCall) (t : OfflineTable) : OfflineTable := calls.foldl run t

/-- What the clock says to a save, whether or not this succeeds. -/
def clock? : OfflineCall → Option Time
  | save _ now _ _ => some now
  | clear _ _ => none

/-! ### The messages of a device -/

/-- The call clears the messages of `d`. -/
def clears (d : Uuid) : OfflineCall → Bool
  | save .. => false
  | clear fail deviceId => fail = none ∧ deviceId = d

/-- The message that the call saves for `d`, and its time. -/
def saved? (d : Uuid) : OfflineCall → Option (Time × String)
  | save fail now deviceId message => if fail = none ∧ deviceId = d then some (now, message) else none
  | clear .. => none

/-- The calls since the last that clears the messages of `d`. -/
def sinceClear (d : Uuid) (calls : List OfflineCall) : List OfflineCall :=
  (calls.reverse.takeWhile fun call => !call.clears d).reverse

/-- The messages that have been saved for `d` since then, in the order of the calls, and their times. -/
def kept (d : Uuid) (calls : List OfflineCall) : List (Time × String) := (sinceClear d calls).filterMap (·.saved? d)

variable {d : Uuid} {calls : List OfflineCall} {call : OfflineCall}

theorem sinceClear_concat : sinceClear d (calls ++ [call]) =
    if call.clears d then [] else sinceClear d calls ++ [call] := by
  rw [sinceClear, List.reverse_append, List.reverse_singleton, List.singleton_append, List.takeWhile_cons]
  cases call.clears d <;> simp [sinceClear]

theorem sinceClear_suffix (d : Uuid) (calls : List OfflineCall) : sinceClear d calls <:+ calls := by
  have hprefix := List.takeWhile_prefix (l := calls.reverse) fun call => !call.clears d
  rwa [← List.reverse_suffix, List.reverse_reverse] at hprefix

theorem kept_concat : kept d (calls ++ [call]) =
    if call.clears d then [] else kept d calls ++ (call.saved? d).toList := by
  rw [kept, sinceClear_concat]
  split
  · rfl
  · rw [List.filterMap_append, kept]
    cases hsaved : call.saved? d <;> simp [hsaved]

/-- The messages have been saved at different readings of the clock, in the order of these. -/
theorem times_kept_sublist (d : Uuid) (calls : List OfflineCall) :
    ((kept d calls).map (·.1)).Sublist (calls.filterMap clock?) := by
  refine List.Sublist.trans ?_ ((sinceClear_suffix d calls).sublist.filterMap clock?)
  rw [kept]
  generalize sinceClear d calls = since
  induction since with
  | nil => exact List.nil_sublist _
  | cons call since ih =>
    rcases call with ⟨fail, now, deviceId, message⟩ | ⟨fail, deviceId⟩
    · by_cases hsaved : fail = none ∧ deviceId = d
      · simpa [saved?, clock?, hsaved] using ih
      · simpa [saved?, clock?, hsaved] using ih.cons now
    · exact ih

/-! ### Runs -/

variable [ColumnText]

/-- The row of a message. -/
def row (d : Uuid) (x : Time × String) : OfflineMessage := ⟨uuidText d, x.2, toRfc3339 x.1⟩

section
-- the texts of ids read back
variable (huuid : ∀ id, parseStr (uuidText id) = some id)

include huuid in
/-- One call changes the rows of a device as it changes the messages that are kept for it. -/
theorem filter_run (t : OfflineTable) (call : OfflineCall) :
    (call.run t).filter (fun r => r.deviceId = uuidText d) =
      if call.clears d then []
      else t.filter (fun r => r.deviceId = uuidText d) ++ (call.saved? d).toList.map (row d) := by
  rcases call with ⟨_ | e, now, deviceId, message⟩ | ⟨_ | e, deviceId⟩
  · by_cases hd : deviceId = d
    · simp [run, saveOfflineMessage, clears, saved?, row, hd]
    · simp [run, saveOfflineMessage, clears, saved?, uuidText_inj huuid, hd]
  · simp [run, saveOfflineMessage, clears, saved?]
  · by_cases hd : deviceId = d
    · simp [run, clearOfflineMessages, clears, hd]
    · have hne : uuidText d ≠ uuidText deviceId := fun he => hd ((uuidText_inj huuid).1 he.symm)
      have hother (r : OfflineMessage) :
          (decide (r.deviceId = uuidText d) && decide (r.deviceId ≠ uuidText deviceId)) =
            decide (r.deviceId = uuidText d) := by
        by_cases hr : r.deviceId = uuidText d <;> simp [hr, hne]
      simp only [run, clearOfflineMessages, List.filter_filter, hother]
      simp [clears, saved?, hd]
  · simp [run, clearOfflineMessages, clears, saved?]

include huuid in
theorem filter_runAll (d : Uuid) (calls : List OfflineCall) :
    (runAll calls []).filter (fun r => r.deviceId = uuidText d) = (kept d calls).map (row d) := by
  induction calls using List.reverseRecOn with
  | nil => rfl
  | append_singleton calls call ih =>
    rw [runAll, List.foldl_append, List.foldl_cons, List.foldl_nil, filter_run huuid, kept_concat]
    split
    · rfl
    · rw [List.map_append, ← ih, runAll]

theorem createdAt_lt {t t' : Time} (hrfc : ∀ t, InYears t → toRfc3339 t = Rfc3339.text t) (ht : InYears t)
    (ht' : InYears t') (h : t < t') : utf8 (toRfc3339 t) < utf8 (toRfc3339 t') := by
  rw [hrfc t ht, hrfc t' ht']
  exact utf8_lt_utf8 (Rfc3339.text_lt_text ht.1 h ht'.2)

include huuid in
/-- Reading returns the messages that have been saved for the device since they were last cleared, each once and in the
order of the calls. -/
theorem offline_order (hrfc : ∀ t, InYears t → toRfc3339 t = Rfc3339.text t) (calls : List OfflineCall)
    (hclock : (calls.filterMap clock?).Pairwise (· < ·)) (hyears : ∀ t ∈ calls.filterMap clock?, InYears t) (d : Uuid) :
    getOfflineMessages none (runAll calls []) d = .ok ((kept d calls).map (·.2)) := by
  have hsub := times_kept_sublist d calls
  have htimes : (kept d calls).Pairwise fun x y => x.1 < y.1 := List.pairwise_map.1 (hclock.sublist hsub)
  have hin : ∀ x ∈ kept d calls, InYears x.1 := fun x hx => hyears _ (hsub.subset (List.mem_map_of_mem hx))
  have hsorted : ((kept d calls).map (row d)).Pairwise fun a b =>
      decide (utf8 a.createdAt ≤ utf8 b.createdAt) = true := by
    rw [List.pairwise_map]
    refine htimes.imp_of_mem fun hx hy hlt => decide_eq_true ?_
    exact List.le_of_lt (createdAt_lt hrfc (hin _ hx) (hin _ hy) hlt)
  simp only [getOfflineMessages, filter_runAll huuid]
  rw [List.mergeSort_of_pairwise hsorted, List.map_map]
  rfl

end

end OfflineCall

end Storage

namespace Mailbox
open Storage OfflineCall

/-- The texts of the packages; of the times only the first is read back. -/
scoped instance columnText : ColumnText where
  uuidText := Sample.uuidText
  parseStr := Sample.parseStr
  toRfc3339 := Rfc3339.text
  parseFromRfc3339 s := if s = Rfc3339.text 0 then some 0 else none

/-- Two devices, one of which is cleared in between, and fractions of different lengths. -/
def calls : List OfflineCall :=
  [.save none 1 1 "old", .clear none 1, .save none 500000000 1 "Message 1", .save none 500000001 2 "other",
    .save none 1000000000 1 "Message 2", .save (some "disk I/O error") 1000000001 1 "lost"]

theorem offline_order_calls : getOfflineMessages none (runAll calls []) 1 = .ok ["Message 1", "Message 2"] := by
  have hclock : calls.filterMap clock? = [1, 500000000, 500000001, 1000000000, 1000000001] := rfl
  have hkept : (kept 1 calls).map (·.2) = ["Message 1", "Message 2"] := rfl
  have huuid (id : Uuid) : ColumnText.parseStr (ColumnText.uuidText id) = some id := Sample.parseStr_uuidText id
  have hrfc (t : Time) (_ : InYears t) : ColumnText.toRfc3339 t = Rfc3339.text t := rfl
  rw [← hkept]
  exact offline_order huuid hrfc calls (by rw [hclock]; decide) (by rw [hclock]; decide) 1

end Mailbox

end XVideoDownloader
