import XVideoDownloader.Auth
import XVideoDownloader.LocalQueue
import XVideoDownloader.Lib.Serde
import XVideoDownloader.Lib.Utf8

/-!
# Tasks as JSON (`collaboration/types.rs`)

The derived `Serialize` and `Deserialize` of a `Task`, field by field. Every value of the fields is read as it was
written, except the progress: an infinity or a NaN is written as null, which is not read as an `f64`, and a finite
number comes back as the one that its decimal text stands for (`LocalTask.rereads_iff`).
-/

namespace XVideoDownloader
open Lib

/-- `chrono`'s text of a `DateTime<Utc>`, and its parser. -/
class ChronoDeps where
  toRfc3339 : Time → String
  parseFromRfc3339 : String → Option Time

def TaskStatus.name : TaskStatus → String
  | new => "New"
  | queued => "Queued"
  | claimed => "Claimed"
  | complete => "Complete"
  | failed => "Failed"

def TaskStatus.ofName (s : String) : Option TaskStatus :=
  [new, queued, claimed, complete, failed].find? fun status => status.name = s

namespace LocalTask

section
variable [SerdeJson]

def str : JsonField String := .text .ok some

/-- A path is written as the text that it is the UTF-8 of. -/
def path : JsonField Path :=
  .text (fun p => (fromUtf8 p).elim (.error "path contains invalid UTF-8 characters") .ok) fun s => some (utf8 s)

def statusName : JsonField TaskStatus := .text (fun status => .ok status.name) TaskStatus.ofName

def uuid [AuthDeps] : JsonField Uuid := .text (fun id => .ok (AuthDeps.uuidText id)) AuthDeps.parseStr

def dateTime [ChronoDeps] : JsonField Time := .text (fun t => .ok (ChronoDeps.toRfc3339 t)) ChronoDeps.parseFromRfc3339

theorem readsBack_path (p : Path) : path.ReadsBack p := by
  refine JsonField.readsBack_text fun s hs => ?_
  cases hp : fromUtf8 p with
  | none => simp [hp] at hs
  | some s' =>
    simp only [hp, Option.elim_some, Except.ok.injEq] at hs
    rw [← hs, fromUtf8_eq_some.1 hp]

theorem readsBack_statusName (status : TaskStatus) : statusName.ReadsBack status := by
  refine JsonField.readsBack_text fun s hs => ?_
  cases hs
  cases status <;> decide

theorem readsBack_str (s : String) : str.ReadsBack s := by
  refine JsonField.readsBack_text fun s hs => ?_
  cases hs
  rfl

end

variable [SerdeJson] [AuthDeps] [ChronoDeps] {t t' : LocalTask}

instance : Record LocalTask where
  serialize t := objectOf [
    ("id", uuid.write t.id),
    ("team_id", uuid.write t.teamId),
    ("url", str.write t.url),
    ("status", statusName.write t.status),
    ("claimed_by", uuid.option.write t.claimedBy),
    ("claimed_at", dateTime.option.write t.claimedAt),
    ("progress", JsonField.f64.write t.progress),
    ("local_path", path.option.write t.localPath),
    ("file_size", JsonField.u64.option.write t.fileSize),
    ("created_by", uuid.write t.createdBy),
    ("created_at", dateTime.write t.createdAt),
    ("version", JsonField.u64.write t.version)]
  deserialize o := do
    let id ← uuid.required "id" o
    let teamId ← uuid.required "team_id" o
    let url ← str.required "url" o
    let status ← statusName.required "status" o
    let claimedBy ← uuid.optional "claimed_by" o
    let claimedAt ← dateTime.optional "claimed_at" o
    let progress ← JsonField.f64.required "progress" o
    let localPath ← path.optional "local_path" o
    let fileSize ← JsonField.u64.optional "file_size" o
    let createdBy ← uuid.required "created_by" o
    let createdAt ← dateTime.required "created_at" o
    let version ← JsonField.u64.required "version" o
    return {
      id := id, teamId := teamId, url := url, status := status, claimedBy := claimedBy, claimedAt := claimedAt,
      progress := progress, localPath := localPath, fileSize := fileSize, createdBy := createdBy,
      createdAt := createdAt, version := version }

/-- The sizes and versions of a task are `u64`s. -/
structure InRange (t : LocalTask) : Prop where
  fileSize : ∀ n ∈ t.fileSize, n < UInt64.size
  version : t.version < UInt64.size

/-- The texts of ids and times read back. -/
structure TextsReadBack : Prop where
  uuid : ∀ id, AuthDeps.parseStr (AuthDeps.uuidText id) = some id
  dateTime : ∀ t, ChronoDeps.parseFromRfc3339 (ChronoDeps.toRfc3339 t) = some t

theorem readsBack_uuid (h : TextsReadBack) (id : Uuid) : uuid.ReadsBack id := by
  refine JsonField.readsBack_text fun s hs => ?_
  cases hs
  exact h.uuid id

theorem readsBack_dateTime (h : TextsReadBack) (t : Time) : dateTime.ReadsBack t := by
  refine JsonField.readsBack_text fun s hs => ?_
  cases hs
  exact h.dateTime t

/-- A task with a finite progress is read back, with the progress that the decimal text stands for, and no other
task is. -/
theorem rereads_iff (hlaw : SerdeJson.Lawful) (htexts : TextsReadBack) (hr : t.InRange)
    {o : Object SerdeJson.Number} (hw : Record.serialize t = .ok o) :
    Record.deserialize o = some t' ↔
      IsFinite t.progress ∧
        ∃ x, SerdeJson.toF64 (SerdeJson.ofF64 t.progress) = some x ∧ t' = { t with progress := x } := by
  simp only [Record.serialize] at hw
  rw [objectOf_cons] at hw
  obtain ⟨id, _, hid, hw, rfl⟩ := hw
  rw [objectOf_cons] at hw
  obtain ⟨teamId, _, hteam, hw, rfl⟩ := hw
  rw [objectOf_cons] at hw
  obtain ⟨url, _, hurl, hw, rfl⟩ := hw
  rw [objectOf_cons] at hw
  obtain ⟨status, _, hstatus, hw, rfl⟩ := hw
  rw [objectOf_cons] at hw
  obtain ⟨claimedBy, _, hby, hw, rfl⟩ := hw
  rw [objectOf_cons] at hw
  obtain ⟨claimedAt, _, hat, hw, rfl⟩ := hw
  rw [objectOf_cons] at hw
  obtain ⟨progress, _, hprogress, hw, rfl⟩ := hw
  rw [objectOf_cons] at hw
  obtain ⟨localPath, _, hpath, hw, rfl⟩ := hw
  rw [objectOf_cons] at hw
  obtain ⟨fileSize, _, hsize, hw, rfl⟩ := hw
  rw [objectOf_cons] at hw
  obtain ⟨createdBy, _, hcreator, hw, rfl⟩ := hw
  rw [objectOf_cons] at hw
  obtain ⟨createdAt, _, hcreated, hw, rfl⟩ := hw
  rw [objectOf_cons] at hw
  obtain ⟨version, _, hversion, hw, rfl⟩ := hw
  cases objectOf_nil.1 hw
  have hid := readsBack_uuid htexts t.id id hid
  have hteam := readsBack_uuid htexts t.teamId teamId hteam
  have hurl := readsBack_str t.url url hurl
  have hstatus := readsBack_statusName t.status status hstatus
  have hby : uuid.option.read claimedBy = some t.claimedBy :=
    JsonField.readsBack_option (fun _ _ => JsonField.text_ne_null) (fun id _ => readsBack_uuid htexts id) claimedBy hby
  have hat : dateTime.option.read claimedAt = some t.claimedAt :=
    JsonField.readsBack_option (fun _ _ => JsonField.text_ne_null) (fun t _ => readsBack_dateTime htexts t)
      claimedAt hat
  have hpath : path.option.read localPath = some t.localPath :=
    JsonField.readsBack_option (fun _ _ => JsonField.text_ne_null) (fun p _ => readsBack_path p) localPath hpath
  have hsize : JsonField.u64.option.read fileSize = some t.fileSize :=
    JsonField.readsBack_option (fun _ _ => JsonField.u64_ne_null) (fun n hn =>
      JsonField.readsBack_u64 hlaw (hr.fileSize n hn)) fileSize hsize
  have hcreator := readsBack_uuid htexts t.createdBy createdBy hcreator
  have hcreated := readsBack_dateTime htexts t.createdAt createdAt hcreated
  have hversion := JsonField.readsBack_u64 hlaw hr.version version hversion
  simp [Record.deserialize, JsonField.required, JsonField.optional, hid, hteam, hurl, hstatus, hby, hat, hpath,
    hsize, hcreator, hcreated, hversion]
  cases hprogress
  by_cases hfinite : IsFinite t.progress
  · cases hx : SerdeJson.toF64 (SerdeJson.ofF64 t.progress) <;> simp [JsonField.f64, hfinite, hx, eq_comm]
  · simp [JsonField.f64, hfinite]

end LocalTask
end XVideoDownloader
