import XVideoDownloader.AuthMessage
import XVideoDownloader.Handler
import XVideoDownloader.Reload
import XVideoDownloader.Storage
import XVideoDownloader.Lib.Json

/-!
# Messages as JSON (`collaboration/types.rs`)

The derived `Serialize` and `Deserialize` of the messages and of what they carry, with the name of the variant in
the field `type`. A message is read as it was written (`client_round_trip`, `server_round_trip`), but for a progress,
which comes back as the number that its decimal text stands for.

The texts of values are of `serde_json`, a `JsonText`, and those of ids and times of packages, too. A record is also
read from an array of the values of its fields, and a message from one that begins with its name.
-/

namespace XVideoDownloader
open Lib

/-- How a value becomes JSON and back. -/
class Wire [JsonText] (α : Type) where
  toJson : α → Json JsonText.Number
  ofJson : Json JsonText.Number → Option α

namespace Wire
variable [JsonText]

abbrev Value := Json JsonText.Number

abbrev Fields := List (String × Value)

section
variable {α : Type} [Wire α]

/-- A field without which there is no record; a name that stands twice is refused. -/
def required (name : String) (fields : Fields) : Option α :=
  match fields.filter (·.1 = name) with
  | [f] => ofJson f.2
  | _ => none

instance : Wire (Option α) where
  toJson
    | none => .null
    | some a => toJson a
  ofJson
    | .null => some none
    | v => (ofJson v).map some

/-- A field of an `Option` type, which may be missing. -/
def optional (name : String) (fields : Fields) : Option (Option α) :=
  match fields.filter (·.1 = name) with
  | [] => some none
  | [f] => ofJson f.2
  | _ => none

instance : Wire (List α) where
  toJson as := .array (as.map toJson)
  ofJson
    | .array items => items.mapM ofJson
    | _ => none

/-- `serde_json::to_string`. -/
def toText (a : α) : List Char := JsonText.toString (toJson a)

/-- `serde_json::from_str`. -/
def fromStr (text : List Char) : Option α := (JsonText.fromStr text).bind ofJson

end

/-- A string that `parse` reads. -/
@[reducible] def text {α : Type} (write : α → String) (parse : String → Option α) : Wire α where
  toJson a := .string (write a)
  ofJson
    | .string s => parse s
    | _ => none

instance : Wire String := text id some

/-- The fields of an object, or the values of the named fields in an array. -/
def fieldsOf (names : List String) : Value → Option Fields
  | .object fields => some fields
  | .array items => if items.length = names.length then some (names.zip items) else none
  | _ => none

/-- The derived implementations for a record. -/
@[reducible] def record {α : Type} (names : List String) (write : α → Fields) (read : Fields → Option α) : Wire α where
  toJson a := .object (write a)
  ofJson v := (fieldsOf names v).bind read

/-- The tag and what it is the tag of: in an object it stands once, beside the other fields, in an array it comes
first. -/
def untag : Value → Option (String × Value)
  | .object fields => do
    let tag ← required "type" fields
    return (tag, .object (fields.filter (·.1 ≠ "type")))
  | .array (.string tag :: items) => some (tag, .array items)
  | _ => none

/-- The derived implementations for an enumeration with `#[serde(tag = "type")]`. -/
@[reducible] def tagged {α : Type} (names : String → List String) (write : α → String × Fields)
    (read : String → Fields → Option α) : Wire α where
  toJson a := .object (("type", .string (write a).1) :: (write a).2)
  ofJson v := do
    let (tag, rest) ← untag v
    read tag (← fieldsOf (names tag) rest)

/-- A `u64`. -/
instance : Wire Nat where
  toJson n := .number (JsonText.ofU64 (.ofNat n))
  ofJson
    | .number x => (JsonText.toU64 x).map UInt64.toNat
    | _ => none

instance : Wire UInt16 where
  toJson n := .number (JsonText.ofU64 n.toUInt64)
  ofJson
    | .number x => do
      let n ← JsonText.toU64 x
      if n.toNat < UInt16.size then some n.toUInt16 else none
    | _ => none

instance : Wire Bool where
  toJson := .bool
  ofJson
    | .bool b => some b
    | _ => none

/-- The name of a status may also be the one field of an object, with nothing in it. -/
instance : Wire TaskStatus where
  toJson status := .string status.name
  ofJson
    | .string s => TaskStatus.ofName s
    | .object [(s, .null)] => TaskStatus.ofName s
    | .object [(s, .object [])] => TaskStatus.ofName s
    | _ => none

instance [AuthDeps] : Wire Uuid := text AuthDeps.uuidText AuthDeps.parseStr

instance [ChronoDeps] : Wire Time := text ChronoDeps.toRfc3339 ChronoDeps.parseFromRfc3339

/-- A finite `f64`. -/
instance : Wire Rat where
  toJson x := .number (JsonText.ofF64 x)
  ofJson
    | .number x => JsonText.toF64 x
    | _ => none

section
variable [AuthDeps] [ChronoDeps]

def writeTeam (t : Team) : Fields := [
  ("id", toJson t.id), ("name", toJson t.name), ("invite_code", toJson t.inviteCode), ("created_at", toJson t.createdAt)]

def readTeam (o : Fields) : Option Team := do
  return {
    id := ← required "id" o
    name := ← required "name" o
    inviteCode := ← required "invite_code" o
    createdAt := ← required "created_at" o }

instance : Wire Team := record ["id", "name", "invite_code", "created_at"] writeTeam readTeam

def writeDevice (d : Device) : Fields := [
  ("id", toJson d.id), ("team_id", toJson d.teamId), ("name", toJson d.name), ("public_ip", toJson d.publicIp),
  ("public_port", toJson d.publicPort), ("last_seen", toJson d.lastSeen), ("is_online", toJson d.isOnline)]

def readDevice (o : Fields) : Option Device := do
  return {
    id := ← required "id" o
    teamId := ← required "team_id" o
    name := ← required "name" o
    publicIp := ← optional "public_ip" o
    publicPort := ← optional "public_port" o
    lastSeen := ← required "last_seen" o
    isOnline := ← required "is_online" o }

instance : Wire Device :=
  record ["id", "team_id", "name", "public_ip", "public_port", "last_seen", "is_online"] writeDevice readDevice

def writeTask (t : Task) : Fields := [
  ("id", toJson t.id), ("team_id", toJson t.teamId), ("url", toJson t.url), ("status", toJson t.status),
  ("claimed_by", toJson t.claimedBy), ("claimed_at", toJson t.claimedAt), ("progress", toJson t.progress),
  ("local_path", toJson t.localPath), ("file_size", toJson t.fileSize), ("created_by", toJson t.createdBy),
  ("created_at", toJson t.createdAt), ("version", toJson t.version)]

def readTask (o : Fields) : Option Task := do
  return {
    id := ← required "id" o
    teamId := ← required "team_id" o
    url := ← required "url" o
    status := ← required "status" o
    claimedBy := ← optional "claimed_by" o
    claimedAt := ← optional "claimed_at" o
    progress := ← required "progress" o
    localPath := ← optional "local_path" o
    fileSize := ← optional "file_size" o
    createdBy := ← required "created_by" o
    createdAt := ← required "created_at" o
    version := ← required "version" o }

instance : Wire Task :=
  record ["id", "team_id", "url", "status", "claimed_by", "claimed_at", "progress", "local_path", "file_size",
    "created_by", "created_at", "version"] writeTask readTask

def writeClientMessage : ClientMessage → String × Fields
  | .register deviceId teamId name =>
    ("Register", [("device_id", toJson deviceId), ("team_id", toJson teamId), ("name", toJson name)])
  | .createTeam name => ("CreateTeam", [("name", toJson name)])
  | .joinTeam inviteCode => ("JoinTeam", [("invite_code", toJson inviteCode)])
  | .heartbeat deviceId => ("Heartbeat", [("device_id", toJson deviceId)])
  | .addTask url => ("AddTask", [("url", toJson url)])
  | .claimTask taskId => ("ClaimTask", [("task_id", toJson taskId)])
  | .updateProgress taskId progress => ("UpdateProgress", [("task_id", toJson taskId), ("progress", toJson progress)])
  | .taskComplete taskId localPath fileSize =>
    ("TaskComplete", [("task_id", toJson taskId), ("local_path", toJson localPath), ("file_size", toJson fileSize)])
  | .requestFile taskId => ("RequestFile", [("task_id", toJson taskId)])
  | .leaveTeam deviceId => ("LeaveTeam", [("device_id", toJson deviceId)])

def readClientMessage (tag : String) (o : Fields) : Option ClientMessage :=
  match tag with
  | "Register" => return .register (← required "device_id" o) (← required "team_id" o) (← required "name" o)
  | "CreateTeam" => return .createTeam (← required "name" o)
  | "JoinTeam" => return .joinTeam (← required "invite_code" o)
  | "Heartbeat" => return .heartbeat (← required "device_id" o)
  | "AddTask" => return .addTask (← required "url" o)
  | "ClaimTask" => return .claimTask (← required "task_id" o)
  | "UpdateProgress" => return .updateProgress (← required "task_id" o) (← required "progress" o)
  | "TaskComplete" =>
    return .taskComplete (← required "task_id" o) (← required "local_path" o) (← required "file_size" o)
  | "RequestFile" => return .requestFile (← required "task_id" o)
  | "LeaveTeam" => return .leaveTeam (← required "device_id" o)
  | _ => none

def clientFields : String → List String
  | "Register" => ["device_id", "team_id", "name"]
  | "CreateTeam" => ["name"]
  | "JoinTeam" => ["invite_code"]
  | "Heartbeat" | "LeaveTeam" => ["device_id"]
  | "AddTask" => ["url"]
  | "ClaimTask" | "RequestFile" => ["task_id"]
  | "UpdateProgress" => ["task_id", "progress"]
  | "TaskComplete" => ["task_id", "local_path", "file_size"]
  | _ => []

instance : Wire ClientMessage := tagged clientFields writeClientMessage readClientMessage

def writeServerMessage : ServerMessage → String × Fields
  | .registered deviceId => ("Registered", [("device_id", toJson deviceId)])
  | .teamCreated team => ("TeamCreated", [("team", toJson team)])
  | .teamJoined team => ("TeamJoined", [("team", toJson team)])
  | .teamDevices devices => ("TeamDevices", [("devices", toJson devices)])
  | .taskAdded task => ("TaskAdded", [("task", toJson task)])
  | .taskClaimed taskId deviceId => ("TaskClaimed", [("task_id", toJson taskId), ("device_id", toJson deviceId)])
  | .taskUpdated task => ("TaskUpdated", [("task", toJson task)])
  | .taskReleased taskId reason => ("TaskReleased", [("task_id", toJson taskId), ("reason", toJson reason)])
  | .fileAvailable taskId fromDevice ip port filename size =>
    ("FileAvailable", [
      ("task_id", toJson taskId), ("from_device", toJson fromDevice), ("ip", toJson ip), ("port", toJson port),
      ("filename", toJson filename), ("size", toJson size)])
  | .deviceOnline device => ("DeviceOnline", [("device", toJson device)])
  | .deviceOffline deviceId => ("DeviceOffline", [("device_id", toJson deviceId)])
  | .error message => ("Error", [("message", toJson message)])

def readServerMessage (tag : String) (o : Fields) : Option ServerMessage :=
  match tag with
  | "Registered" => return .registered (← required "device_id" o)
  | "TeamCreated" => return .teamCreated (← required "team" o)
  | "TeamJoined" => return .teamJoined (← required "team" o)
  | "TeamDevices" => return .teamDevices (← required "devices" o)
  | "TaskAdded" => return .taskAdded (← required "task" o)
  | "TaskClaimed" => return .taskClaimed (← required "task_id" o) (← required "device_id" o)
  | "TaskUpdated" => return .taskUpdated (← required "task" o)
  | "TaskReleased" => return .taskReleased (← required "task_id" o) (← required "reason" o)
  | "FileAvailable" =>
    return .fileAvailable (← required "task_id" o) (← required "from_device" o) (← required "ip" o)
      (← required "port" o) (← required "filename" o) (← required "size" o)
  | "DeviceOnline" => return .deviceOnline (← required "device" o)
  | "DeviceOffline" => return .deviceOffline (← required "device_id" o)
  | "Error" => return .error (← required "message" o)
  | _ => none

def serverFields : String → List String
  | "Registered" | "DeviceOffline" => ["device_id"]
  | "TeamCreated" | "TeamJoined" => ["team"]
  | "TeamDevices" => ["devices"]
  | "TaskAdded" | "TaskUpdated" => ["task"]
  | "TaskClaimed" => ["task_id", "device_id"]
  | "TaskReleased" => ["task_id", "reason"]
  | "FileAvailable" => ["task_id", "from_device", "ip", "port", "filename", "size"]
  | "DeviceOnline" => ["device"]
  | "Error" => ["message"]
  | _ => []

instance : Wire ServerMessage := tagged serverFields writeServerMessage readServerMessage

end

/-! ### What is read back -/

/-- `b` is read where `a` was written, with at most `d` arrays and objects within each other. -/
structure Transmits {α : Type} [Wire α] (d : Nat) (a b : α) : Prop where
  reads : ofJson (toJson a) = some b
  fits : ∀ n, (toJson a).Fits JsonText.Written (n + d)

namespace Transmits
variable {α : Type} [Wire α] {a b : α} {d d' : Nat}

theorem mono (h : Transmits d a b) (hd : d ≤ d') : Transmits d' a b := by
  refine ⟨h.reads, fun n => ?_⟩
  have hfits := h.fits (n + (d' - d))
  rwa [Nat.add_assoc, Nat.sub_add_cancel hd] at hfits

theorem fromStr_toText (hjson : JsonText.Lawful) (h : Transmits d a b) (hd : d ≤ Json.maxDepth) :
    fromStr (toText a) = some b := by
  have hfits := h.fits (Json.maxDepth - d)
  rw [Nat.sub_add_cancel hd] at hfits
  rw [fromStr, toText, hjson.fromStr_toString _ hfits]
  exact h.reads

/-- What is written of a value that is there is not null. -/
theorem option {o : Option α} (h : ∀ a ∈ o, Transmits d a a ∧ toJson a ≠ .null) : Transmits d o o := by
  cases o with
  | none => exact ⟨rfl, fun n => by cases n + d <;> trivial⟩
  | some a =>
    obtain ⟨ha, hnull⟩ := h a rfl
    refine ⟨?_, ha.fits⟩
    show (match toJson a with
      | .null => some none
      | v => (ofJson v).map some) = some (some a)
    split
    · contradiction
    · rw [ha.reads]
      rfl

theorem list {as : List α} (h : ∀ a ∈ as, Transmits d a a) : Transmits (d + 1) as as := by
  constructor
  · show (as.map toJson).mapM ofJson = Option.some as
    induction as with
    | nil => rfl
    | cons a as ih =>
      have hhead := h a List.mem_cons_self
      rw [List.map_cons, List.mapM_cons, hhead.reads, ih fun a ha => h a (List.mem_cons_of_mem _ ha)]
      rfl
  · intro n v hv
    obtain ⟨a, ha, rfl⟩ := List.mem_map.1 hv
    exact (h a ha).fits n

end Transmits

theorem transmits_text {α : Type} {write : α → String} {parse : String → Option α} {a b : α}
    (h : parse (write a) = some b) : @Transmits _ α (text write parse) 0 a b := by
  let : Wire α := text write parse
  exact ⟨h, fun n => by cases n <;> trivial⟩

theorem transmits_record {α : Type} {names : List String} {write : α → Fields} {read : Fields → Option α} {a b : α}
    {d : Nat} (hread : read (write a) = some b) (hfits : ∀ n, ∀ f ∈ write a, f.2.Fits JsonText.Written (n + d)) :
    @Transmits _ α (record names write read) (d + 1) a b := by
  let : Wire α := record names write read
  exact ⟨hread, hfits⟩

theorem transmits_string (s : String) : Transmits 0 s s := transmits_text rfl

theorem untag_cons {tag : String} {fields : Fields} (h : ∀ f ∈ fields, f.1 ≠ "type") :
    untag (.object (("type", .string tag) :: fields)) = some (tag, .object fields) := by
  have hno : fields.filter (·.1 = "type") = [] := List.filter_eq_nil_iff.2 fun f hf => by simpa using h f hf
  have hall : fields.filter (·.1 ≠ "type") = fields := List.filter_eq_self.2 fun f hf => by simpa using h f hf
  have hread := (transmits_string tag).reads
  simp only [untag, required, List.filter_cons, hno, decide_true, if_true]
  show (ofJson (.string tag)).bind (fun t => some (t, Json.object (fields.filter (·.1 ≠ "type")))) = _
  rw [hall]
  rfl

theorem fieldsOf_array {names : List String} {fields : Fields} (h : fields.map (·.1) = names) :
    fieldsOf names (.array (fields.map (·.2))) = some fields := by
  rw [← h, fieldsOf, List.length_map, List.length_map, if_pos rfl]
  exact congrArg some (List.zip_of_prod rfl rfl).symm

theorem transmits_tagged {α : Type} {names : String → List String} {write : α → String × Fields}
    {read : String → Fields → Option α} {a b : α} {d : Nat} (htype : ∀ f ∈ (write a).2, f.1 ≠ "type")
    (hread : read (write a).1 (write a).2 = some b)
    (hfits : ∀ n, ∀ f ∈ (write a).2, f.2.Fits JsonText.Written (n + d)) :
    @Transmits _ α (tagged names write read) (d + 1) a b := by
  let : Wire α := tagged names write read
  constructor
  · show (untag (.object (("type", .string (write a).1) :: (write a).2))).bind
      (fun p => (fieldsOf (names p.1) p.2).bind fun o => read p.1 o) = some b
    rw [untag_cons htype]
    exact hread
  · intro n f hf
    rcases List.mem_cons.1 hf with rfl | hf
    · exact (Transmits.mono (transmits_string (write a).1) (Nat.zero_le d)).fits n
    · exact hfits n f hf

theorem transmits_bool (b : Bool) : Transmits 0 b b := ⟨rfl, fun n => by cases n <;> trivial⟩

theorem transmits_status (status : TaskStatus) : Transmits 0 status status := by
  constructor
  · show TaskStatus.ofName status.name = some status
    cases status <;> decide
  · intro n
    cases n <;> trivial

theorem transmits_nat (hjson : JsonText.Lawful) {n : Nat} (h : n < UInt64.size) : Transmits 0 n n := by
  constructor
  · show (JsonText.toU64 (JsonText.ofU64 (.ofNat n))).map UInt64.toNat = some n
    rw [hjson.toU64_ofU64, Option.map_some, UInt64.toNat_ofNat_of_lt' h]
  · intro k
    cases k <;> exact .inl ⟨_, rfl⟩

theorem transmits_uint16 (hjson : JsonText.Lawful) (n : UInt16) : Transmits 0 n n := by
  constructor
  · show (do
      let k ← JsonText.toU64 (JsonText.ofU64 n.toUInt64)
      if k.toNat < UInt16.size then some k.toUInt16 else none) = some n
    rw [hjson.toU64_ofU64]
    show (if n.toUInt64.toNat < UInt16.size then some n.toUInt64.toUInt16 else none) = some n
    rw [UInt16.toNat_toUInt64, if_pos n.toNat_lt, UInt16.toUInt16_toUInt64]
  · intro k
    cases k <;> exact .inl ⟨_, rfl⟩

/-! The records and the messages. -/

section
variable [AuthDeps] [ChronoDeps]

/-- `serde_json`, `uuid` and `chrono` read back what they write. -/
structure TextsRead : Prop where
  json : JsonText.Lawful
  uuid : ∀ id, AuthDeps.parseStr (AuthDeps.uuidText id) = some id
  time : ∀ t, Storage.InYears t → ChronoDeps.parseFromRfc3339 (ChronoDeps.toRfc3339 t) = some t

/-- The number that the text of `x` is read as. -/
def reread (x : Rat) : Rat := (JsonText.toF64 (JsonText.ofF64 x)).getD x

theorem transmits_uuid (h : TextsRead) (id : Uuid) : Transmits 0 id id := transmits_text (h.uuid id)

theorem transmits_time (h : TextsRead) {t : Time} (ht : Storage.InYears t) : Transmits 0 t t :=
  transmits_text (h.time t ht)

theorem transmits_progress (h : TextsRead) (x : Rat) : Transmits 0 x (reread x) := by
  obtain ⟨y, hy⟩ := Option.isSome_iff_exists.1 (h.json.toF64_ofF64 x)
  constructor
  · show JsonText.toF64 (JsonText.ofF64 x) = some (reread x)
    rw [reread, hy]
    rfl
  · intro n
    cases n <;> exact .inr ⟨x, rfl⟩

theorem transmits_team (h : TextsRead) {t : Team} (ht : Storage.InYears t.createdAt) : Transmits 1 t t := by
  have hid := transmits_uuid h t.id
  have hname := transmits_string t.name
  have hcode := transmits_string t.inviteCode
  have htime := transmits_time h ht
  refine transmits_record ?_ fun n => ?_
  · simp [readTeam, writeTeam, required, hid.reads, hname.reads, hcode.reads, htime.reads]
  · simp only [writeTeam, List.forall_mem_cons]
    exact ⟨hid.fits n, hname.fits n, hcode.fits n, htime.fits n, nofun⟩

theorem transmits_device (h : TextsRead) {d : Device} (hd : Storage.InYears d.lastSeen) : Transmits 1 d d := by
  have hid := transmits_uuid h d.id
  have hteam := transmits_uuid h d.teamId
  have hname := transmits_string d.name
  have hip : Transmits 0 d.publicIp d.publicIp := .option fun s _ => ⟨transmits_string s, nofun⟩
  have hport : Transmits 0 d.publicPort d.publicPort := .option fun n _ => ⟨transmits_uint16 h.json n, nofun⟩
  have hseen := transmits_time h hd
  have honline := transmits_bool d.isOnline
  refine transmits_record ?_ fun n => ?_
  · simp [readDevice, writeDevice, required, optional, hid.reads, hteam.reads, hname.reads, hip.reads, hport.reads,
      hseen.reads, honline.reads]
  · simp only [writeDevice, List.forall_mem_cons]
    exact ⟨hid.fits n, hteam.fits n, hname.fits n, hip.fits n, hport.fits n, hseen.fits n, honline.fits n, nofun⟩

theorem transmits_task (h : TextsRead) {t : Task} (ht : Storage.Storable t) :
    Transmits 1 t { t with progress := reread t.progress } := by
  have hid := transmits_uuid h t.id
  have hteam := transmits_uuid h t.teamId
  have hurl := transmits_string t.url
  have hstatus := transmits_status t.status
  have hby : Transmits 0 t.claimedBy t.claimedBy := .option fun id _ => ⟨transmits_uuid h id, nofun⟩
  have hat : Transmits 0 t.claimedAt t.claimedAt := .option fun u hu => ⟨transmits_time h (ht.claimedAt u hu), nofun⟩
  have hprogress := transmits_progress h t.progress
  have hpath : Transmits 0 t.localPath t.localPath := .option fun s _ => ⟨transmits_string s, nofun⟩
  have hsize : Transmits 0 t.fileSize t.fileSize := .option fun n hn => ⟨transmits_nat h.json (ht.fileSize n hn), nofun⟩
  have hcreator := transmits_uuid h t.createdBy
  have hcreated := transmits_time h ht.createdAt
  have hversion := transmits_nat h.json ht.version
  refine transmits_record ?_ fun n => ?_
  · simp [readTask, writeTask, required, optional, hid.reads, hteam.reads, hurl.reads, hstatus.reads, hby.reads,
      hat.reads, hprogress.reads, hpath.reads, hsize.reads, hcreator.reads, hcreated.reads, hversion.reads]
  · simp only [writeTask, List.forall_mem_cons]
    exact ⟨hid.fits n, hteam.fits n, hurl.fits n, hstatus.fits n, hby.fits n, hat.fits n, hprogress.fits n,
      hpath.fits n, hsize.fits n, hcreator.fits n, hcreated.fits n, hversion.fits n, nofun⟩

end

end Wire

/-- Its size is a `u64`. -/
def ClientMessage.Writable : ClientMessage → Prop
  | taskComplete _ _ fileSize => fileSize < UInt64.size
  | _ => True

/-- Its sizes and versions are `u64`, and its times have years of four digits. -/
def ServerMessage.Writable : ServerMessage → Prop
  | teamCreated team | teamJoined team => Storage.InYears team.createdAt
  | teamDevices devices => ∀ d ∈ devices, Storage.InYears d.lastSeen
  | taskAdded task | taskUpdated task => Storage.Storable task
  | fileAvailable _ _ _ _ _ size => size < UInt64.size
  | deviceOnline device => Storage.InYears device.lastSeen
  | _ => True

section
variable [JsonText]

/-- The message with its progress as it is read back. -/
def ClientMessage.reread : ClientMessage → ClientMessage
  | updateProgress taskId progress => updateProgress taskId (Wire.reread progress)
  | m => m

def ServerMessage.reread : ServerMessage → ServerMessage
  | taskAdded task => taskAdded { task with progress := Wire.reread task.progress }
  | taskUpdated task => taskUpdated { task with progress := Wire.reread task.progress }
  | m => m

end

namespace Wire
variable [JsonText] [AuthDeps] [ChronoDeps]

omit [ChronoDeps] in
theorem names_writeClientMessage (m : ClientMessage) :
    (writeClientMessage m).2.map (·.1) = clientFields (writeClientMessage m).1 := by
  cases m <;> rfl

theorem readClientMessage_write (h : TextsRead) {m : ClientMessage} (hm : m.Writable) :
    readClientMessage (writeClientMessage m).1 (writeClientMessage m).2 = some m.reread := by
  cases m with
  | register d t name =>
    simp [writeClientMessage, readClientMessage, required, (transmits_uuid h d).reads, (transmits_uuid h t).reads,
      (transmits_string name).reads, ClientMessage.reread]
  | createTeam s | joinTeam s | addTask s =>
    simp [writeClientMessage, readClientMessage, required, (transmits_string s).reads, ClientMessage.reread]
  | heartbeat id | claimTask id | requestFile id | leaveTeam id =>
    simp [writeClientMessage, readClientMessage, required, (transmits_uuid h id).reads, ClientMessage.reread]
  | updateProgress id x =>
    simp [writeClientMessage, readClientMessage, required, (transmits_uuid h id).reads,
      (transmits_progress h x).reads, ClientMessage.reread]
  | taskComplete id path size =>
    simp [writeClientMessage, readClientMessage, required, (transmits_uuid h id).reads,
      (transmits_string path).reads, (transmits_nat h.json hm).reads, ClientMessage.reread]

theorem transmits_clientMessage (h : TextsRead) {m : ClientMessage} (hm : m.Writable) : Transmits 1 m m.reread := by
  refine transmits_tagged ?_ ?_ fun n => ?_
  · cases m <;> simp [writeClientMessage]
  · exact readClientMessage_write h hm
  · cases m with
    | register d t name =>
      simp only [writeClientMessage, List.forall_mem_cons]
      exact ⟨(transmits_uuid h d).fits n, (transmits_uuid h t).fits n, (transmits_string name).fits n, nofun⟩
    | createTeam s | joinTeam s | addTask s =>
      simp only [writeClientMessage, List.forall_mem_cons]
      exact ⟨(transmits_string s).fits n, nofun⟩
    | heartbeat id | claimTask id | requestFile id | leaveTeam id =>
      simp only [writeClientMessage, List.forall_mem_cons]
      exact ⟨(transmits_uuid h id).fits n, nofun⟩
    | updateProgress id x =>
      simp only [writeClientMessage, List.forall_mem_cons]
      exact ⟨(transmits_uuid h id).fits n, (transmits_progress h x).fits n, nofun⟩
    | taskComplete id path size =>
      simp only [writeClientMessage, List.forall_mem_cons]
      exact ⟨(transmits_uuid h id).fits n, (transmits_string path).fits n, (transmits_nat h.json hm).fits n, nofun⟩

/-- A client that sends the values alone, in an array, is understood, too. -/
theorem client_array_read (h : TextsRead) (m : ClientMessage) (hm : m.Writable) :
    ofJson (.array (.string (writeClientMessage m).1 :: (writeClientMessage m).2.map (·.2))) = some m.reread := by
  show (fieldsOf (clientFields (writeClientMessage m).1) (.array ((writeClientMessage m).2.map (·.2)))).bind
    (fun o => readClientMessage (writeClientMessage m).1 o) = _
  rw [fieldsOf_array (names_writeClientMessage m)]
  exact readClientMessage_write h hm

/-- What a client sends is what the server reads. -/
theorem client_round_trip (h : TextsRead) (m : ClientMessage) (hm : m.Writable) : fromStr (toText m) = some m.reread :=
  (transmits_clientMessage h hm).fromStr_toText h.json (by decide)

theorem names_writeServerMessage (m : ServerMessage) :
    (writeServerMessage m).2.map (·.1) = serverFields (writeServerMessage m).1 := by
  cases m <;> rfl

theorem readServerMessage_write (h : TextsRead) {m : ServerMessage} (hm : m.Writable) :
    readServerMessage (writeServerMessage m).1 (writeServerMessage m).2 = some m.reread := by
  have huuid (id : Uuid) := transmits_uuid h id
  have hstring (s : String) := transmits_string s
  cases m with
  | registered id | deviceOffline id =>
    simp [writeServerMessage, readServerMessage, required, (huuid id).reads, ServerMessage.reread]
  | teamCreated t | teamJoined t =>
    simp [writeServerMessage, readServerMessage, required, (transmits_team h hm).reads, ServerMessage.reread]
  | teamDevices ds =>
    simp [writeServerMessage, readServerMessage, required, (Transmits.list fun d hd => transmits_device h (hm d hd)).reads,
      ServerMessage.reread]
  | taskAdded t | taskUpdated t =>
    simp [writeServerMessage, readServerMessage, required, (transmits_task h hm).reads, ServerMessage.reread]
  | taskClaimed id id' =>
    simp [writeServerMessage, readServerMessage, required, (huuid id).reads, (huuid id').reads, ServerMessage.reread]
  | taskReleased id s =>
    simp [writeServerMessage, readServerMessage, required, (huuid id).reads, (hstring s).reads, ServerMessage.reread]
  | fileAvailable id from' ip port name size =>
    simp [writeServerMessage, readServerMessage, required, (huuid id).reads, (huuid from').reads, (hstring ip).reads,
      (transmits_uint16 h.json port).reads, (hstring name).reads, (transmits_nat h.json hm).reads, ServerMessage.reread]
  | deviceOnline d =>
    simp [writeServerMessage, readServerMessage, required, (transmits_device h hm).reads, ServerMessage.reread]
  | error s => simp [writeServerMessage, readServerMessage, required, (hstring s).reads, ServerMessage.reread]

theorem transmits_serverMessage (h : TextsRead) {m : ServerMessage} (hm : m.Writable) : Transmits 3 m m.reread := by
  have huuid (id : Uuid) := (transmits_uuid h id).mono (Nat.zero_le 2)
  have hstring (s : String) := (transmits_string s).mono (Nat.zero_le 2)
  refine transmits_tagged ?_ ?_ fun n => ?_
  · cases m <;> simp [writeServerMessage]
  · exact readServerMessage_write h hm
  · cases m with
    | registered id | deviceOffline id =>
      simp only [writeServerMessage, List.forall_mem_cons]
      exact ⟨(huuid id).fits n, nofun⟩
    | teamCreated t | teamJoined t =>
      simp only [writeServerMessage, List.forall_mem_cons]
      exact ⟨((transmits_team h hm).mono (by decide)).fits n, nofun⟩
    | teamDevices ds =>
      simp only [writeServerMessage, List.forall_mem_cons]
      exact ⟨(Transmits.list fun d hd => transmits_device h (hm d hd)).fits n, nofun⟩
    | taskAdded t | taskUpdated t =>
      simp only [writeServerMessage, List.forall_mem_cons]
      exact ⟨((transmits_task h hm).mono (by decide)).fits n, nofun⟩
    | taskClaimed id id' =>
      simp only [writeServerMessage, List.forall_mem_cons]
      exact ⟨(huuid id).fits n, (huuid id').fits n, nofun⟩
    | taskReleased id s =>
      simp only [writeServerMessage, List.forall_mem_cons]
      exact ⟨(huuid id).fits n, (hstring s).fits n, nofun⟩
    | fileAvailable id from' ip port name size =>
      simp only [writeServerMessage, List.forall_mem_cons]
      exact ⟨(huuid id).fits n, (huuid from').fits n, (hstring ip).fits n,
        ((transmits_uint16 h.json port).mono (Nat.zero_le 2)).fits n, (hstring name).fits n,
        ((transmits_nat h.json hm).mono (Nat.zero_le 2)).fits n, nofun⟩
    | deviceOnline d =>
      simp only [writeServerMessage, List.forall_mem_cons]
      exact ⟨((transmits_device h hm).mono (by decide)).fits n, nofun⟩
    | error s =>
      simp only [writeServerMessage, List.forall_mem_cons]
      exact ⟨(hstring s).fits n, nofun⟩

theorem server_array_read (h : TextsRead) (m : ServerMessage) (hm : m.Writable) :
    ofJson (.array (.string (writeServerMessage m).1 :: (writeServerMessage m).2.map (·.2))) = some m.reread := by
  show (fieldsOf (serverFields (writeServerMessage m).1) (.array ((writeServerMessage m).2.map (·.2)))).bind
    (fun o => readServerMessage (writeServerMessage m).1 o) = _
  rw [fieldsOf_array (names_writeServerMessage m)]
  exact readServerMessage_write h hm

/-- What the server sends is what a client reads. -/
theorem server_round_trip (h : TextsRead) (m : ServerMessage) (hm : m.Writable) : fromStr (toText m) = some m.reread :=
  (transmits_serverMessage h hm).fromStr_toText h.json (by decide)

end Wire

namespace Sample

/-- The texts of 0 and of 1/2, and of any other number some digits. -/
def floatText (x : Rat) : List Char :=
  if x = 0 then "0.0".toList else if x = 1 / 2 then "0.5".toList else (toString x.num.natAbs).toList

/-- The reader of the development, with the numbers as their texts. -/
scoped instance jsonText : JsonText where
  Number := Token
  toString := Json.write
  toStringPretty fields := Json.pretty (fields.map fun f => (f.1, .string f.2))
  fromStr := Json.parse
  ofU64 n := (toString n.toNat).toList
  toU64 token := (Text.parseU64 (.ofList token)).map UInt64.ofNat
  ofF64 := floatText
  toF64 token := some (if token = "0.5".toList then 1 / 2 else if token = "0.0".toList then 0 else token.length)

theorem isNumber_floatText (x : Rat) : Json.isNumber (floatText x) = true := by
  unfold floatText
  split_ifs
  · decide
  · decide
  · exact Json.isNumber_toString _

theorem lawful_jsonText : JsonText.Lawful where
  fromStr_toString v h := Json.parse_write <| h.imp fun token htoken => by
    rcases htoken with ⟨n, rfl⟩ | ⟨x, rfl⟩
    · exact Json.isNumber_toString n.toNat
    · exact isNumber_floatText x
  toU64_ofU64 n := by
    show (Text.parseU64 (.ofList (toString n.toNat).toList)).map UInt64.ofNat = some n
    rw [String.ofList_toList, Text.parseU64_toString n.toNat_lt, Option.map_some, UInt64.ofNat_toNat]
  toF64_ofF64 _ := rfl

theorem textsRead : Wire.TextsRead where
  json := lawful_jsonText
  uuid := parseStr_uuidText
  time t _ := tableParse_tableText (by decide) (fun e he => ⟨'Z', by simp [List.mem_singleton.1 he], by decide⟩) t

end Sample

namespace Wire
open Sample

/-- A progress on its way. -/
theorem client_round_trip_progress :
    String.ofList (toText (ClientMessage.updateProgress 7 (1 / 2))) =
      "\x7b\"type\":\"UpdateProgress\",\"task_id\":\"00000000-0000-0000-0000-000000000007\",\"progress\":0.5\x7d" ∧
    fromStr (toText (ClientMessage.updateProgress 7 (1 / 2))) = some (ClientMessage.updateProgress 7 (1 / 2)) := by
  have hread := client_round_trip textsRead (.updateProgress 7 (1 / 2)) trivial
  rw [show (ClientMessage.updateProgress 7 (1 / 2)).reread = .updateProgress 7 (1 / 2) by decide +kernel] at hread
  exact ⟨by decide +kernel, hread⟩

/-- A new task on its way. -/
theorem server_round_trip_added :
    String.ofList (toText (ServerMessage.taskAdded (.new 7 0 "u\n" 10 1))) =
      "\x7b\"type\":\"TaskAdded\",\"task\":\x7b\"id\":\"00000000-0000-0000-0000-000000000007\"," ++
      "\"team_id\":\"00000000-0000-0000-0000-00000000000a\",\"url\":\"u\\n\",\"status\":\"New\"," ++
      "\"claimed_by\":null,\"claimed_at\":null,\"progress\":0.0,\"local_path\":null,\"file_size\":null," ++
      "\"created_by\":\"00000000-0000-0000-0000-000000000001\",\"created_at\":\"1970-01-01T00:00:00Z\"," ++
      "\"version\":1\x7d\x7d" ∧
    fromStr (toText (ServerMessage.taskAdded (.new 7 0 "u\n" 10 1))) =
      some (ServerMessage.taskAdded (.new 7 0 "u\n" 10 1)) :=
  ⟨by decide +kernel, server_round_trip textsRead (.taskAdded (.new 7 0 "u\n" 10 1))
    ⟨nofun, by decide, nofun, by decide⟩⟩

end Wire
end XVideoDownloader
