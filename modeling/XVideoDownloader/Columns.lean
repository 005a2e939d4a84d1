import XVideoDownloader.Storage
import XVideoDownloader.Lib.Encoded

/-!
# The database over its columns (`server/db.rs`)

Every call of the SQLite layer, on the values that it binds and reads. `Db.Represents n` relates the three tables of
columns to the rows of `Database`; while it holds, a call answers on the columns what it answers on the rows, errors
included, and keeps it. The number `n` bounds the versions: SQLite adds 1 to a version in 64 bits.
-/

namespace XVideoDownloader
open Lib

/-- The text of `uuid::Error` for what `Uuid::parse_str` refuses. -/
class UuidError where
  text : String → String

namespace Storage
open ColumnText

inductive TeamColumn
  | id
  | name
  | inviteCode
  | createdAt
  deriving DecidableEq

inductive DeviceColumn
  | id
  | teamId
  | name
  | publicIp
  | publicPort
  | lastSeen
  | isOnline
  deriving DecidableEq

abbrev TeamRow := TeamColumn → Value

abbrev DeviceRow := DeviceColumn → Value

/-- `id TEXT PRIMARY KEY`, `invite_code TEXT NOT NULL UNIQUE`. -/
abbrev TeamRow.Clash (a b : TeamRow) : Prop := a .id = b .id ∨ a .inviteCode = b .inviteCode

/-- `id TEXT PRIMARY KEY`. -/
abbrev DeviceRow.Clash (a b : DeviceRow) : Prop := a .id = b .id

structure Db where
  teams : Table TeamRow TeamRow.Clash
  devices : Table DeviceRow DeviceRow.Clash
  tasks : TaskTable
  foreignKeys : Bool

/-- `assign`, for the columns of any table. -/
def set {κ : Type} [DecidableEq κ] (columns : List κ) (params : List Value) (row : κ → Value) : κ → Value := fun c =>
  match (columns.zip params).find? fun x => x.1 = c with
  | some x => x.2
  | none => row c

/-- `v + 1`: a sum beyond 64 bits is a real number. No text is ever bound where it is used. -/
def addOne : Value → Value
  | .integer i => if i + 1 < 9223372036854775808 then .integer (i + 1) else .real (i + 1 : Int)
  | .real x => .real (x + 1)
  | v => v

/-! ### Rows -/

def outOfRange (n : Int) (i : Nat) : String := "Integer " ++ toString n ++ " out of range at index " ++ toString i

/-- `row.get::<_, u16>(i)`. -/
def getU16 (cols : List Value) (i : Nat) : Except String UInt16 :=
  match getInteger cols i with
  | .error e => .error e
  | .ok n => if 0 ≤ n ∧ n < 65536 then .ok (.ofNat n.toNat) else .error (outOfRange n i)

/-- `row.get::<_, i32>(i)`. -/
def getI32 (cols : List Value) (i : Nat) : Except String Int :=
  match getInteger cols i with
  | .error e => .error e
  | .ok n => if -2147483648 ≤ n ∧ n < 2147483648 then .ok n else .error (outOfRange n i)

section
variable [ColumnText]

def teamColumns : List TeamColumn := [.id, .name, .inviteCode, .createdAt]

def teamParams (team : Team) : List Value :=
  [.text (uuidText team.id), .text team.name, .text team.inviteCode, .text (toRfc3339 team.createdAt)]

def deviceColumns : List DeviceColumn := [.id, .teamId, .name, .publicIp, .publicPort, .lastSeen, .isOnline]

def deviceParams (device : Device) : List Value :=
  [.text (uuidText device.id), .text (uuidText device.teamId), .text device.name, bind .text device.publicIp,
    bind (fun port => .integer port.toNat) device.publicPort, .text (toRfc3339 device.lastSeen),
    .integer (if device.isOnline then 1 else 0)]

/-- The row of an `INSERT`. -/
def teamRow (team : Team) : TeamRow := set teamColumns (teamParams team) fun _ => .null

def deviceRow (device : Device) : DeviceRow := set deviceColumns (deviceParams device) fun _ => .null

def readTeam [UuidError] (cols : List Value) : Except String Team := do
  let text ← getText cols 0
  let id ← match parseStr text with
    | some id => .ok id
    | none => .error (UuidError.text text)
  let name ← getText cols 1
  let inviteCode ← getText cols 2
  let createdAt ← getTime cols 3
  return ⟨id, name, inviteCode, createdAt⟩

def readDevice (cols : List Value) : Except String Device := do
  let id ← getUuid cols 0
  let teamId ← getUuid cols 1
  let name ← getText cols 2
  let publicIp ← getOption getText cols 3
  let publicPort ← getOption getU16 cols 4
  let lastSeen ← getTime cols 5
  let isOnline ← getI32 cols 6
  return ⟨id, teamId, name, publicIp, publicPort, lastSeen, isOnline ≠ 0⟩

/-- The `DO UPDATE SET` of an upsert: the row takes these columns of `excluded`. -/
def takeExcluded (excluded row : DeviceRow) : DeviceRow :=
  let columns : List DeviceColumn := [.name, .publicIp, .publicPort, .lastSeen, .isOnline]
  set columns (columns.map excluded) row

/-- The `SET` of a heartbeat. -/
def heartbeatRow (now : Time) : DeviceRow → DeviceRow :=
  set [.lastSeen, .isOnline] [.text (toRfc3339 now), .integer 1]

omit [ColumnText] in
def offlineRow : DeviceRow → DeviceRow := set [.isOnline] [.integer 0]

omit [ColumnText] in
/-- The `SET` of `release_task`; `progress` is a column of real numbers. -/
def releaseRow (row : Row) : Row :=
  assign [.status, .claimedBy, .claimedAt, .progress, .version]
    [.text "Queued", .null, .null, .real 0, addOne (row .version)] row

end

/-! ### Calls -/

namespace Db

def new (foreignKeys : Bool) : Db := ⟨.empty, .empty, .empty, foreignKeys⟩

def execute {α : Type} (fail : Option String) (d : Db) (stmt : Db → Except String (α × Db)) : Except String α × Db :=
  match fail with
  | some e => (.error e, d)
  | none =>
    match stmt d with
    | .error e => (.error e, d)
    | .ok (a, d') => (.ok a, d')

def query {α : Type} (fail : Option String) (d : Db) (f : Db → Except String α) : Except String α × Db :=
  (match fail with
    | some e => .error e
    | none => f d, d)

variable [ColumnText]

def referencesTeam (d : Db) (teamId : Uuid) : Bool :=
  !d.foreignKeys || d.teams.rows.any fun row => row .id = .text (uuidText teamId)

def createTeam (fail : Option String) (d : Db) (id : Uuid) (inviteCode : String) (now : Time) (name : String) :
    Except String Team × Db :=
  let team : Team := ⟨id, name, inviteCode, now⟩
  execute fail d fun d =>
    match d.teams.insert (teamRow team) with
    | some teams => .ok (team, { d with teams := teams })
    | none => .error ("UNIQUE constraint failed: teams." ++
        if d.teams.rows.any fun row => row .id = .text (uuidText id) then "id" else "invite_code")

def getTeamByCode [UuidError] (fail : Option String) (d : Db) (inviteCode : String) : Except String (Option Team) × Db :=
  query fail d fun d =>
    match d.teams.rows.find? fun row => row .inviteCode = .text inviteCode with
    | some row => (readTeam (teamColumns.map row)).map some
    | none => .ok none

def upsertDevice (d : Db) (device : Device) : Except String (Unit × Db) :=
  match d.devices.insert (deviceRow device) with
  | some devices =>
    if d.referencesTeam device.teamId then .ok ((), { d with devices := devices })
    else .error "FOREIGN KEY constraint failed"
  | none =>
    .ok ((), { d with
      devices := d.devices.modify (fun row => row .id = .text (uuidText device.id)) (takeExcluded (deviceRow device))
        fun _ _ => ⟨Iff.rfl, Iff.rfl⟩ })

def registerDevice (fail : Option String) (d : Db) (device : Device) : Except String Unit × Db :=
  match Database.validateDevice device with
  | .error e => (.error e, d)
  | .ok () => execute fail d fun d => d.upsertDevice device

def updateDeviceHeartbeat (fail : Option String) (d : Db) (now : Time) (deviceId : Uuid) : Except String Unit × Db :=
  execute fail d fun d => .ok ((), { d with
    devices := d.devices.modify (fun row => row .id = .text (uuidText deviceId)) (heartbeatRow now)
      fun _ _ => ⟨Iff.rfl, Iff.rfl⟩ })

def setDeviceOffline (fail : Option String) (d : Db) (deviceId : Uuid) : Except String Unit × Db :=
  execute fail d fun d => .ok ((), { d with
    devices := d.devices.modify (fun row => row .id = .text (uuidText deviceId)) offlineRow
      fun _ _ => ⟨Iff.rfl, Iff.rfl⟩ })

def getTeamDevices (fail : Option String) (d : Db) (teamId : Uuid) : Except String (List Device) × Db :=
  query fail d fun d =>
    (d.devices.rows.filter fun row => row .teamId = .text (uuidText teamId)).mapM fun row =>
      readDevice (deviceColumns.map row)

def getDevice (fail : Option String) (d : Db) (deviceId : Uuid) : Except String (Option Device) × Db :=
  query fail d fun d =>
    match d.devices.rows.find? fun row => row .id = .text (uuidText deviceId) with
    | some row => (readDevice (deviceColumns.map row)).map some
    | none => .ok none

def getAllTeamIds (fail : Option String) (d : Db) : Except String (List Uuid) × Db :=
  query fail d fun d => (d.devices.rows.map (· .teamId)).dedup.mapM fun v => getUuid [v] 0

def insertTask (d : Db) (task : Task) (teamId : Uuid) : Except String (Unit × Db) :=
  match d.tasks.insert (assign insertColumns (insertParams task teamId) fun _ => .null) with
  | some tasks =>
    if d.referencesTeam teamId then .ok ((), { d with tasks := tasks }) else .error "FOREIGN KEY constraint failed"
  | none => .error ("UNIQUE constraint failed: tasks." ++
      if d.tasks.rows.any fun row => row .id = .text (uuidText task.id) then "id" else "url")

def createTask (fail : Option String) (d : Db) (task : Task) (teamId : Uuid) : Except String Unit × Db :=
  let r := execute fail d fun d => d.insertTask task teamId
  (match r.1 with
    | .ok () => .ok ()
    | .error msg =>
      if Text.contains msg "UNIQUE constraint failed" then .error "URL already exists" else .error msg,
    r.2)

def updateTask (fail : Option String) (d : Db) (task : Task) (_teamId : Uuid) : Except String Unit × Db :=
  execute fail d fun d => .ok ((), { d with
    tasks := d.tasks.modify (fun row => row .id = .text (uuidText task.id)) (assign updateColumns (updateParams task))
      (keepsKey_update task) })

def getTasksByTeam (fail : Option String) (d : Db) (teamId : Uuid) : Except String (List Task) × Db :=
  query fail d fun d => Storage.getTasksByTeam d.tasks teamId

def getClaimedTasks (fail : Option String) (d : Db) (teamId : Uuid) : Except String (List Task) × Db :=
  query fail d fun d => Storage.getClaimedTasks d.tasks teamId

def releaseTask (fail : Option String) (d : Db) (taskId : Uuid) : Except String Unit × Db :=
  execute fail d fun d => .ok ((), { d with
    tasks := d.tasks.modify (fun row => row .id = .text (uuidText taskId)) releaseRow fun _ _ => ⟨Iff.rfl, Iff.rfl⟩ })

end Db
end Storage

/-- Its times have years of four digits, its size is a `u64`, and its version is at most `n + 1`. -/
structure Task.Within (n : Nat) (task : Task) : Prop where
  claimedAt : ∀ t, task.claimedAt = some t → Storage.InYears t
  createdAt : Storage.InYears task.createdAt
  fileSize : ∀ size, task.fileSize = some size → size < UInt64.size
  version : task.version ≤ n + 1

namespace Task.Within
variable {n : Nat} {r task : Task}

theorem succ (h : task.Within n) : task.Within (n + 1) :=
  ⟨h.claimedAt, h.createdAt, h.fileSize, Nat.le_succ_of_le h.version⟩

theorem storable (h : task.Within n) (hn : n + 2 < 9223372036854775808) : Storage.Storable task := by
  refine ⟨h.claimedAt, h.createdAt, h.fileSize, ?_⟩
  have hversion := h.version
  show task.version < 18446744073709551616
  omega

theorem overwrite (hr : r.Within n) (h : task.Within n) : (r.overwrite task).Within n :=
  ⟨h.claimedAt, hr.createdAt, h.fileSize, h.version⟩

theorem released (h : task.Within n) : task.released.Within (n + 1) :=
  ⟨nofun, h.createdAt, h.fileSize, Nat.succ_le_succ h.version⟩

end Task.Within

structure Database.Within (n : Nat) (db : Database) : Prop where
  teams : ∀ team ∈ db.teams.rows, Storage.InYears team.createdAt
  devices : ∀ device ∈ db.devices.rows, Storage.InYears device.lastSeen
  tasks : ∀ task ∈ db.tasks.rows, task.Within n

namespace Storage
open ColumnText

theorem asI64_of_lt {n : Nat} (h : n < 9223372036854775808) : asI64 n = n := by
  have hnat : (BitVec.ofNat 64 n).toNat = n := (BitVec.toNat_ofNat ..).trans (Nat.mod_eq_of_lt (by omega))
  rw [asI64, BitVec.toInt_eq_toNat_of_lt (by rw [hnat]; omega), hnat]

theorem addOne_asI64 {n : Nat} (h : n + 1 < 9223372036854775808) : addOne (.integer (asI64 n)) = .integer (asI64 (n + 1)) := by
  have hsum : (n : Int) + 1 < 9223372036854775808 := by omega
  rw [asI64_of_lt (Nat.lt_of_succ_lt h), asI64_of_lt h, addOne, if_pos hsum]
  rfl

section
variable [ColumnText] {n : Nat} {team : Team} {device : Device}

theorem releaseRow_taskRow {task : Task} (h : task.Within n) (hn : n + 2 < 9223372036854775808) :
    releaseRow (taskRow task) = taskRow task.released := by
  have hversion := h.version
  funext c
  cases c <;> try rfl
  exact addOne_asI64 (by omega)

theorem readTeam_teamRow [UuidError] (hrt : TextRoundTrip) (ht : InYears team.createdAt) :
    readTeam (teamColumns.map (teamRow team)) = .ok team := by
  have hid : getText (teamColumns.map (teamRow team)) 0 = .ok (uuidText team.id) := rfl
  have hname : getText (teamColumns.map (teamRow team)) 1 = .ok team.name := rfl
  have hcode : getText (teamColumns.map (teamRow team)) 2 = .ok team.inviteCode := rfl
  have htime : getTime (teamColumns.map (teamRow team)) 3 = .ok team.createdAt := getTime_of_text hrt ht rfl
  simp only [readTeam, hid, hname, hcode, htime, hrt.uuid, Bind.bind, Except.bind]
  rfl

omit [ColumnText] in
theorem getU16_of_integer {cols : List Value} {i : Nat} (port : UInt16) (h : cols[i]? = some (.integer port.toNat)) :
    getU16 cols i = .ok port := by
  have hlt := port.toNat_lt
  have hrange : (0 : Int) ≤ port.toNat ∧ (port.toNat : Int) < 65536 := by omega
  simp only [getU16, getInteger, h, if_pos hrange, Int.toNat_natCast, UInt16.ofNat_toNat]

theorem readDevice_deviceRow (hrt : TextRoundTrip) (ht : InYears device.lastSeen) :
    readDevice (deviceColumns.map (deviceRow device)) = .ok device := by
  have hid : getUuid (deviceColumns.map (deviceRow device)) 0 = .ok device.id := getUuid_of_text hrt rfl
  have hteam : getUuid (deviceColumns.map (deviceRow device)) 1 = .ok device.teamId := getUuid_of_text hrt rfl
  have hname : getText (deviceColumns.map (deviceRow device)) 2 = .ok device.name := rfl
  have hip : getOption getText (deviceColumns.map (deviceRow device)) 3 = .ok device.publicIp :=
    getOption_bind rfl (fun _ => by simp) fun _ _ h => by simp only [getText, h]
  have hport : getOption getU16 (deviceColumns.map (deviceRow device)) 4 = .ok device.publicPort :=
    getOption_bind rfl (fun _ => by simp) fun port _ h => getU16_of_integer port h
  have hseen : getTime (deviceColumns.map (deviceRow device)) 5 = .ok device.lastSeen := getTime_of_text hrt ht rfl
  have honline : getI32 (deviceColumns.map (deviceRow device)) 6 = .ok (if device.isOnline then 1 else 0) := by
    cases h : device.isOnline <;> simp [getI32, getInteger, deviceColumns, deviceRow, set, deviceParams, h]
  simp only [readDevice, hid, hteam, hname, hip, hport, hseen, honline, Bind.bind, Except.bind]
  cases device with
  | mk id teamId name publicIp publicPort lastSeen isOnline => cases isOnline <;> rfl

theorem text_uuid_eq (hrt : TextRoundTrip) {a b : Uuid} : Value.text (uuidText a) = .text (uuidText b) ↔ a = b := by
  rw [Value.text.injEq]
  exact hrt.uuidText_inj

theorem clash_teamRow (hrt : TextRoundTrip) (a b : Team) :
    TeamRow.Clash (teamRow a) (teamRow b) ↔ Team.Clash a b :=
  or_congr (text_uuid_eq hrt) (Value.text.injEq .. ▸ Iff.rfl)

theorem clash_deviceRow (hrt : TextRoundTrip) (a b : Device) :
    DeviceRow.Clash (deviceRow a) (deviceRow b) ↔ Device.Clash a b :=
  text_uuid_eq hrt

namespace Db

/-- The columns hold the rows of `db`, no version of which is above `n + 1`. -/
structure Represents (n : Nat) (d : Db) (db : Database) : Prop where
  teams : Encodes teamRow (fun team => InYears team.createdAt) db.teams d.teams
  devices : Encodes deviceRow (fun device => InYears device.lastSeen) db.devices d.devices
  tasks : Encodes taskRow (Task.Within n) db.tasks d.tasks
  foreignKeys : d.foreignKeys = db.foreignKeys

/-- One answer on both levels, and columns that hold the rows. -/
def Matches {α : Type} (n : Nat) (r : Except String α × Db) (r' : Except String α × Database) : Prop :=
  r.1 = r'.1 ∧ Represents n r.2 r'.2

/-- The same of a statement. -/
inductive Agree {α : Type} (n : Nat) : Except String (α × Db) → Except String (α × Database) → Prop
  | error (e : String) : Agree n (.error e) (.error e)
  | ok (a : α) {d : Db} {db : Database} (h : Represents n d db) : Agree n (.ok (a, d)) (.ok (a, db))

namespace Represents
variable {d : Db} {db : Database} {α : Type}

/-- Every database within the bound can be stored. -/
theorem of_within (hrt : TextRoundTrip) (h : db.Within n) : ∃ d, Represents n d db :=
  ⟨⟨_, _, _, db.foreignKeys⟩, .of (clash_teamRow hrt) h.teams, .of (clash_deviceRow hrt) h.devices,
    .of (fun _ _ => Represents.clash_taskRow hrt) h.tasks, rfl⟩

theorem new (foreignKeys : Bool) : Represents n (.new foreignKeys) (.new foreignKeys) :=
  ⟨.empty, .empty, .empty, rfl⟩

theorem succ (h : Represents n d db) : Represents (n + 1) d db :=
  ⟨h.teams, h.devices, h.tasks.mono fun _ => Task.Within.succ, h.foreignKeys⟩

theorem execute (h : Represents n d db) (fail : Option String) {stmt : Db → Except String (α × Db)}
    {stmt' : Database → Except String (α × Database)} (hstmt : Agree (n + 1) (stmt d) (stmt' db)) :
    Matches (n + 1) (execute fail d stmt) (db.execute fail stmt') := by
  cases fail with
  | some e => exact ⟨rfl, h.succ⟩
  | none =>
    simp only [Db.execute, Database.execute]
    generalize stmt d = r, stmt' db = r' at hstmt
    cases hstmt with
    | error e => exact ⟨rfl, h.succ⟩
    | ok a hres => exact ⟨rfl, hres⟩

theorem query (h : Represents n d db) (fail : Option String) {f : Db → Except String α} {f' : Database → α}
    (hf : f d = .ok (f' db)) : Matches (n + 1) (query fail d f) (db.query fail f') := by
  cases fail with
  | some e => exact ⟨rfl, h.succ⟩
  | none => exact ⟨hf, h.succ⟩

theorem referencesTeam (hrt : TextRoundTrip) (h : Represents n d db) (teamId : Uuid) :
    d.referencesTeam teamId = db.referencesTeam teamId := by
  rw [Db.referencesTeam, Database.referencesTeam, h.foreignKeys, h.teams.any fun _ => text_uuid_eq hrt]

/-! ### Teams -/

theorem createTeam (hrt : TextRoundTrip) (h : Represents n d db) (fail : Option String) (id : Uuid) (code : String)
    {now : Time} (hnow : InYears now) (name : String) :
    Matches (n + 1) (d.createTeam fail id code now name) (db.createTeam fail id code now name) := by
  refine h.execute fail ?_
  cases hins : db.teams.insert ⟨id, name, code, now⟩ with
  | some teams =>
    obtain ⟨teams', hins', henc⟩ := h.teams.insert_some (clash_teamRow hrt) hins hnow
    simp only [hins']
    exact .ok _ ⟨henc, h.devices, h.succ.tasks, h.foreignKeys⟩
  | none =>
    have hany : (d.teams.rows.any fun row => row .id = .text (uuidText id)) = db.teams.rows.any fun t => t.id = id :=
      h.teams.any fun _ => text_uuid_eq hrt
    simp only [h.teams.insert_none (clash_teamRow hrt) hins, hany]
    exact .error _

theorem getTeamByCode [UuidError] (hrt : TextRoundTrip) (h : Represents n d db) (fail : Option String) (code : String) :
    Matches (n + 1) (d.getTeamByCode fail code) (db.getTeamByCode fail code) := by
  refine h.query fail ?_
  rw [h.teams.find? (p := fun t => t.inviteCode = code) fun t => Value.text.injEq .. ▸ Iff.rfl]
  cases hfind : db.teams.rows.find? fun t => t.inviteCode = code with
  | none => rfl
  | some team =>
    simp only [Option.map_some, readTeam_teamRow hrt (h.teams.ok team (List.mem_of_find?_eq_some hfind))]
    rfl

/-! ### Devices -/

theorem upsertDevice (hrt : TextRoundTrip) (h : Represents n d db) {device : Device} (hs : InYears device.lastSeen) :
    Agree (n + 1) (d.upsertDevice device) (db.upsertDevice device) := by
  unfold Db.upsertDevice Database.upsertDevice
  cases hins : db.devices.insert device with
  | some devices =>
    obtain ⟨devices', hins', henc⟩ := h.devices.insert_some (clash_deviceRow hrt) hins hs
    simp only [hins', h.referencesTeam hrt]
    split
    · exact .ok _ ⟨h.teams, henc, h.succ.tasks, h.foreignKeys⟩
    · exact .error _
  | none =>
    simp only [h.devices.insert_none (clash_deviceRow hrt) hins]
    refine .ok _ ⟨h.teams, h.devices.update rfl rfl (fun _ => id) (fun _ => text_uuid_eq hrt) (fun r _ => ?_) fun _ _ => hs,
      h.succ.tasks, h.foreignKeys⟩
    funext c
    cases c <;> rfl

theorem registerDevice (hrt : TextRoundTrip) (h : Represents n d db) (fail : Option String) {device : Device}
    (hs : InYears device.lastSeen) :
    Matches (n + 1) (d.registerDevice fail device) (db.registerDevice fail device) := by
  unfold Db.registerDevice Database.registerDevice
  cases Database.validateDevice device with
  | error e => exact ⟨rfl, h.succ⟩
  | ok => exact h.execute fail (h.upsertDevice hrt hs)

theorem updateDeviceHeartbeat (hrt : TextRoundTrip) (h : Represents n d db) (fail : Option String) {now : Time}
    (hnow : InYears now) (deviceId : Uuid) :
    Matches (n + 1) (d.updateDeviceHeartbeat fail now deviceId) (db.updateDeviceHeartbeat fail now deviceId) := by
  refine h.execute fail (.ok _ ⟨h.teams, ?_, h.succ.tasks, h.foreignKeys⟩)
  refine h.devices.update rfl rfl (fun _ => id) (fun _ => text_uuid_eq hrt) (fun r _ => ?_) fun _ _ => hnow
  funext c
  cases c <;> rfl

theorem setDeviceOffline (hrt : TextRoundTrip) (h : Represents n d db) (fail : Option String) (deviceId : Uuid) :
    Matches (n + 1) (d.setDeviceOffline fail deviceId) (db.setDeviceOffline fail deviceId) := by
  refine h.execute fail (.ok _ ⟨h.teams, ?_, h.succ.tasks, h.foreignKeys⟩)
  refine h.devices.update rfl rfl (fun _ => id) (fun _ => text_uuid_eq hrt) (fun r _ => ?_) fun _ hr => hr
  funext c
  cases c <;> rfl

theorem getTeamDevices (hrt : TextRoundTrip) (h : Represents n d db) (fail : Option String) (teamId : Uuid) :
    Matches (n + 1) (d.getTeamDevices fail teamId) (db.getTeamDevices fail teamId) :=
  h.query fail (h.devices.filter_mapM (fun _ => text_uuid_eq hrt) fun _ => readDevice_deviceRow hrt)

theorem getDevice (hrt : TextRoundTrip) (h : Represents n d db) (fail : Option String) (deviceId : Uuid) :
    Matches (n + 1) (d.getDevice fail deviceId) (db.getDevice fail deviceId) := by
  refine h.query fail ?_
  rw [h.devices.find? (p := fun device => device.id = deviceId) fun _ => text_uuid_eq hrt]
  cases hfind : db.devices.rows.find? fun device => device.id = deviceId with
  | none => rfl
  | some device =>
    simp only [Option.map_some, readDevice_deviceRow hrt (h.devices.ok device (List.mem_of_find?_eq_some hfind))]
    rfl

theorem getAllTeamIds (hrt : TextRoundTrip) (h : Represents n d db) (fail : Option String) :
    Matches (n + 1) (d.getAllTeamIds fail) (db.getAllTeamIds fail) :=
  h.query fail (h.devices.dedup_map (fun _ => rfl) fun _ => getUuid_of_text hrt rfl)

/-! ### Tasks -/

theorem insertTask (hrt : TextRoundTrip) (h : Represents n d db) {task : Task} (ht : task.Within (n + 1))
    (teamId : Uuid) : Agree (n + 1) (d.insertTask task teamId) (db.insertTask task teamId) := by
  have henc := h.succ.tasks
  unfold Db.insertTask Database.insertTask
  cases hins : db.tasks.insert { task with teamId := teamId } with
  | some tasks =>
    obtain ⟨tasks', hins', henc'⟩ := henc.insert_some (fun _ _ => Represents.clash_taskRow hrt) hins
      ⟨ht.claimedAt, ht.createdAt, ht.fileSize, ht.version⟩
    have hins' : d.tasks.insert (assign insertColumns (insertParams task teamId) fun _ => .null) = some tasks' := hins'
    simp only [hins', h.referencesTeam hrt]
    split
    · exact .ok _ ⟨h.teams, h.devices, henc', h.foreignKeys⟩
    · exact .error _
  | none =>
    have hins' : d.tasks.insert (taskRow { task with teamId := teamId }) = none :=
      henc.insert_none (fun _ _ => Represents.clash_taskRow hrt) hins
    have hins' : d.tasks.insert (assign insertColumns (insertParams task teamId) fun _ => .null) = none := hins'
    have hany : (d.tasks.rows.any fun row => row .id = .text (uuidText task.id)) =
        db.tasks.rows.any fun r => r.id = task.id := henc.any fun _ => text_uuid_eq hrt
    simp only [hins', hany]
    exact .error _

theorem createTask (hrt : TextRoundTrip) (h : Represents n d db) (fail : Option String) {task : Task}
    (ht : task.Within (n + 1)) (teamId : Uuid) :
    Matches (n + 1) (d.createTask fail task teamId) (db.createTask fail task teamId) := by
  have hstmt : Matches (n + 1) (Db.execute fail d fun d => d.insertTask task teamId)
      (db.execute fail fun db => db.insertTask task teamId) := h.execute fail (h.insertTask hrt ht teamId)
  refine ⟨?_, hstmt.2⟩
  cases hres : (Database.execute fail db fun db => db.insertTask task teamId).1 <;>
    simp only [Db.createTask, Database.createTask, hstmt.1, hres]

theorem updateTask (hrt : TextRoundTrip) (h : Represents n d db) (fail : Option String) {task : Task}
    (ht : task.Within (n + 1)) (teamId : Uuid) :
    Matches (n + 1) (d.updateTask fail task teamId) (db.updateTask fail task teamId) :=
  h.execute fail (.ok _ ⟨h.teams, h.devices, h.tasks.update rfl rfl (fun _ => Task.Within.succ) (fun _ => text_uuid_eq hrt)
    (fun r _ => assign_taskRow r task) fun _ hr => hr.succ.overwrite ht, h.foreignKeys⟩)

theorem releaseTask (hrt : TextRoundTrip) (h : Represents n d db) (hn : n + 2 < 9223372036854775808) (fail : Option String)
    (taskId : Uuid) : Matches (n + 1) (d.releaseTask fail taskId) (db.releaseTask fail taskId) :=
  h.execute fail (.ok _ ⟨h.teams, h.devices, h.tasks.update rfl rfl (fun _ => Task.Within.succ) (fun _ => text_uuid_eq hrt)
    (fun _ hr => releaseRow_taskRow hr hn) fun _ => Task.Within.released, h.foreignKeys⟩)

theorem getTasksByTeam (hrt : TextRoundTrip) (h : Represents n d db) (hn : n + 2 < 9223372036854775808) (fail : Option String)
    (teamId : Uuid) : Matches (n + 1) (d.getTasksByTeam fail teamId) (db.getTasksByTeam fail teamId) :=
  h.query fail (h.tasks.filter_mapM (fun _ => text_uuid_eq hrt) fun _ hr => readTask_taskRow hrt (hr.storable hn))

theorem getClaimedTasks (hrt : TextRoundTrip) (h : Represents n d db) (hn : n + 2 < 9223372036854775808) (fail : Option String)
    (teamId : Uuid) : Matches (n + 1) (d.getClaimedTasks fail teamId) (db.getClaimedTasks fail teamId) :=
  h.query fail (h.tasks.filter_mapM (fun _ => and_congr (text_uuid_eq hrt) (Value.text.injEq .. ▸ debugStatus_eq_claimed))
    fun _ hr => readTask_taskRow hrt (hr.storable hn))

end Represents
end Db
end
end Storage
end XVideoDownloader
