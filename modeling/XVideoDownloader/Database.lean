import XVideoDownloader.Types
import XVideoDownloader.Text
import XVideoDownloader.Lib.Table
import Mathlib.Data.List.Dedup

/-!
# The SQLite layer (`server/db.rs`)

The tables carry their `PRIMARY KEY` and `UNIQUE` constraints (`Lib.Table`); a row of `tasks` is the
`Task` that reading it back gives. Whether `FOREIGN KEY` clauses are enforced is a setting of the SQLite
build. Every statement can also fail for a reason of SQLite's own, whose text is the argument `fail`.
-/

namespace XVideoDownloader
open Lib

/-- `teams`: `id TEXT PRIMARY KEY`, `invite_code TEXT NOT NULL UNIQUE`. -/
abbrev Team.Clash (a b : Team) : Prop := a.id = b.id ∨ a.inviteCode = b.inviteCode

/-- `devices`: `id TEXT PRIMARY KEY`. -/
abbrev Device.Clash (a b : Device) : Prop := a.id = b.id

/-- `tasks`: `id TEXT PRIMARY KEY`, `url TEXT NOT NULL UNIQUE`. -/
abbrev Task.Clash (a b : Task) : Prop := a.id = b.id ∨ a.url = b.url

structure Database where
  teams : Table Team Team.Clash
  devices : Table Device Device.Clash
  tasks : Table Task Task.Clash
  foreignKeys : Bool
  deriving DecidableEq

namespace Task

/-- The columns that `update_task` sets, taken from `task`. -/
def overwrite (r task : Task) : Task :=
  { r with
    status := task.status, claimedBy := task.claimedBy, claimedAt := task.claimedAt,
    progress := task.progress, localPath := task.localPath, fileSize := task.fileSize,
    version := task.version }

/-- The columns that `release_task` sets. -/
def released (r : Task) : Task :=
  { r with status := .queued, claimedBy := none, claimedAt := none, progress := 0, version := r.version + 1 }

/-- The columns that no statement sets after `INSERT`. -/
structure SameIdentity (a b : Task) : Prop where
  id : a.id = b.id
  teamId : a.teamId = b.teamId
  url : a.url = b.url
  createdBy : a.createdBy = b.createdBy
  createdAt : a.createdAt = b.createdAt

theorem SameIdentity.refl (a : Task) : SameIdentity a a := ⟨rfl, rfl, rfl, rfl, rfl⟩

theorem SameIdentity.trans {a b c : Task} (h : SameIdentity a b) (h' : SameIdentity b c) :
    SameIdentity a c :=
  ⟨h.id.trans h'.id, h.teamId.trans h'.teamId, h.url.trans h'.url, h.createdBy.trans h'.createdBy,
    h.createdAt.trans h'.createdAt⟩

theorem sameIdentity_overwrite (r task : Task) : SameIdentity r (r.overwrite task) :=
  ⟨rfl, rfl, rfl, rfl, rfl⟩

theorem sameIdentity_assigned {task claimed : Task} {ownerId : Uuid} {now : Time}
    (h : claimed = { task with status := .claimed, claimedBy := some ownerId, claimedAt := some now }) :
    SameIdentity task claimed := by
  rw [h]
  exact ⟨rfl, rfl, rfl, rfl, rfl⟩

theorem sameIdentity_released (r : Task) : SameIdentity r r.released := ⟨rfl, rfl, rfl, rfl, rfl⟩

theorem overwrite_eq {r task : Task} (h : SameIdentity r task) : r.overwrite task = task := by
  cases task
  simp only [overwrite, mk.injEq]
  exact ⟨h.id, h.teamId, h.url, trivial, trivial, trivial, trivial, trivial, trivial, h.createdBy,
    h.createdAt, trivial⟩

end Task

namespace Database

def new (foreignKeys : Bool) : Database := ⟨.empty, .empty, .empty, foreignKeys⟩

/-- A statement under the connection's mutex; a failed one changes nothing. -/
def execute {α : Type} (fail : Option String) (db : Database)
    (stmt : Database → Except String (α × Database)) : Except String α × Database :=
  match fail with
  | some e => (.error e, db)
  | none =>
    match stmt db with
    | .error e => (.error e, db)
    | .ok (a, db') => (.ok a, db')

def query {α : Type} (fail : Option String) (db : Database) (f : Database → α) : Except String α × Database :=
  (match fail with
    | some e => .error e
    | none => .ok (f db), db)

/-- The `FOREIGN KEY (team_id) REFERENCES teams(id)` of `devices` and `tasks`. -/
def referencesTeam (db : Database) (teamId : Uuid) : Bool :=
  !db.foreignKeys || db.teams.rows.any fun t => t.id = teamId

/-! ### Teams -/

def createTeam (fail : Option String) (db : Database) (id : Uuid) (inviteCode : String) (now : Time)
    (name : String) : Except String Team × Database :=
  let team : Team := ⟨id, name, inviteCode, now⟩
  execute fail db fun db =>
    match db.teams.insert team with
    | some teams => .ok (team, { db with teams := teams })
    | none => .error ("UNIQUE constraint failed: teams." ++
        if db.teams.rows.any fun t => t.id = id then "id" else "invite_code")

def getTeamByCode (fail : Option String) (db : Database) (inviteCode : String) :
    Except String (Option Team) × Database :=
  query fail db fun db => db.teams.rows.find? fun t => t.inviteCode = inviteCode

/-! ### Devices -/

def validateIp (ip : String) : Except String Unit :=
  if Text.isIpAddr ip then .ok () else .error ("Invalid IP address: " ++ ip)

def validatePort (port : UInt16) : Except String Unit :=
  if port = 0 then .error "Port must be between 1 and 65535" else .ok ()

def validateDevice (device : Device) : Except String Unit := do
  if let some ip := device.publicIp then validateIp ip
  if let some port := device.publicPort then validatePort port

/-- `INSERT … ON CONFLICT(id) DO UPDATE`: the update leaves `team_id` as it was. -/
def upsertDevice (db : Database) (device : Device) : Except String (Unit × Database) :=
  match db.devices.insert device with
  | some devices =>
    if db.referencesTeam device.teamId then .ok ((), { db with devices := devices })
    else .error "FOREIGN KEY constraint failed"
  | none =>
    .ok ((), { db with
      devices := db.devices.modify (fun r => r.id = device.id)
        (fun r => { r with
          name := device.name, publicIp := device.publicIp, publicPort := device.publicPort,
          lastSeen := device.lastSeen, isOnline := device.isOnline })
        fun _ _ => ⟨Iff.rfl, Iff.rfl⟩ })

def registerDevice (fail : Option String) (db : Database) (device : Device) :
    Except String Unit × Database :=
  match validateDevice device with
  | .error e => (.error e, db)
  | .ok () => execute fail db fun db => db.upsertDevice device

def updateDeviceHeartbeat (fail : Option String) (db : Database) (now : Time) (deviceId : Uuid) :
    Except String Unit × Database :=
  execute fail db fun db => .ok ((), { db with
    devices := db.devices.modify (fun r => r.id = deviceId)
      (fun r => { r with lastSeen := now, isOnline := true }) fun _ _ => ⟨Iff.rfl, Iff.rfl⟩ })

def setDeviceOffline (fail : Option String) (db : Database) (deviceId : Uuid) :
    Except String Unit × Database :=
  execute fail db fun db => .ok ((), { db with
    devices := db.devices.modify (fun r => r.id = deviceId) (fun r => { r with isOnline := false })
      fun _ _ => ⟨Iff.rfl, Iff.rfl⟩ })

def getTeamDevices (fail : Option String) (db : Database) (teamId : Uuid) :
    Except String (List Device) × Database :=
  query fail db fun db => db.devices.rows.filter fun d => d.teamId = teamId

def getDeviceTeamId (fail : Option String) (db : Database) (deviceId : Uuid) :
    Except String (Option Uuid) × Database :=
  query fail db fun db => (db.devices.rows.find? fun d => d.id = deviceId).map (·.teamId)

def getDevice (fail : Option String) (db : Database) (deviceId : Uuid) :
    Except String (Option Device) × Database :=
  query fail db fun db => db.devices.rows.find? fun d => d.id = deviceId

/-- `SELECT DISTINCT team_id FROM devices`. -/
def getAllTeamIds (fail : Option String) (db : Database) : Except String (List Uuid) × Database :=
  query fail db fun db => (db.devices.rows.map (·.teamId)).dedup

/-! ### Tasks -/

def insertTask (db : Database) (task : Task) (teamId : Uuid) : Except String (Unit × Database) :=
  match db.tasks.insert { task with teamId := teamId } with
  | some tasks =>
    if db.referencesTeam teamId then .ok ((), { db with tasks := tasks })
    else .error "FOREIGN KEY constraint failed"
  | none => .error ("UNIQUE constraint failed: tasks." ++
      if db.tasks.rows.any fun r => r.id = task.id then "id" else "url")

/-- `create_task`: a violated uniqueness constraint is reported as a known URL. -/
def createTask (fail : Option String) (db : Database) (task : Task) (teamId : Uuid) :
    Except String Unit × Database :=
  let r := execute fail db fun db => db.insertTask task teamId
  (match r.1 with
    | .ok () => .ok ()
    | .error msg =>
      if Text.contains msg "UNIQUE constraint failed" then .error "URL already exists" else .error msg,
    r.2)

def setTask (db : Database) (id : Uuid) (f : Task → Task)
    (hf : ∀ r, (f r).id = r.id ∧ (f r).url = r.url) : Database :=
  { db with
    tasks := db.tasks.modify (fun r => r.id = id) f fun a b => by
      simp only [Task.Clash, (hf a).1, (hf a).2, and_true, iff_self] }

/-- `update_task`: the team argument is not used. -/
def updateTask (fail : Option String) (db : Database) (task : Task) (_teamId : Uuid) :
    Except String Unit × Database :=
  execute fail db fun db => .ok ((), db.setTask task.id (·.overwrite task) fun _ => ⟨rfl, rfl⟩)

def getTasksByTeam (fail : Option String) (db : Database) (teamId : Uuid) :
    Except String (List Task) × Database :=
  query fail db fun db => db.tasks.rows.filter fun r => r.teamId = teamId

def getClaimedTasks (fail : Option String) (db : Database) (teamId : Uuid) :
    Except String (List Task) × Database :=
  query fail db fun db => db.tasks.rows.filter fun r => r.teamId = teamId ∧ r.status = .claimed

def releaseTask (fail : Option String) (db : Database) (taskId : Uuid) : Except String Unit × Database :=
  execute fail db fun db => .ok ((), db.setTask taskId Task.released fun _ => ⟨rfl, rfl⟩)

end Database
end XVideoDownloader
