import XVideoDownloader.Auth
import XVideoDownloader.HashRing
import XVideoDownloader.Database
import XVideoDownloader.Lib.Pool

/-!
# The server's state and its atomic operations (`server/handler.rs`, `server/db.rs`)

`Server` is what the handlers of all connections share. `Op` lists what they do to it in one go: one
`Database` call, one critical section of the `sessions` lock, one of the `hash_ring` lock, or one reading
of the clock or of the random source. `Server.act` says what an operation answers and does; `Env` is what
the outside decides about it. What a session's channel was sent is kept in `sent`, oldest first.
-/

namespace XVideoDownloader
open Lib

/-- The text of the random UUID a connection gets. -/
abbrev SessionKey := Uuid

structure Session where
  key : SessionKey
  deviceId : Uuid
  teamId : Uuid
  deriving DecidableEq

structure Server where
  db : Database
  sessions : Table Session fun a b => a.key = b.key
  hashRing : HashRing
  sent : List (SessionKey × ServerMessage)
  deriving DecidableEq

/-- The outside's part in one operation: a fresh UUID, an invite code, the clock, and the error of a
database call that fails. -/
structure Env where
  uuid : Uuid
  code : String
  now : Time
  fail : Option String

inductive Op
  | newV4
  | now
  | createTeam (name : String)
  | getTeamByCode (inviteCode : String)
  | registerDevice (device : Device)
  | updateDeviceHeartbeat (deviceId : Uuid)
  | setDeviceOffline (deviceId : Uuid)
  | getDevice (deviceId : Uuid)
  | getAllTeamIds
  | createTask (task : Task) (teamId : Uuid)
  | updateTask (task : Task) (teamId : Uuid)
  | getTasksByTeam (teamId : Uuid)
  | getClaimedTasks (teamId : Uuid)
  | releaseTask (taskId : Uuid)
  | getSession (key : SessionKey)
  | setTeam (key : SessionKey) (teamId : Uuid)
  | evictDevice (deviceId : Uuid)
  | insertSession (key : SessionKey) (deviceId teamId : Uuid)
  | updateSession (key : SessionKey) (deviceId teamId : Uuid)
  | removeSession (key : SessionKey)
  | sendToDevice (deviceId : Uuid) (message : ServerMessage)
  | broadcastToTeam (teamId : Uuid) (message : ServerMessage)
  | sendError (key : SessionKey) (message : String)
  | getOwner (url : String)
  | removeDevice (deviceId : Uuid)

@[reducible] def Op.Ans : Op → Type
  | newV4 => Uuid
  | now => Time
  | createTeam _ => Except String Team
  | getTeamByCode _ => Except String (Option Team)
  | getDevice _ => Except String (Option Device)
  | getAllTeamIds => Except String (List Uuid)
  | getTasksByTeam _ | getClaimedTasks _ => Except String (List Task)
  | registerDevice _ | updateDeviceHeartbeat _ | setDeviceOffline _ | createTask _ _ | updateTask _ _
  | releaseTask _ => Except String Unit
  | getSession _ => Option Session
  | getOwner _ => Option Uuid
  | setTeam _ _ | evictDevice _ | insertSession _ _ _ | updateSession _ _ _ | removeSession _
  | sendToDevice _ _ | broadcastToTeam _ _ | sendError _ _ | removeDevice _ => Unit

namespace Server

def new (foreignKeys : Bool) : Server := ⟨.new foreignKeys, .empty, HashRing.new, []⟩

def session (s : Server) (key : SessionKey) : Option Session := s.sessions.rows.find? fun x => x.key = key

def setSession (s : Server) (key : SessionKey) (f : Session → Session) (hf : ∀ x, (f x).key = x.key) :
    Server :=
  { s with
    sessions := s.sessions.modify (fun x => x.key = key) f fun a b => by simp only [hf a, iff_self, and_self] }

/-- `tx.send(message)` for every session that `p` selects. -/
def post (s : Server) (p : Session → Bool) (message : ServerMessage) : Server :=
  { s with sent := s.sent ++ (s.sessions.rows.filter p).map fun x => (x.key, message) }

def onDb {α : Type} (s : Server) (r : α × Database) : α × Server := (r.1, { s with db := r.2 })

variable [DefaultHasher]

def act : (o : Op) → Env → Server → o.Ans × Server
  | .newV4, e, s => (e.uuid, s)
  | .now, e, s => (e.now, s)
  | .createTeam name, e, s => s.onDb (s.db.createTeam e.fail e.uuid e.code e.now name)
  | .getTeamByCode code, e, s => s.onDb (s.db.getTeamByCode e.fail code)
  | .registerDevice device, e, s => s.onDb (s.db.registerDevice e.fail device)
  | .updateDeviceHeartbeat id, e, s => s.onDb (s.db.updateDeviceHeartbeat e.fail e.now id)
  | .setDeviceOffline id, e, s => s.onDb (s.db.setDeviceOffline e.fail id)
  | .getDevice id, e, s => s.onDb (s.db.getDevice e.fail id)
  | .getAllTeamIds, e, s => s.onDb (s.db.getAllTeamIds e.fail)
  | .createTask task teamId, e, s => s.onDb (s.db.createTask e.fail task teamId)
  | .updateTask task teamId, e, s => s.onDb (s.db.updateTask e.fail task teamId)
  | .getTasksByTeam teamId, e, s => s.onDb (s.db.getTasksByTeam e.fail teamId)
  | .getClaimedTasks teamId, e, s => s.onDb (s.db.getClaimedTasks e.fail teamId)
  | .releaseTask id, e, s => s.onDb (s.db.releaseTask e.fail id)
  | .getSession key, _, s => (s.session key, s)
  | .setTeam key teamId, _, s => ((), s.setSession key ({ · with teamId := teamId }) fun _ => rfl)
  | .evictDevice deviceId, _, s => ((), { s with sessions := s.sessions.delete fun x => x.deviceId = deviceId })
  | .insertSession key deviceId teamId, _, s =>
    ((), { s with sessions := s.sessions.put ⟨key, deviceId, teamId⟩ })
  | .updateSession key deviceId teamId, _, s =>
    ((), s.setSession key ({ · with deviceId := deviceId, teamId := teamId }) fun _ => rfl)
  | .removeSession key, _, s => ((), { s with sessions := s.sessions.delete fun x => x.key = key })
  | .sendToDevice deviceId message, _, s => ((), s.post (fun x => x.deviceId = deviceId) message)
  | .broadcastToTeam teamId message, _, s => ((), s.post (fun x => x.teamId = teamId) message)
  | .sendError key message, _, s => ((), s.post (fun x => x.key = key) (.error message))
  | .getOwner url, _, s => (s.hashRing.getOwner url, s)
  | .removeDevice deviceId, _, s => ((), { s with hashRing := s.hashRing.removeDevice deviceId })

end Server

abbrev M := Prog Op.Ans

def call (o : Op) : M o.Ans := .op o

end XVideoDownloader
