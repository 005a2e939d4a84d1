/-!
# Core types of the collaboration module (`collaboration/types.rs`)

Identifiers are 128-bit UUIDs. A `DateTime<Utc>` is the signed number of nanoseconds since the epoch. The
`f64` progress values come out of JSON text, so they are finite: they are kept as the rationals they are,
and only ever stored and compared. `version` and `file_size` (`u64`) are naturals: the code adds 1 to a
version and never computes with a size.
-/

namespace XVideoDownloader

def Uuid := BitVec 128
  deriving DecidableEq

instance (n : Nat) : OfNat Uuid n := ⟨BitVec.ofNat 128 n⟩

def Uuid.nil : Uuid := 0

/-- `DateTime<Utc>`, in nanoseconds. -/
abbrev Time := Int

/-- `chrono::Duration::num_minutes`: whole seconds, then whole minutes, both rounded towards zero. -/
def numMinutes (d : Int) : Int := (d.tdiv 1000000000).tdiv 60

/-- Seconds since the epoch, as `SystemTime::duration_since(UNIX_EPOCH).as_secs()`. -/
def Time.asSecs (t : Time) : Nat := (t / 1000000000).toNat

structure Team where
  id : Uuid
  name : String
  inviteCode : String
  createdAt : Time
  deriving DecidableEq

structure Device where
  id : Uuid
  teamId : Uuid
  name : String
  publicIp : Option String
  publicPort : Option UInt16
  lastSeen : Time
  isOnline : Bool
  deriving DecidableEq

inductive TaskStatus
  | new
  | queued
  | claimed
  | complete
  | failed
  deriving DecidableEq

structure Task where
  id : Uuid
  teamId : Uuid
  url : String
  status : TaskStatus
  claimedBy : Option Uuid
  claimedAt : Option Time
  progress : Rat
  localPath : Option String
  fileSize : Option Nat
  createdBy : Uuid
  createdAt : Time
  version : Nat
  deriving DecidableEq

def Task.new (id : Uuid) (now : Time) (url : String) (teamId createdBy : Uuid) : Task where
  id := id
  teamId := teamId
  url := url
  status := .new
  claimedBy := none
  claimedAt := none
  progress := 0
  localPath := none
  fileSize := none
  createdBy := createdBy
  createdAt := now
  version := 1

inductive ClientMessage
  | register (deviceId teamId : Uuid) (name : String)
  | createTeam (name : String)
  | joinTeam (inviteCode : String)
  | heartbeat (deviceId : Uuid)
  | addTask (url : String)
  | claimTask (taskId : Uuid)
  | updateProgress (taskId : Uuid) (progress : Rat)
  | taskComplete (taskId : Uuid) (localPath : String) (fileSize : Nat)
  | requestFile (taskId : Uuid)
  | leaveTeam (deviceId : Uuid)
  deriving DecidableEq

inductive ServerMessage
  | registered (deviceId : Uuid)
  | teamCreated (team : Team)
  | teamJoined (team : Team)
  | teamDevices (devices : List Device)
  | taskAdded (task : Task)
  | taskClaimed (taskId deviceId : Uuid)
  | taskUpdated (task : Task)
  | taskReleased (taskId : Uuid) (reason : String)
  | fileAvailable (taskId fromDevice : Uuid) (ip : String) (port : UInt16) (filename : String)
      (size : Nat)
  | deviceOnline (device : Device)
  | deviceOffline (deviceId : Uuid)
  | error (message : String)
  deriving DecidableEq

/-- Two readings at least five minutes apart are exactly those whose distance counts five whole
minutes. -/
theorem five_le_numMinutes (d : Int) : 5 ≤ numMinutes d ↔ 300000000000 ≤ d := by
  unfold numMinutes
  rcases Int.le_total 0 d with h0 | h0
  · rw [Int.tdiv_eq_ediv_of_nonneg h0, Int.tdiv_eq_ediv_of_nonneg (by omega)]
    omega
  · have h1 : 0 ≤ (-d).tdiv 1000000000 := Int.tdiv_nonneg (by omega) (by decide)
    rw [Int.neg_tdiv] at h1
    have h2 : 0 ≤ (-d.tdiv 1000000000).tdiv 60 := Int.tdiv_nonneg h1 (by decide)
    rw [Int.neg_tdiv] at h2
    omega

end XVideoDownloader
