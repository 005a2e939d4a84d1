import XVideoDownloader.Server

/-!
# The message handlers (`server/handler.rs`) and the connection loop (`server/ws.rs`)

Each handler is written as the source has it, over the operations of `Server.lean`; `return` stands for
the source's early returns, and what the source only logs is left out.
-/

namespace XVideoDownloader
open Lib

namespace MessageHandler

def registerClient (key : SessionKey) (deviceId teamId : Uuid) : M Unit := do
  if deviceId ≠ Uuid.nil then
    call (.evictDevice deviceId)
  call (.insertSession key deviceId teamId)

def handleHeartbeat (deviceId : Uuid) : M Unit := do
  let _ ← call (.updateDeviceHeartbeat deviceId)

/-- The common end of creating and joining a team: the session moves to the team and is told so, then a
device row is written. Its id is the nil UUID: the device's own is never filled in. -/
def enterTeam (key : SessionKey) (team : Team) (message : ServerMessage) (name : String) : M Unit := do
  if let some session ← call (.getSession key) then
    call (.setTeam key team.id)
    call (.sendToDevice session.deviceId message)
  let now ← call .now
  let _ ← call (.registerDevice
    { id := Uuid.nil, teamId := team.id, name := name, publicIp := none, publicPort := none,
      lastSeen := now, isOnline := true })

def handleCreateTeam (key : SessionKey) (name : String) : M Unit := do
  match ← call (.createTeam name) with
  | .ok team => enterTeam key team (.teamCreated team) name
  | .error e => call (.sendError key ("创建团队失败: " ++ e))

def handleJoinTeam (key : SessionKey) (inviteCode : String) : M Unit := do
  match ← call (.getTeamByCode inviteCode) with
  | .ok (some team) => enterTeam key team (.teamJoined team) "NewDevice"
  | .ok none => call (.sendError key "邀请码无效")
  | .error e => call (.sendError key ("查询团队失败: " ++ e))

def handleAddTask (deviceId teamId : Uuid) (url : String) : M Unit := do
  let id ← call .newV4
  let now ← call .now
  let task := { Task.new id now url teamId deviceId with status := .queued }
  match ← call (.createTask task teamId) with
  | .error e =>
    let errorMsg := if Text.contains e "URL already exists" then "URL already exists"
      else "Failed to create task: " ++ e
    call (.sendToDevice deviceId (.error errorMsg))
  | .ok () =>
    match ← call (.getOwner task.url) with
    | some ownerId =>
      let now ← call .now
      let task := { task with status := .claimed, claimedBy := some ownerId, claimedAt := some now }
      -- the result of the update is discarded
      let _ ← call (.updateTask task teamId)
      call (.sendToDevice ownerId (.taskClaimed task.id ownerId))
      call (.broadcastToTeam teamId (.taskAdded task))
    | none => call (.broadcastToTeam teamId (.taskAdded task))

def handleClaimTask (deviceId teamId taskId : Uuid) : M Unit := do
  if let .ok tasks ← call (.getTasksByTeam teamId) then
    if let some task := tasks.find? fun t => t.id = taskId then
      if task.status ≠ .queued then
        call (.sendToDevice deviceId (.error "Task not available"))
        return
      let now ← call .now
      let task := { task with
        status := .claimed, claimedBy := some deviceId, claimedAt := some now, version := task.version + 1 }
      if let .error _ ← call (.updateTask task teamId) then
        return
      call (.broadcastToTeam teamId (.taskClaimed taskId deviceId))
      return
  call (.sendToDevice deviceId (.error "Task not found"))

def handleUpdateProgress (deviceId teamId taskId : Uuid) (progress : Rat) : M Unit := do
  if let .ok tasks ← call (.getTasksByTeam teamId) then
    if let some task := tasks.find? fun t => t.id = taskId then
      if task.claimedBy ≠ some deviceId then
        return
      let task := { task with progress := progress, version := task.version + 1 }
      if let .error _ ← call (.updateTask task teamId) then
        return
      call (.broadcastToTeam teamId (.taskUpdated task))

def handleTaskComplete (deviceId teamId taskId : Uuid) (localPath : String) (fileSize : Nat) : M Unit := do
  if let .ok tasks ← call (.getTasksByTeam teamId) then
    if let some task := tasks.find? fun t => t.id = taskId then
      if task.claimedBy ≠ some deviceId then
        return
      let task := { task with
        status := .complete, localPath := some localPath, fileSize := some fileSize, progress := 1,
        version := task.version + 1 }
      if let .error _ ← call (.updateTask task teamId) then
        return
      call (.broadcastToTeam teamId (.taskUpdated task))

def handleRequestFile (deviceId teamId taskId : Uuid) : M Unit := do
  if let .ok tasks ← call (.getTasksByTeam teamId) then
    if let some task := tasks.find? fun t => t.id = taskId then
      if let some ownerId := task.claimedBy then
        let (ip, port) ← do
          match ← call (.getDevice ownerId) with
          | .ok (some owner) => pure (owner.publicIp.getD "0.0.0.0", owner.publicPort.getD 0)
          | _ => pure ("0.0.0.0", 0)
        call (.sendToDevice deviceId (.fileAvailable taskId ownerId ip port
          ((task.localPath.map fun p => (Text.fileName p).getD "").getD "") (task.fileSize.getD 0)))

def handleLeaveTeam (deviceId : Uuid) : M Unit := do
  let _ ← call (.setDeviceOffline deviceId)
  call (.removeDevice deviceId)

def handleMessage (key : SessionKey) (msg : ClientMessage) : M Unit := do
  if let some session ← call (.getSession key) then
    let deviceId := session.deviceId
    let teamId := session.teamId
    match msg with
    | .register .. => return
    | .createTeam name => handleCreateTeam key name
    | .joinTeam inviteCode => handleJoinTeam key inviteCode
    | .heartbeat _ => handleHeartbeat deviceId
    | .addTask url => handleAddTask deviceId teamId url
    | .claimTask taskId => handleClaimTask deviceId teamId taskId
    | .updateProgress taskId progress => handleUpdateProgress deviceId teamId taskId progress
    | .taskComplete taskId localPath fileSize =>
      handleTaskComplete deviceId teamId taskId localPath fileSize
    | .requestFile taskId => handleRequestFile deviceId teamId taskId
    | .leaveTeam _ => handleLeaveTeam deviceId

def releaseOverdue (teamId : Uuid) (now : Time) (task : Task) : M Unit := do
  if let some claimedAt := task.claimedAt then
    if 5 ≤ numMinutes (now - claimedAt) ∧ task.progress < 1 then
      if let .error _ ← call (.releaseTask task.id) then
        return
      call (.broadcastToTeam teamId (.taskReleased task.id "timeout"))

def checkTaskTimeouts (teamId : Uuid) : M Unit := do
  if let .ok tasks ← call (.getClaimedTasks teamId) then
    let now ← call .now
    tasks.forM (releaseOverdue teamId now)

def checkAllTaskTimeouts : M Unit := do
  if let .ok teamIds ← call .getAllTeamIds then
    teamIds.forM checkTaskTimeouts

end MessageHandler

open MessageHandler

namespace WsServer
variable [AuthDeps]

def authResult (firstMsg : String) : Option AuthToken :=
  match Text.splitOnce ':' firstMsg with
  | some (pre, rest) => if pre ≠ "AUTH" then none else (AuthToken.parse rest).toOption
  | none => none

/-- `handle_connection` up to the registration of the session; a refusal goes straight to the socket. -/
def handleConnection (key : SessionKey) (firstMsg : String) : M Unit := do
  if let some token := authResult firstMsg then
    let now ← call .now
    if let .ok () := token.verify now.asSecs then
      registerClient key token.deviceId token.teamId

def onText (key : SessionKey) (msg : ClientMessage) : M Unit := do
  if let .register deviceId teamId _ := msg then
    call (.updateSession key deviceId teamId)
  handleMessage key msg

end WsServer

/-- What the server runs: for a connection's first text, for each later one, when a connection ends, and
every minute. -/
inductive Job
  | connect (key : SessionKey) (firstMsg : String)
  | text (key : SessionKey) (msg : ClientMessage)
  | disconnect (key : SessionKey)
  | sweep

def Job.code [AuthDeps] : Job → M Unit
  | connect key firstMsg => WsServer.handleConnection key firstMsg
  | text key msg => WsServer.onText key msg
  | disconnect key => call (.removeSession key)
  | sweep => checkAllTaskTimeouts

namespace Server
variable [AuthDeps] [DefaultHasher]

def handle (s : Server) (x : Job × Stream' Env) : Server := (x.1.code.exec act x.2 s).2.2

def handleAll (s : Server) (xs : List (Job × Stream' Env)) : Server := xs.foldl handle s

end Server

/-- The server with the handlers under way on it. -/
abbrev Sys := Pool Op.Ans Job Server

abbrev Event := Sys × Step Job Env

namespace Server
variable [AuthDeps] [DefaultHasher]

/-- Handlers started and resumed in the order `as`, with none under way at first. -/
abbrev run (s : Server) (as : List (Step Job Env)) : Sys := Pool.run Job.code act ⟨s, []⟩ as

abbrev trace (s : Server) (as : List (Step Job Env)) : List Event := Pool.trace Job.code act ⟨s, []⟩ as

/-- What handlers do one at a time, a run does. -/
theorem run_eq_handleAll (s : Server) (xs : List (Job × Stream' Env)) :
    ∃ as, (s.run as).state = s.handleAll xs := by
  obtain ⟨as, ts, h⟩ := Pool.run_in_turn Job.code act xs s []
  exact ⟨as, congrArg Pool.state h⟩

end Server

end XVideoDownloader
