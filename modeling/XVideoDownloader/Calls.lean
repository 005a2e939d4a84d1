import XVideoDownloader.Handler

/-!
# What the handlers may call

`Allowed j h o`: the job `j`, after the calls `h`, may call `o`. The cases that matter are the writes to
the `tasks` table, each described through what the handler has read before (`rowsRead`) and the identity
it took from its session (`who`). `code_wp` proves once, from the text of the handlers, that they make no
other calls; every result about interleavings starts from it.
-/

namespace XVideoDownloader
open Lib MessageHandler WsServer

abbrev Hist := List (Call Op.Ans)

def sessionRead : Call Op.Ans → Option (Uuid × Uuid)
  | ⟨.getSession _, some x⟩ => some (x.deviceId, x.teamId)
  | _ => none

/-- The device and the team that the handler acts for: those of its first reading of the session. -/
def who : Hist → Option (Uuid × Uuid)
  | [] => none
  | c :: h => who h <|> sessionRead c

/-- The rows of the handler's latest `SELECT` on `tasks`. -/
def rowsRead : Hist → List Task
  | [] => []
  | ⟨.getTasksByTeam _, .ok rows⟩ :: _ => rows
  | ⟨.getClaimedTasks _, .ok rows⟩ :: _ => rows
  | _ :: h => rowsRead h

def Read (h : Hist) (teamId : Uuid) (task : Task) : Prop :=
  ⟨.getTasksByTeam teamId, .ok (rowsRead h)⟩ ∈ h ∧ task ∈ rowsRead h

def ReadOverdue (h : Hist) (task : Task) : Prop :=
  ∃ teamId now claimedAt, ⟨.getClaimedTasks teamId, .ok (rowsRead h)⟩ ∈ h ∧ task ∈ rowsRead h ∧
    ⟨.now, now⟩ ∈ h ∧ task.claimedAt = some claimedAt ∧ 5 ≤ numMinutes (now - claimedAt) ∧
    task.progress < 1

/-- The `update_task` calls: by which job, after which calls, with which task and team. -/
inductive Stores : Job → Hist → Task → Uuid → Prop
  | assign {h : Hist} {key : SessionKey} {url : String} {teamId deviceId id ownerId : Uuid}
      {created now : Time} (hw : who h = some (deviceId, teamId)) (hr : rowsRead h = [])
      (hc : ⟨.createTask { Task.new id created url teamId deviceId with status := .queued } teamId,
        .ok ()⟩ ∈ h)
      (ho : ⟨.getOwner url, some ownerId⟩ ∈ h) :
      Stores (.text key (.addTask url)) h
        { Task.new id created url teamId deviceId with
          status := .claimed, claimedBy := some ownerId, claimedAt := some now } teamId
  | claim {h : Hist} {key : SessionKey} {teamId deviceId : Uuid} {task : Task} {now : Time}
      (hw : who h = some (deviceId, teamId)) (hr : Read h teamId task) (hs : task.status = .queued) :
      Stores (.text key (.claimTask task.id)) h
        { task with
          status := .claimed, claimedBy := some deviceId, claimedAt := some now,
          version := task.version + 1 } teamId
  | progress {h : Hist} {key : SessionKey} {teamId deviceId : Uuid} {task : Task} {progress : Rat}
      (hw : who h = some (deviceId, teamId)) (hr : Read h teamId task)
      (hc : task.claimedBy = some deviceId) :
      Stores (.text key (.updateProgress task.id progress)) h
        { task with progress := progress, version := task.version + 1 } teamId
  | complete {h : Hist} {key : SessionKey} {teamId deviceId : Uuid} {task : Task} {localPath : String}
      {fileSize : Nat} (hw : who h = some (deviceId, teamId)) (hr : Read h teamId task)
      (hc : task.claimedBy = some deviceId) :
      Stores (.text key (.taskComplete task.id localPath fileSize)) h
        { task with
          status := .complete, localPath := some localPath, fileSize := some fileSize, progress := 1,
          version := task.version + 1 } teamId

/-- The team that `set_team` may be given: one just created, or one found by its invite code. -/
inductive Enters : Job → Hist → SessionKey → Uuid → Prop
  | created {h : Hist} {key : SessionKey} {name : String} {team : Team}
      (hc : ⟨.createTeam name, .ok team⟩ ∈ h) : Enters (.text key (.createTeam name)) h key team.id
  | joined {h : Hist} {key : SessionKey} {code : String} {team : Team}
      (hc : ⟨.getTeamByCode code, .ok (some team)⟩ ∈ h) :
      Enters (.text key (.joinTeam code)) h key team.id

variable [AuthDeps]

def Allowed (j : Job) (h : Hist) : Op → Prop
  | .createTask task teamId => ∃ key url deviceId id now, j = .text key (.addTask url) ∧
      who h = some (deviceId, teamId) ∧ ⟨.newV4, id⟩ ∈ h ∧
      task = { Task.new id now url teamId deviceId with status := .queued }
  | .updateTask task teamId => Stores j h task teamId
  | .releaseTask taskId => j = .sweep ∧ ∃ task, task.id = taskId ∧ ReadOverdue h task
  | .getTasksByTeam teamId => ∃ deviceId, who h = some (deviceId, teamId)
  | .getClaimedTasks _ | .getAllTeamIds => j = .sweep
  | .setTeam key teamId => Enters j h key teamId
  | .evictDevice _ => ∃ key firstMsg, j = .connect key firstMsg
  | .insertSession key deviceId teamId => ∃ firstMsg token now, j = .connect key firstMsg ∧
      authResult firstMsg = some token ∧ ⟨.now, now⟩ ∈ h ∧ token.verify now.asSecs = .ok () ∧
      deviceId = token.deviceId ∧ teamId = token.teamId
  | .updateSession key deviceId teamId => ∃ name, j = .text key (.register deviceId teamId name)
  | .removeSession key => j = .disconnect key
  | .registerDevice device => device.id = Uuid.nil
  | .broadcastToTeam _ (.taskClaimed taskId deviceId) => ∃ key task teamId, j = .text key (.claimTask taskId) ∧
      ⟨.updateTask task teamId, .ok ()⟩ ∈ h ∧ task.id = taskId ∧ task.claimedBy = some deviceId
  | _ => True

section
variable {h : Hist} {key : SessionKey} {deviceId teamId taskId : Uuid}

omit [AuthDeps] in
@[simp] theorem who_cons (c : Call Op.Ans) (h : Hist) : who (c :: h) = (who h <|> sessionRead c) := rfl

omit [AuthDeps] in
theorem who_cons_of_some {x : Uuid × Uuid} (c : Call Op.Ans) (hw : who h = some x) :
    who (c :: h) = some x := by
  simp [hw]

theorem wp_handleAddTask (url : String) (hw : who h = some (deviceId, teamId)) (hr : rowsRead h = []) :
    (handleAddTask deviceId teamId url).wp (Allowed (.text key (.addTask url))) (fun _ _ => True) h := by
  simp only [handleAddTask, call, Prog.wp_bind, Prog.wp_op]
  refine ⟨trivial, fun id => ⟨trivial, fun created => ⟨?_, fun r => ?_⟩⟩⟩
  · exact ⟨key, url, deviceId, id, created, rfl, by simp [hw], by simp, rfl⟩
  cases r with
  | error e => simp [Allowed]
  | ok =>
    simp only [Prog.wp_bind, Prog.wp_op]
    refine ⟨trivial, fun o => ?_⟩
    cases o with
    | none => simp [Allowed]
    | some ownerId =>
      simp only [Prog.wp_bind, Prog.wp_op]
      refine ⟨trivial, fun now => ⟨?_, fun _ => ⟨trivial, fun _ => ⟨trivial, fun _ => trivial⟩⟩⟩⟩
      refine Stores.assign (by simp [hw]) (by simp [rowsRead, hr]) ?_ ?_
      · simp
      · simp [Task.new]

omit [AuthDeps] in
theorem read_of_find {rows : List Task} {task : Task}
    (hf : rows.find? (fun t => t.id = taskId) = some task) :
    task.id = taskId ∧ Read (⟨.getTasksByTeam teamId, .ok rows⟩ :: h) teamId task :=
  ⟨by simpa using List.find?_some hf, List.mem_cons_self, List.mem_of_find?_eq_some hf⟩

omit [AuthDeps] in
/-- What the handlers of claims, progress and completions share: the team's rows are read, the row of
the task is looked up, and the rest depends on what was found. -/
theorem wp_findTask {P : Hist → Op → Prop} (hP : P h (.getTasksByTeam teamId))
    {found : Task → M Unit} {missing : M Unit} {Q : Hist → Prop}
    (hf : ∀ rows task, task.id = taskId → Read (⟨.getTasksByTeam teamId, .ok rows⟩ :: h) teamId task →
      (found task).wp P (fun _ => Q) (⟨.getTasksByTeam teamId, .ok rows⟩ :: h))
    (hm : ∀ r, missing.wp P (fun _ => Q) (⟨.getTasksByTeam teamId, r⟩ :: h)) :
    Prog.wp P (do
      match ← call (.getTasksByTeam teamId) with
      | .ok tasks =>
        match tasks.find? fun t => t.id = taskId with
        | some task => found task
        | _ => missing
      | _ => missing) (fun _ => Q) h := by
  simp only [call, Prog.wp_bind, Prog.wp_op]
  refine ⟨hP, fun r => ?_⟩
  cases r with
  | error e => exact hm _
  | ok rows =>
    dsimp only
    split
    · rename_i task ht
      obtain ⟨hid, hr⟩ := read_of_find ht
      exact hf rows task hid hr
    · exact hm _

theorem wp_handleClaimTask (hw : who h = some (deviceId, teamId)) :
    (handleClaimTask deviceId teamId taskId).wp (Allowed (.text key (.claimTask taskId)))
      (fun _ _ => True) h := by
  unfold handleClaimTask
  refine wp_findTask ⟨deviceId, hw⟩ (fun rows task hid hr => ?_) fun r => ⟨trivial, fun _ => trivial⟩
  subst hid
  split
  · exact ⟨trivial, fun _ => trivial⟩
  · rename_i hs
    simp only [call, Prog.wp_bind, Prog.wp_op]
    refine ⟨trivial, fun now => ⟨?_, fun r => ?_⟩⟩
    · exact .claim (by simp [hw]) ⟨by simp [rowsRead], hr.2⟩ (by simpa using hs)
    · cases r with
      | error e => trivial
      | ok =>
        exact ⟨⟨key, _, teamId, rfl, List.mem_cons_self, rfl, rfl⟩, fun _ => trivial⟩

theorem wp_store {j : Job} {h : Hist} {task : Task} (hs : Stores j h task teamId) :
    Prog.wp (Allowed j) (do
      match ← call (.updateTask task teamId) with
      | .error _ => pure ()
      | _ => call (.broadcastToTeam teamId (.taskUpdated task))) (fun _ _ => True) h := by
  simp only [call, Prog.wp_bind, Prog.wp_op]
  refine ⟨hs, fun r => ?_⟩
  cases r with
  | error e => trivial
  | ok => exact ⟨trivial, fun _ => trivial⟩

theorem wp_handleUpdateProgress (progress : Rat) (hw : who h = some (deviceId, teamId)) :
    (handleUpdateProgress deviceId teamId taskId progress).wp
      (Allowed (.text key (.updateProgress taskId progress))) (fun _ _ => True) h := by
  unfold handleUpdateProgress
  refine wp_findTask ⟨deviceId, hw⟩ (fun rows task hid hr => ?_) fun r => trivial
  subst hid
  split
  · trivial
  · rename_i hc
    exact wp_store (.progress (who_cons_of_some _ hw) hr (by simpa using hc))

theorem wp_handleTaskComplete (localPath : String) (fileSize : Nat)
    (hw : who h = some (deviceId, teamId)) :
    (handleTaskComplete deviceId teamId taskId localPath fileSize).wp
      (Allowed (.text key (.taskComplete taskId localPath fileSize))) (fun _ _ => True) h := by
  unfold handleTaskComplete
  refine wp_findTask ⟨deviceId, hw⟩ (fun rows task hid hr => ?_) fun r => trivial
  subst hid
  split
  · trivial
  · rename_i hc
    exact wp_store (.complete (who_cons_of_some _ hw) hr (by simpa using hc))

theorem wp_handleRequestFile {j : Job} (hw : who h = some (deviceId, teamId)) :
    (handleRequestFile deviceId teamId taskId).wp (Allowed j) (fun _ _ => True) h := by
  unfold handleRequestFile
  refine wp_findTask ⟨deviceId, hw⟩ (fun rows task hid hr => ?_) fun r => trivial
  split
  · simp only [call, Prog.wp_bind, Prog.wp_op]
    refine ⟨trivial, fun r => ?_⟩
    rcases r with e | _ | owner <;> exact ⟨trivial, fun _ => trivial⟩
  · trivial

theorem wp_enterTeam {j : Job} {team : Team} (message : ServerMessage) (name : String)
    (he : ∀ h', h <:+ h' → Enters j h' key team.id) :
    (enterTeam key team message name).wp (Allowed j) (fun _ _ => True) h := by
  simp only [enterTeam, call, Prog.wp_bind, Prog.wp_op]
  refine ⟨trivial, fun r => ?_⟩
  cases r with
  | none => exact ⟨trivial, fun _ => ⟨rfl, fun _ => trivial⟩⟩
  | some session =>
    simp only [Prog.wp_bind, Prog.wp_op]
    exact ⟨he _ (List.suffix_cons _ _), fun _ => ⟨trivial, fun _ => ⟨trivial, fun _ =>
      ⟨rfl, fun _ => trivial⟩⟩⟩⟩

theorem wp_handleCreateTeam (name : String) :
    (handleCreateTeam key name).wp (Allowed (.text key (.createTeam name))) (fun _ _ => True) h := by
  simp only [handleCreateTeam, call, Prog.wp_bind, Prog.wp_op]
  refine ⟨trivial, fun r => ?_⟩
  cases r with
  | error e => exact ⟨trivial, fun _ => trivial⟩
  | ok team => exact wp_enterTeam _ _ fun h' hs => .created (hs.subset List.mem_cons_self)

theorem wp_handleJoinTeam (code : String) :
    (handleJoinTeam key code).wp (Allowed (.text key (.joinTeam code))) (fun _ _ => True) h := by
  simp only [handleJoinTeam, call, Prog.wp_bind, Prog.wp_op]
  refine ⟨trivial, fun r => ?_⟩
  rcases r with e | _ | team
  · exact ⟨trivial, fun _ => trivial⟩
  · exact ⟨trivial, fun _ => trivial⟩
  · exact wp_enterTeam _ _ fun h' hs => .joined (hs.subset List.mem_cons_self)

theorem wp_checkTaskTimeouts :
    (checkTaskTimeouts teamId).wp (Allowed .sweep) (fun _ _ => True) h := by
  simp only [checkTaskTimeouts, call, Prog.wp_bind, Prog.wp_op]
  refine ⟨rfl, fun r => ?_⟩
  cases r with
  | error e => trivial
  | ok rows =>
    simp only [Prog.wp_bind, Prog.wp_op]
    refine ⟨trivial, fun now => ?_⟩
    -- every round keeps what the `SELECT` and the clock have answered
    refine Prog.wp.mono (fun _ _ _ => trivial) (Prog.wp_forM (fun h' => rowsRead h' = rows ∧
      ⟨.getClaimedTasks teamId, .ok rows⟩ ∈ h' ∧ ⟨.now, now⟩ ∈ h') rows (fun task ht h' hJ => ?_) ?_)
    · obtain ⟨hr, hc, hn⟩ := hJ
      unfold releaseOverdue
      split
      · rename_i claimedAt hat
        split
        · rename_i hod
          simp only [call, Prog.wp_bind, Prog.wp_op]
          refine ⟨⟨rfl, task, rfl, teamId, now, claimedAt, by rwa [hr], by rwa [hr], hn, hat, hod⟩,
            fun r => ?_⟩
          cases r <;> simp [rowsRead, hr, hc, hn, Allowed]
        · exact ⟨hr, hc, hn⟩
      · exact ⟨hr, hc, hn⟩
    · simp [rowsRead]

theorem wp_checkAllTaskTimeouts : checkAllTaskTimeouts.wp (Allowed .sweep) (fun _ _ => True) h := by
  simp only [checkAllTaskTimeouts, call, Prog.wp_bind, Prog.wp_op]
  refine ⟨rfl, fun r => ?_⟩
  cases r with
  | error e => trivial
  | ok teamIds => exact Prog.wp_forM (fun _ => True) teamIds (fun _ _ _ _ => wp_checkTaskTimeouts) trivial

theorem wp_handleMessage (msg : ClientMessage) (hw : who h = none) (hr : rowsRead h = []) :
    (handleMessage key msg).wp (Allowed (.text key msg)) (fun _ _ => True) h := by
  simp only [handleMessage, call, Prog.wp_bind, Prog.wp_op]
  refine ⟨trivial, fun r => ?_⟩
  cases r with
  | none => trivial
  | some session =>
    have hw' : who (⟨.getSession key, some session⟩ :: h) = some (session.deviceId, session.teamId) := by
      simp [hw, sessionRead]
    cases msg with
    | register => trivial
    | createTeam name => exact wp_handleCreateTeam name
    | joinTeam code => exact wp_handleJoinTeam code
    | heartbeat => exact ⟨trivial, fun _ => trivial⟩
    | addTask url => exact wp_handleAddTask url hw' (by simp [rowsRead, hr])
    | claimTask taskId => exact wp_handleClaimTask hw'
    | updateProgress taskId progress => exact wp_handleUpdateProgress progress hw'
    | taskComplete taskId localPath fileSize => exact wp_handleTaskComplete localPath fileSize hw'
    | requestFile taskId => exact wp_handleRequestFile hw'
    | leaveTeam => exact ⟨trivial, fun _ => ⟨trivial, fun _ => trivial⟩⟩

theorem wp_onText (msg : ClientMessage) :
    (onText key msg).wp (Allowed (.text key msg)) (fun _ _ => True) [] := by
  cases msg with
  | register deviceId teamId name =>
    simp only [onText, call, Prog.wp_bind, Prog.wp_op]
    exact ⟨⟨name, rfl⟩, fun _ => wp_handleMessage _ rfl rfl⟩
  | _ => exact wp_handleMessage _ rfl rfl

theorem wp_registerClient {firstMsg : String} {token : AuthToken} {now : Time}
    (ha : authResult firstMsg = some token) (hn : ⟨.now, now⟩ ∈ h)
    (hv : token.verify now.asSecs = .ok ()) :
    (registerClient key token.deviceId token.teamId).wp (Allowed (.connect key firstMsg))
      (fun _ _ => True) h := by
  have hi : ∀ h', h <:+ h' → Allowed (.connect key firstMsg) h'
      (.insertSession key token.deviceId token.teamId) := fun h' hs =>
    ⟨firstMsg, token, now, rfl, ha, hs.subset hn, hv, rfl, rfl⟩
  unfold registerClient
  split
  · simp only [call, Prog.wp_bind, Prog.wp_op]
    exact ⟨⟨key, firstMsg, rfl⟩, fun _ => ⟨hi _ (List.suffix_cons _ _), fun _ => trivial⟩⟩
  · exact ⟨hi _ List.suffix_rfl, fun _ => trivial⟩

theorem wp_handleConnection (firstMsg : String) :
    (handleConnection key firstMsg).wp (Allowed (.connect key firstMsg)) (fun _ _ => True) [] := by
  unfold handleConnection
  split
  · rename_i token ha
    simp only [call, Prog.wp_bind, Prog.wp_op]
    refine ⟨trivial, fun now => ?_⟩
    split
    · exact wp_registerClient ha List.mem_cons_self ‹_›
    · trivial
  · trivial

/-- The handlers make no other calls than the ones `Allowed` lists. -/
theorem code_wp (j : Job) : j.code.wp (Allowed j) (fun _ _ => True) [] := by
  cases j with
  | connect key firstMsg => exact wp_handleConnection firstMsg
  | text key msg => exact wp_onText msg
  | disconnect key => exact ⟨rfl, fun _ => trivial⟩
  | sweep => exact wp_checkAllTaskTimeouts

end

end XVideoDownloader
