import XVideoDownloader.Calls
import XVideoDownloader.Columns
import XVideoDownloader.Wire

/-!
# Times, sizes and versions (`server/handler.rs`)

What a handler stores and sends has times that the clock or the database has given it, sizes that came with a message,
and versions at most one above those it has read (`code_keeps`). So where no earlier answer is above a bound, no later
call is above the next one.
-/

namespace XVideoDownloader
open Lib MessageHandler WsServer Storage

def ServerMessage.Within (n : Nat) : ServerMessage → Prop
  | taskAdded task | taskUpdated task => task.Within n
  | m => m.Writable

/-- What the call stores or sends. -/
def Op.Bounded (n : Nat) : Op → Prop
  | createTask task _ | updateTask task _ => task.Within n
  | registerDevice device => InYears device.lastSeen
  | sendToDevice _ m | broadcastToTeam _ m => m.Within n
  | _ => True

/-- What the answer hands over. -/
def AnsWithin (n : Nat) : Call Op.Ans → Prop
  | ⟨.now, t⟩ => InYears t
  | ⟨.createTeam _, .ok team⟩ => InYears team.createdAt
  | ⟨.getTeamByCode _, .ok (some team)⟩ => InYears team.createdAt
  | ⟨.getTasksByTeam _, .ok rows⟩ => ∀ r ∈ rows, r.Within n
  | _ => True

/-- The sizes of its message are `u64`. -/
def Job.Fits : Job → Prop
  | text _ msg => msg.Writable
  | _ => True

/-- After answers within a bound, the call is within the next one. -/
def Keeps (h : Hist) (o : Op) : Prop := ∀ n, (∀ c ∈ h, AnsWithin n c) → o.Bounded (n + 1)

theorem ServerMessage.Within.succ {n : Nat} {m : ServerMessage} (h : m.Within n) : m.Within (n + 1) := by
  cases m with
  | taskAdded task | taskUpdated task => exact Task.Within.succ h
  | _ => exact h

theorem ServerMessage.Within.writable {n : Nat} {m : ServerMessage} (h : m.Within n) (hn : n + 2 < 9223372036854775808) :
    m.Writable := by
  cases m with
  | taskAdded task | taskUpdated task => exact Task.Within.storable h hn
  | _ => exact h

theorem AnsWithin.succ {n : Nat} {c : Call Op.Ans} (h : AnsWithin n c) : AnsWithin (n + 1) c := by
  unfold AnsWithin at h ⊢
  split at h
  · exact h
  · exact h
  · exact h
  · exact fun r hr => (h r hr).succ
  · trivial

section
variable {h : Hist} {key : SessionKey} {deviceId teamId taskId : Uuid} {task : Task}

theorem Keeps.mono {h' : Hist} {o : Op} (hk : Keeps h o) (hsub : h ⊆ h') : Keeps h' o :=
  fun n hn => hk n fun c hc => hn c (hsub hc)

/-- A row that was read, changed as the handlers change it, keeps to the next bound. -/
theorem keeps_of_read {task' : Task} (hr : Read h teamId task) (hid : task.SameIdentity task')
    (hat : ∀ t, task'.claimedAt = some t → task.claimedAt = some t ∨ ⟨.now, t⟩ ∈ h)
    (hsize : ∀ size, task'.fileSize = some size → task.fileSize = some size ∨ size < UInt64.size)
    (hversion : task'.version = task.version + 1) : Keeps h (.updateTask task' teamId) := by
  intro n hn
  have hrow : task.Within n := hn _ hr.1 task hr.2
  refine ⟨fun t ht => ?_, hid.createdAt ▸ hrow.createdAt, fun size hs => ?_, ?_⟩
  · rcases hat t ht with hold | hnow
    · exact hrow.claimedAt t hold
    · exact hn _ hnow
  · rcases hsize size hs with hold | hlt
    · exact hrow.fileSize size hold
    · exact hlt
  · rw [hversion]
    exact Nat.succ_le_succ hrow.version

theorem keeps_enterTeam {team : Team} (message : ServerMessage) (name : String)
    (hm : ∀ n, (∀ c ∈ h, AnsWithin n c) → message.Within (n + 1)) :
    (enterTeam key team message name).wp Keeps (fun _ _ => True) h := by
  have hdevice (h' : Hist) (now : Time) (hnow : ⟨.now, now⟩ ∈ h') (device : Device) (hd : device.lastSeen = now) :
      Keeps h' (.registerDevice device) := by
    intro n hn
    show InYears device.lastSeen
    rw [hd]
    exact hn _ hnow
  simp only [enterTeam, call, Prog.wp_bind, Prog.wp_op]
  refine ⟨fun _ _ => trivial, fun r => ?_⟩
  cases r with
  | none => exact ⟨fun _ _ => trivial, fun now => ⟨hdevice _ now List.mem_cons_self _ rfl, fun _ => trivial⟩⟩
  | some session =>
    simp only [Prog.wp_bind, Prog.wp_op]
    refine ⟨fun _ _ => trivial, fun _ => ⟨fun n hn => hm n fun c hc => hn c ?_, fun _ => ⟨fun _ _ => trivial, fun now =>
      ⟨hdevice _ now List.mem_cons_self _ rfl, fun _ => trivial⟩⟩⟩⟩
    exact List.mem_cons_of_mem _ (List.mem_cons_of_mem _ hc)

theorem keeps_handleCreateTeam (name : String) : (handleCreateTeam key name).wp Keeps (fun _ _ => True) h := by
  simp only [handleCreateTeam, call, Prog.wp_bind, Prog.wp_op]
  refine ⟨fun _ _ => trivial, fun r => ?_⟩
  cases r with
  | error e => exact ⟨fun _ _ => trivial, fun _ => trivial⟩
  | ok team => exact keeps_enterTeam _ _ fun n hn => hn ⟨.createTeam name, .ok team⟩ List.mem_cons_self

theorem keeps_handleJoinTeam (code : String) : (handleJoinTeam key code).wp Keeps (fun _ _ => True) h := by
  simp only [handleJoinTeam, call, Prog.wp_bind, Prog.wp_op]
  refine ⟨fun _ _ => trivial, fun r => ?_⟩
  rcases r with e | _ | team
  · exact ⟨fun _ _ => trivial, fun _ => trivial⟩
  · exact ⟨fun _ _ => trivial, fun _ => trivial⟩
  · exact keeps_enterTeam _ _ fun n hn => hn ⟨.getTeamByCode code, .ok (some team)⟩ List.mem_cons_self

theorem keeps_handleAddTask (url : String) : (handleAddTask deviceId teamId url).wp Keeps (fun _ _ => True) h := by
  simp only [handleAddTask, call, Prog.wp_bind, Prog.wp_op]
  refine ⟨fun _ _ => trivial, fun id => ⟨fun _ _ => trivial, fun created => ?_⟩⟩
  have hnew (n : Nat) (hcreated : InYears created) :
      Task.Within n { Task.new id created url teamId deviceId with status := .queued } :=
    ⟨nofun, hcreated, nofun, Nat.le_add_left 1 n⟩
  refine ⟨fun n hn => hnew (n + 1) (hn ⟨.now, created⟩ List.mem_cons_self), fun r => ?_⟩
  cases r with
  | error e => exact ⟨fun _ _ => trivial, fun _ => trivial⟩
  | ok =>
    simp only [Prog.wp_bind, Prog.wp_op]
    refine ⟨fun _ _ => trivial, fun o => ?_⟩
    cases o with
    | none => exact ⟨fun n hn => hnew (n + 1) (hn ⟨.now, created⟩ (by simp)), fun _ => trivial⟩
    | some ownerId =>
      simp only [Prog.wp_bind, Prog.wp_op]
      refine ⟨fun _ _ => trivial, fun now => ?_⟩
      have hassigned (n : Nat) (hcreated : InYears created) (hnow : InYears now) :
          Task.Within n { Task.new id created url teamId deviceId with
            status := .claimed, claimedBy := some ownerId, claimedAt := some now } :=
        ⟨fun t ht => Option.some.inj ht ▸ hnow, hcreated, nofun, Nat.le_add_left 1 n⟩
      refine ⟨fun n hn => ?_, fun _ => ⟨fun _ _ => trivial, fun _ => ⟨fun n hn => ?_, fun _ => trivial⟩⟩⟩ <;>
        exact hassigned (n + 1) (hn ⟨.now, created⟩ (by simp)) (hn ⟨.now, now⟩ (by simp))

theorem keeps_handleClaimTask : (handleClaimTask deviceId teamId taskId).wp Keeps (fun _ _ => True) h := by
  unfold handleClaimTask
  refine wp_findTask (fun _ _ => trivial) (fun rows task hid hr => ?_) fun r => ⟨fun _ _ => trivial, fun _ => trivial⟩
  split
  · exact ⟨fun _ _ => trivial, fun _ => trivial⟩
  · simp only [call, Prog.wp_bind, Prog.wp_op]
    refine ⟨fun _ _ => trivial, fun now => ⟨?_, fun r => ?_⟩⟩
    · refine keeps_of_read ⟨List.mem_cons_of_mem _ hr.1, hr.2⟩ ⟨rfl, rfl, rfl, rfl, rfl⟩ (fun t ht => .inr ?_)
        (fun _ => .inl) rfl
      rw [← Option.some.inj ht]
      exact List.mem_cons_self
    · cases r with
      | error e => trivial
      | ok => exact ⟨fun _ _ => trivial, fun _ => trivial⟩

/-- What the handlers of progress and completions end with. -/
theorem keeps_store (hk : Keeps h (.updateTask task teamId)) :
    Prog.wp Keeps (do
      match ← call (.updateTask task teamId) with
      | .error _ => pure ()
      | _ => call (.broadcastToTeam teamId (.taskUpdated task))) (fun _ _ => True) h := by
  simp only [call, Prog.wp_bind, Prog.wp_op]
  refine ⟨hk, fun r => ?_⟩
  cases r with
  | error e => trivial
  | ok => exact ⟨fun n hn => hk n fun c hc => hn c (List.mem_cons_of_mem _ hc), fun _ => trivial⟩

theorem keeps_handleUpdateProgress (progress : Rat) :
    (handleUpdateProgress deviceId teamId taskId progress).wp Keeps (fun _ _ => True) h := by
  unfold handleUpdateProgress
  refine wp_findTask (fun _ _ => trivial) (fun rows task hid hr => ?_) fun r => trivial
  split
  · trivial
  · exact keeps_store (keeps_of_read hr ⟨rfl, rfl, rfl, rfl, rfl⟩ (fun _ => .inl) (fun _ => .inl) rfl)

theorem keeps_handleTaskComplete (localPath : String) {fileSize : Nat} (hsize : fileSize < UInt64.size) :
    (handleTaskComplete deviceId teamId taskId localPath fileSize).wp Keeps (fun _ _ => True) h := by
  unfold handleTaskComplete
  refine wp_findTask (fun _ _ => trivial) (fun rows task hid hr => ?_) fun r => trivial
  split
  · trivial
  · exact keeps_store (keeps_of_read hr ⟨rfl, rfl, rfl, rfl, rfl⟩ (fun _ => .inl)
      (fun _ hs => .inr (Option.some.inj hs ▸ hsize)) rfl)

theorem keeps_handleRequestFile : (handleRequestFile deviceId teamId taskId).wp Keeps (fun _ _ => True) h := by
  unfold handleRequestFile
  refine wp_findTask (fun _ _ => trivial) (fun rows task hid hr => ?_) fun r => trivial
  split
  · rename_i ownerId hby
    have hsend (h' : Hist) (hsub : ⟨.getTasksByTeam teamId, .ok rows⟩ ∈ h') (ip : String) (port : UInt16)
        (name : String) : Keeps h' (.sendToDevice deviceId
          (.fileAvailable taskId ownerId ip port name (task.fileSize.getD 0))) := by
      intro n hn
      show task.fileSize.getD 0 < UInt64.size
      cases hs : task.fileSize with
      | none => decide
      | some size => exact (hn _ hsub task hr.2).fileSize size hs
    simp only [call, Prog.wp_bind, Prog.wp_op]
    refine ⟨fun _ _ => trivial, fun r => ?_⟩
    rcases r with e | _ | owner <;> exact ⟨hsend _ (by simp) _ _ _, fun _ => trivial⟩
  · trivial

theorem keeps_checkAllTaskTimeouts : checkAllTaskTimeouts.wp Keeps (fun _ _ => True) h := by
  simp only [checkAllTaskTimeouts, call, Prog.wp_bind, Prog.wp_op]
  refine ⟨fun _ _ => trivial, fun r => ?_⟩
  cases r with
  | error e => trivial
  | ok teamIds =>
    refine Prog.wp_forM (fun _ => True) teamIds (fun teamId _ h' _ => ?_) trivial
    simp only [checkTaskTimeouts, call, Prog.wp_bind, Prog.wp_op]
    refine ⟨fun _ _ => trivial, fun r => ?_⟩
    cases r with
    | error e => trivial
    | ok rows =>
      simp only [Prog.wp_bind, Prog.wp_op]
      refine ⟨fun _ _ => trivial, fun now => Prog.wp_forM (fun _ => True) rows (fun task _ h' _ => ?_) trivial⟩
      unfold releaseOverdue
      split
      · split
        · simp only [call, Prog.wp_bind, Prog.wp_op]
          refine ⟨fun _ _ => trivial, fun r => ?_⟩
          cases r with
          | error e => trivial
          | ok => exact ⟨fun _ _ => trivial, fun _ => trivial⟩
        · trivial
      · trivial

theorem keeps_handleMessage {msg : ClientMessage} (hm : msg.Writable) :
    (handleMessage key msg).wp Keeps (fun _ _ => True) h := by
  simp only [handleMessage, call, Prog.wp_bind, Prog.wp_op]
  refine ⟨fun _ _ => trivial, fun r => ?_⟩
  cases r with
  | none => trivial
  | some session =>
    cases msg with
    | register => trivial
    | createTeam name => exact keeps_handleCreateTeam name
    | joinTeam code => exact keeps_handleJoinTeam code
    | heartbeat => exact ⟨fun _ _ => trivial, fun _ => trivial⟩
    | addTask url => exact keeps_handleAddTask url
    | claimTask taskId => exact keeps_handleClaimTask
    | updateProgress taskId progress => exact keeps_handleUpdateProgress progress
    | taskComplete taskId localPath fileSize => exact keeps_handleTaskComplete localPath hm
    | requestFile taskId => exact keeps_handleRequestFile
    | leaveTeam => exact ⟨fun _ _ => trivial, fun _ => ⟨fun _ _ => trivial, fun _ => trivial⟩⟩

end

/-- Every handler keeps to the bounds. -/
theorem code_keeps [AuthDeps] {j : Job} (hj : j.Fits) : j.code.wp Keeps (fun _ _ => True) [] := by
  cases j with
  | connect key firstMsg =>
    show (handleConnection key firstMsg).wp _ _ _
    unfold handleConnection
    split
    · simp only [call, Prog.wp_bind, Prog.wp_op]
      refine ⟨fun _ _ => trivial, fun now => ?_⟩
      split
      · unfold registerClient
        split
        · exact ⟨fun _ _ => trivial, fun _ => ⟨fun _ _ => trivial, fun _ => trivial⟩⟩
        · exact ⟨fun _ _ => trivial, fun _ => trivial⟩
      · trivial
    · trivial
  | text key msg =>
    have hm : msg.Writable := hj
    cases msg with
    | register deviceId teamId name => exact ⟨fun _ _ => trivial, fun _ => keeps_handleMessage hm⟩
    | _ => exact keeps_handleMessage hm
  | disconnect key => exact ⟨fun _ _ => trivial, fun _ => trivial⟩
  | sweep => exact keeps_checkAllTaskTimeouts

end XVideoDownloader
