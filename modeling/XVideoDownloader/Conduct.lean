import XVideoDownloader.Messages

/-!
# The handlers, call by call

What each handler does when it runs alone, as the list of its calls: some readings, at most two writes, and what is
sent about them. `Reports` is the common conduct of claims, progress reports and completions, `Adds` that of
`AddTask`, and `Entry` that of creating and joining a team; `calls_checkAllTaskTimeouts` is the rule for sweeps.
-/

namespace XVideoDownloader
open Lib MessageHandler

/-- The row that `AddTask` asks to insert for the session. -/
def Task.added (id : Uuid) (now : Time) (url : String) (x : Session) : Task :=
  { Task.new id now url x.teamId x.deviceId with status := .queued }

/-- The operation only looks at the state. -/
def Op.reads : Op → Bool
  | .newV4 | .now | .getTeamByCode _ | .getDevice _ | .getAllTeamIds => true
  | .getTasksByTeam _ | .getClaimedTasks _ | .getSession _ | .getOwner _ => true
  | _ => false

/-- The operation writes to the database. -/
def Op.writes : Op → Bool
  | .createTeam _ | .registerDevice _ | .updateDeviceHeartbeat _ | .setDeviceOffline _ => true
  | .createTask .. | .updateTask .. | .releaseTask _ => true
  | _ => false

/-- Whether a write has failed. -/
def Op.failed : (o : Op) → o.Ans → Bool
  | .createTeam _, .error _ | .registerDevice _, .error _ | .createTask _ _, .error _ => true
  | .updateTask _ _, .error _ | .releaseTask _, .error _ => true
  | _, _ => false

section
variable [DefaultHasher]

def failed (c : Prog.Made Op Env Server) : Bool := c.op.failed (c.state.act c.op c.env).1

/-- Calls that only look at the state `s`. -/
def Calls.Read (s : Server) (l : Calls) : Prop := ∀ c ∈ l, c.state = s ∧ c.op.reads

theorem Op.act_of_reads {o : Op} (h : o.reads) (e : Env) (s : Server) : (s.act o e).2 = s := by
  cases o <;> first | rfl | cases h

omit [DefaultHasher] in
theorem Op.posts_of_reads {o : Op} (h : o.reads) (s : Server) : s.posts o = [] := by
  cases o <;> first | rfl | cases h

theorem failed_of_reads {c : Prog.Made Op Env Server} (h : c.op.reads) : failed c = false := by
  obtain ⟨s, o, e⟩ := c
  cases o <;> first | rfl | cases h

/-! ### Adding a task -/

/-- The calls of `AddTask`, for the row `task` and what comes of its insertion: that is refused and the device is
told; or the row is announced; or it is assigned and announced so, whether or not the assignment was stored. -/
inductive Adds (s : Server) (x : Session) (ω : Stream' Env) (task : Task) (r : Except String Unit × Server) :
    Calls → Prop
  | refused {l : Calls} {msg text : String} (hl : l.Read s) (hr : r.1 = .error msg) (hs : r.2 = s) :
      Adds s x ω task r (l ++ [⟨s, .createTask task x.teamId, ω.get 2⟩,
        ⟨r.2, .sendToDevice x.deviceId (.error text), ω.get 3⟩])
  | queued {l l' : Calls} (hl : l.Read s) (hl' : l'.Read r.2) (hr : r.1 = .ok ())
      (ho : s.hashRing.getOwner task.url = none) :
      Adds s x ω task r (l ++ ⟨s, .createTask task x.teamId, ω.get 2⟩ :: (l' ++
        [⟨r.2, .broadcastToTeam x.teamId (.taskAdded task), ω.get 4⟩]))
  | assigned {l l' : Calls} {ownerId : Uuid} {now : Time} {claimed : Task} {s' s'' : Server} (hl : l.Read s)
      (hl' : l'.Read r.2) (hr : r.1 = .ok ()) (ho : s.hashRing.getOwner task.url = some ownerId)
      (ht : claimed = { task with status := .claimed, claimedBy := some ownerId, claimedAt := some now })
      (hs : s' = (r.2.act (.updateTask claimed x.teamId) (ω.get 5)).2)
      (hs' : s'' = (s'.act (.sendToDevice ownerId (.taskClaimed task.id ownerId)) (ω.get 6)).2) :
      Adds s x ω task r (l ++ ⟨s, .createTask task x.teamId, ω.get 2⟩ :: (l' ++
        [⟨r.2, .updateTask claimed x.teamId, ω.get 5⟩,
          ⟨s', .sendToDevice ownerId (.taskClaimed task.id ownerId), ω.get 6⟩,
          ⟨s'', .broadcastToTeam x.teamId (.taskAdded claimed), ω.get 7⟩]))

omit [DefaultHasher] in
theorem Calls.Read.pair (s : Server) {o o' : Op} (ho : o.reads) (ho' : o'.reads) (e e' : Env) :
    Calls.Read s [⟨s, o, e⟩, ⟨s, o', e'⟩] := by
  rw [Calls.Read, List.forall_mem_cons, List.forall_mem_singleton]
  exact ⟨⟨rfl, ho⟩, rfl, ho'⟩

omit [DefaultHasher] in
theorem Calls.Read.single (s : Server) {o : Op} (ho : o.reads) (e : Env) : Calls.Read s [⟨s, o, e⟩] := by
  rw [Calls.Read, List.forall_mem_singleton]
  exact ⟨rfl, ho⟩

theorem calls_handleAddTask (s : Server) (x : Session) (url : String) (ω : Stream' Env) :
    Adds s x ω (.added (ω.get 0).uuid (ω.get 1).now url x)
      (s.act (.createTask (.added (ω.get 0).uuid (ω.get 1).now url x) x.teamId) (ω.get 2))
      ((handleAddTask x.deviceId x.teamId url).calls Server.act ω s) := by
  have hl : Calls.Read s [⟨s, .newV4, ω.get 0⟩, ⟨s, .now, ω.get 1⟩] := .pair s rfl rfl _ _
  have hcreate := Database.createTask_cases (ω.get 2).fail s.db (.added (ω.get 0).uuid (ω.get 1).now url x) x.teamId
  simp only [handleAddTask, call, Prog.calls_bind, Prog.calls_op, Prog.exec_op]
  split
  · rename_i msg ha
    refine .refused hl ha ?_
    rcases hcreate with ⟨-, h⟩ | ⟨hok, -⟩
    · exact congrArg (fun db => ({ s with db := db } : Server)) h
    · cases ha.symm.trans hok
  · rename_i ha
    simp only [Prog.calls_bind, Prog.calls_op, Prog.exec_op]
    split
    · rename_i ownerId ho
      have hl' : Calls.Read _ [⟨_, .getOwner url, ω.get 3⟩, ⟨_, .now, ω.get 4⟩] :=
        .pair (s.act (.createTask (.added (ω.get 0).uuid (ω.get 1).now url x) x.teamId) (ω.get 2)).2 rfl rfl _ _
      exact .assigned hl hl' ha ho rfl rfl rfl
    · rename_i ho
      have hl' : Calls.Read _ [⟨_, .getOwner url, ω.get 3⟩] :=
        .single (s.act (.createTask (.added (ω.get 0).uuid (ω.get 1).now url x) x.teamId) (ω.get 2)).2 rfl _
      exact .queued hl hl' ha ho

/-! ### Claims, progress reports and completions -/

/-- Calls that store `new` for the team, on the choice `e`; if that succeeds, the team is sent `message`. -/
inductive Replaces (s : Server) (teamId : Uuid) (new : Task) (message : ServerMessage) (e : Env) : Calls → Prop
  | failed {l : Calls} (hl : l.Read s) (hf : e.fail ≠ none) :
      Replaces s teamId new message e (l ++ [⟨s, .updateTask new teamId, e⟩])
  | stored {l : Calls} {e' : Env} (hl : l.Read s) (hf : e.fail = none) :
      Replaces s teamId new message e (l ++ [⟨s, .updateTask new teamId, e⟩,
        ⟨(s.act (.updateTask new teamId) e).2, .broadcastToTeam teamId message, e'⟩])

/-- Calls that leave the tasks as they are in `s` and speak of no task and no team. -/
structure Calls.Idle (s : Server) (l : Calls) : Prop where
  state : ∀ c ∈ l, (c.state.act c.op c.env).2.tasks = s.tasks
  plain : ∀ c ∈ l, c.op.Plain

/-- A handler looks the task up among the team's rows, on the choice `e`. If it finds a row that is ready it stores
the new one, on the choice `e'`; else it changes nothing. -/
def Reports (s : Server) (teamId taskId : Uuid) (ready : Task → Prop) (new : Task → Task)
    (message : Task → ServerMessage) (e e' : Env) (l : Calls) : Prop :=
  (∃ q ∈ s.tasks, q.id = taskId ∧ q.teamId = teamId ∧ ready q ∧ e.fail = none ∧
      Replaces s teamId (new q) (message q) e' l) ∨
    l.Idle s ∧ (e.fail = none → ∀ q ∈ s.tasks, q.id = taskId → q.teamId = teamId → ¬ ready q)

theorem calls_findTask {teamId taskId : Uuid} {found : Task → M Unit} {missing : M Unit} (s : Server)
    (ω : Stream' Env) {P : Calls → Prop}
    (hf : ∀ q ∈ s.tasks, q.id = taskId → q.teamId = teamId → ω.head.fail = none →
      P (⟨s, .getTasksByTeam teamId, ω.head⟩ :: (found q).calls Server.act ω.tail s))
    (hm : (ω.head.fail = none → ∀ q ∈ s.tasks, q.id = taskId → q.teamId ≠ teamId) →
      P (⟨s, .getTasksByTeam teamId, ω.head⟩ :: missing.calls Server.act ω.tail s)) :
    P (Prog.calls Server.act (do
      match ← call (.getTasksByTeam teamId) with
      | .ok tasks =>
        match tasks.find? fun t => t.id = taskId with
        | some task => found task
        | _ => missing
      | _ => missing) ω s) := by
  simp only [call, Prog.calls_bind, Prog.calls_op, Prog.exec_op]
  have hs : (s.act (.getTasksByTeam teamId) ω.head).2 = s := rfl
  rw [hs]
  split
  · rename_i rows ha
    have hrows := Server.answer_getTasksByTeam ha.symm
    have hfail : ω.head.fail = none := by
      cases he : ω.head.fail with
      | none => rfl
      | some text =>
        simp [Server.act, Server.onDb, Database.getTasksByTeam, Database.query, he] at ha
    split
    · rename_i q hq
      have hmem := List.mem_of_find?_eq_some hq
      rw [hrows, List.mem_filter] at hmem
      exact hf q hmem.1 (by simpa using List.find?_some hq) (by simpa using hmem.2) hfail
    · rename_i hnone
      refine hm fun _ q hq hid hteam => ?_
      have hmem : q ∈ rows := by
        rw [hrows, List.mem_filter]
        exact ⟨hq, decide_eq_true hteam⟩
      obtain ⟨q', hq'⟩ : ∃ q', rows.find? (fun t => t.id = taskId) = some q' :=
        Option.isSome_iff_exists.1 (List.find?_isSome.2 ⟨q, hmem, decide_eq_true hid⟩)
      exact hnone q' hq'
  · rename_i ha
    refine hm fun he => ?_
    have hok : (s.act (.getTasksByTeam teamId) ω.head).1 = .ok (s.tasks.filter fun r => r.teamId = teamId) := by
      simp [Server.act, Server.onDb, Database.getTasksByTeam, Database.query, he, Server.tasks]
    exact absurd hok (ha _)

theorem Calls.Idle.of_reads {s : Server} {l : Calls} (hl : l.Read s) : l.Idle s := by
  constructor
  · intro c hc
    rw [Op.act_of_reads (hl c hc).2, (hl c hc).1]
  · intro c hc
    exact Op.plain_of_posts (Op.posts_of_reads (hl c hc).2)

theorem Calls.Idle.append {s : Server} {l l' : Calls} (h : l.Idle s) (h' : l'.Idle s) : Calls.Idle s (l ++ l') :=
  ⟨List.forall_mem_append.2 ⟨h.state, h'.state⟩, List.forall_mem_append.2 ⟨h.plain, h'.plain⟩⟩

/-- The device is told that there is nothing to do. -/
theorem Calls.Idle.alarm {s : Server} {l : Calls} (hl : l.Read s) (deviceId : Uuid) (text : String) (e : Env) :
    Calls.Idle s (l ++ [⟨s, .sendToDevice deviceId (.error text), e⟩]) :=
  (of_reads hl).append
    ⟨List.forall_mem_singleton.2 rfl, List.forall_mem_singleton.2 (Op.plain_sendToDevice rfl rfl)⟩

/-- The row is refused, and the device is told. -/
theorem Calls.Idle.refused {s : Server} {l : Calls} (hl : l.Read s) {task : Task} {teamId : Uuid} {e : Env}
    (hs : (s.act (.createTask task teamId) e).2 = s) (deviceId : Uuid) (text : String) (e' : Env) :
    Calls.Idle s (l ++ [⟨s, .createTask task teamId, e⟩,
      ⟨(s.act (.createTask task teamId) e).2, .sendToDevice deviceId (.error text), e'⟩]) := by
  refine (of_reads hl).append ⟨?_, ?_⟩
  · rw [List.forall_mem_cons, List.forall_mem_singleton, hs]
    exact ⟨rfl, rfl⟩
  · rw [List.forall_mem_cons, List.forall_mem_singleton]
    exact ⟨Op.plain_of_posts fun _ => rfl, Op.plain_sendToDevice rfl rfl⟩

theorem Calls.Idle.update_failed {s : Server} {task : Task} {teamId : Uuid} {e : Env} (hf : e.fail ≠ none) :
    Calls.Idle s [⟨s, .updateTask task teamId, e⟩] := by
  refine ⟨List.forall_mem_singleton.2 ?_, List.forall_mem_singleton.2 (Op.plain_of_posts fun _ => rfl)⟩
  rw [Server.tasks_updateTask, if_neg hf]

theorem act_updateTask_ok {s : Server} {task : Task} {teamId : Uuid} {e : Env} :
    (s.act (.updateTask task teamId) e).1 = .ok () ↔ e.fail = none := by
  cases he : e.fail <;> simp [Server.act, Server.onDb, Database.updateTask, Database.execute, he]

theorem Replaces.of_error {s : Server} {l : Calls} {new : Task} {teamId : Uuid} {message : ServerMessage} {e : Env}
    {msg : String} (hl : l.Read s) (ha : (s.act (.updateTask new teamId) e).1 = .error msg) :
    Replaces s teamId new message e (l ++ [⟨s, .updateTask new teamId, e⟩]) := by
  refine .failed hl fun hf => ?_
  cases ha.symm.trans (act_updateTask_ok.2 hf)

theorem Replaces.of_ok {s : Server} {l : Calls} {new : Task} {teamId : Uuid} {message : ServerMessage} {e e' : Env}
    (hl : l.Read s) (ha : ∀ msg, (s.act (.updateTask new teamId) e).1 = .error msg → False) :
    Replaces s teamId new message e (l ++ [⟨s, .updateTask new teamId, e⟩,
      ⟨(s.act (.updateTask new teamId) e).2, .broadcastToTeam teamId message, e'⟩]) := by
  refine .stored hl ?_
  cases h : (s.act (.updateTask new teamId) e).1 with
  | error msg => exact absurd h (ha msg)
  | ok => exact act_updateTask_ok.1 h

/-- The common end of the handlers: a failed update is not announced. -/
def store (teamId : Uuid) (task : Task) (message : ServerMessage) : M Unit := do
  match ← call (.updateTask task teamId) with
  | .error _ => pure ()
  | _ => call (.broadcastToTeam teamId message)

theorem calls_store {s : Server} {l : Calls} (hl : l.Read s) (teamId : Uuid) (new : Task) (message : ServerMessage)
    (ω : Stream' Env) :
    Replaces s teamId new message ω.head (l ++ (store teamId new message).calls Server.act ω s) := by
  simp only [store, call, Prog.calls_bind, Prog.calls_op, Prog.exec_op]
  split <;> rename_i ha
  · exact .of_error hl ha
  · exact .of_ok hl ha

theorem calls_handleClaimTask (s : Server) (deviceId teamId taskId : Uuid) (ω : Stream' Env) :
    Reports s teamId taskId (fun q => q.status = .queued)
      (fun q => { q with
        status := .claimed, claimedBy := some deviceId, claimedAt := some (ω.get 1).now, version := q.version + 1 })
      (fun _ => .taskClaimed taskId deviceId) (ω.get 0) (ω.get 2)
      ((handleClaimTask deviceId teamId taskId).calls Server.act ω s) := by
  unfold handleClaimTask
  refine calls_findTask s ω (fun q hq hid hteam hf => ?_) fun hn => .inr ⟨.alarm (.single s rfl _) _ _ _, ?_⟩
  · split
    · rename_i hst
      refine .inr ⟨.alarm (.single s rfl _) _ _ _, fun _ q' hq' hid' _ => ?_⟩
      rw [Server.eq_of_id hq' hq (hid'.trans hid.symm)]
      exact hst
    · rename_i hst
      have hst' : q.status = .queued := by simpa using hst
      have hl : Calls.Read s [⟨s, .getTasksByTeam teamId, ω.get 0⟩, ⟨s, .now, ω.get 1⟩] := .pair s rfl rfl _ _
      exact .inl ⟨q, hq, hid, hteam, hst', hf, calls_store hl teamId _ _ (ω.drop 2)⟩
  · intro hf q hq hid hteam
    exact absurd hteam (hn hf q hq hid)

/-- Progress reports and completions do the same with the row of a task that the device has claimed. -/
theorem calls_ofOwner {deviceId teamId taskId : Uuid} {new : Task → Task} {message : Task → ServerMessage}
    {found : Task → M Unit} (s : Server) (ω : Stream' Env)
    (hfound : ∀ q, found q = if q.claimedBy ≠ some deviceId then pure () else store teamId (new q) (message q)) :
    Reports s teamId taskId (fun q => q.claimedBy = some deviceId) new message (ω.get 0) (ω.get 1)
      (Prog.calls Server.act (do
        match ← call (.getTasksByTeam teamId) with
        | .ok tasks =>
          match tasks.find? fun t => t.id = taskId with
          | some task => found task
          | _ => pure ()
        | _ => pure ()) ω s) := by
  have hl : Calls.Read s [⟨s, .getTasksByTeam teamId, ω.get 0⟩] := .single s rfl _
  refine calls_findTask s ω (fun q hq hid hteam hf => ?_) fun hn => .inr ⟨.of_reads hl, ?_⟩
  · rw [hfound]
    split
    · rename_i hc
      refine .inr ⟨.of_reads hl, fun _ q' hq' hid' _ => ?_⟩
      rw [Server.eq_of_id hq' hq (hid'.trans hid.symm)]
      exact hc
    · rename_i hc
      exact .inl ⟨q, hq, hid, hteam, not_not.1 hc, hf, calls_store hl teamId _ _ ω.tail⟩
  · intro hf q hq hid hteam
    exact absurd hteam (hn hf q hq hid)

theorem calls_handleUpdateProgress (s : Server) (deviceId teamId taskId : Uuid) (progress : Rat) (ω : Stream' Env) :
    Reports s teamId taskId (fun q => q.claimedBy = some deviceId)
      (fun q => { q with progress := progress, version := q.version + 1 })
      (fun q => .taskUpdated { q with progress := progress, version := q.version + 1 }) (ω.get 0) (ω.get 1)
      ((handleUpdateProgress deviceId teamId taskId progress).calls Server.act ω s) :=
  calls_ofOwner s ω fun _ => rfl

theorem calls_handleTaskComplete (s : Server) (deviceId teamId taskId : Uuid) (localPath : String) (fileSize : Nat)
    (ω : Stream' Env) :
    Reports s teamId taskId (fun q => q.claimedBy = some deviceId)
      (fun q => { q with
        status := .complete, localPath := some localPath, fileSize := some fileSize, progress := 1,
        version := q.version + 1 })
      (fun q => .taskUpdated { q with
        status := .complete, localPath := some localPath, fileSize := some fileSize, progress := 1,
        version := q.version + 1 }) (ω.get 0) (ω.get 1)
      ((handleTaskComplete deviceId teamId taskId localPath fileSize).calls Server.act ω s) :=
  calls_ofOwner s ω fun _ => rfl

/-! ### Entering a team -/

/-- The row that is written for a session that enters a team. -/
def Device.entering (team : Team) (name : String) (now : Time) : Device :=
  { id := Uuid.nil, teamId := team.id, name := name, publicIp := none, publicPort := none, lastSeen := now,
    isOnline := true }

/-- The session that enters is one of those that are told. -/
theorem mem_posts_setTeam {s : Server} {key : SessionKey} {x : Session} (hx : s.session key = some x)
    (teamId : Uuid) (message : ServerMessage) (e : Env) :
    ({ x with teamId := teamId }, message) ∈
      (s.act (.setTeam key teamId) e).2.posts (.sendToDevice x.deviceId message) := by
  obtain ⟨hmem, hkey⟩ := Server.session_eq_some.1 hx
  exact Server.mem_addressed.2 ⟨List.mem_map.2 ⟨x, hmem, if_pos hkey⟩, decide_eq_true rfl, rfl⟩

theorem calls_enterTeam {s : Server} {key : SessionKey} {x : Session} (hs : s.session key = some x) (team : Team)
    (message : ServerMessage) (name : String) (ω : Stream' Env) :
    ∃ s₁ s₂, s₁ = (s.act (.setTeam key team.id) (ω.get 1)).2 ∧
      s₂ = (s₁.act (.sendToDevice x.deviceId message) (ω.get 2)).2 ∧
      (enterTeam key team message name).calls Server.act ω s =
        [⟨s, .getSession key, ω.get 0⟩, ⟨s, .setTeam key team.id, ω.get 1⟩,
          ⟨s₁, .sendToDevice x.deviceId message, ω.get 2⟩, ⟨s₂, .now, ω.get 3⟩,
          ⟨s₂, .registerDevice (.entering team name (ω.get 3).now), ω.get 4⟩] := by
  have hget : (s.act (.getSession key) ω.head).1 = some x := hs
  refine ⟨_, _, rfl, rfl, ?_⟩
  simp only [enterTeam, call, Prog.calls_bind, Prog.calls_op, Prog.exec_op, hget]
  rfl

omit [DefaultHasher] in
theorem Database.createTeam_ok {db : Database} {fail : Option String} {id : Uuid} {code name : String} {now : Time}
    {team : Team} (h : (db.createTeam fail id code now name).1 = .ok team) :
    (db.createTeam fail id code now name).2.devices = db.devices ∧
      team ∈ (db.createTeam fail id code now name).2.teams.rows := by
  unfold createTeam execute at h ⊢
  dsimp only at h ⊢
  split at h
  · cases h
  · rename_i hfail
    cases hins : db.teams.insert ⟨id, name, code, now⟩ with
    | none => simp only [hins] at h; cases h
    | some teams =>
      simp only [hins] at h ⊢
      cases h
      rw [(Table.insert_eq_some.1 hins).2]
      exact ⟨trivial, List.mem_append_right _ (List.mem_singleton.2 rfl)⟩

/-- The session that the job brings into a team, and the team. -/
def Server.entry (s : Server) (ω : Stream' Env) : Job → Option (Session × Team)
  | .text key (.createTeam name) =>
    match s.session key, (s.db.createTeam (ω.get 1).fail (ω.get 1).uuid (ω.get 1).code (ω.get 1).now name).1 with
    | some x, .ok team => some (x, team)
    | _, _ => none
  | .text key (.joinTeam code) =>
    match s.session key, (s.db.getTeamByCode (ω.get 1).fail code).1 with
    | some x, .ok (some team) => some (x, team)
    | _, _ => none
  | _ => none

/-- The calls of a job that brings the session into the team. -/
inductive Entry (s : Server) (ω : Stream' Env) (x : Session) (team : Team) : Calls → Prop
  | mk {c c' : Prog.Made Op Env Server} {s' : Server} {key : SessionKey} {message : ServerMessage} {name : String}
      (hc : c.state.posts c.op = []) (hf : failed c = false) (hc' : c'.state.posts c'.op = [])
      (hf' : failed c' = false) (hx : s'.session key = some x)
      (hdevices : s'.db.devices = s.db.devices) (hteam : team ∈ s'.db.teams.rows)
      (he : message.entered? = some team) :
      Entry s ω x team (c :: c' :: (enterTeam key team message name).calls Server.act (ω.drop 2) s')

/-! ### The sweep -/

/-- The calls about one row of a team's sweep: none, a release that fails, or one that the team is told of. -/
inductive Releases (s : Server) (teamId taskId : Uuid) : Calls → Prop
  | skipped : Releases s teamId taskId []
  | failed {e : Env} (hf : e.fail ≠ none) : Releases s teamId taskId [⟨s, .releaseTask taskId, e⟩]
  | released {e e' : Env} (hf : e.fail = none) : Releases s teamId taskId [⟨s, .releaseTask taskId, e⟩,
      ⟨(s.act (.releaseTask taskId) e).2, .broadcastToTeam teamId (.taskReleased taskId "timeout"), e'⟩]

theorem act_releaseTask_ok {s : Server} {taskId : Uuid} {e : Env} :
    (s.act (.releaseTask taskId) e).1 = .ok () ↔ e.fail = none := by
  cases he : e.fail <;> simp [Server.act, Server.onDb, Database.releaseTask, Database.execute, he]

theorem calls_releaseOverdue (s : Server) (teamId : Uuid) (now : Time) (q : Task) (ω : Stream' Env) :
    Releases s teamId q.id ((releaseOverdue teamId now q).calls Server.act ω s) := by
  unfold releaseOverdue
  split
  · split
    · simp only [call, Prog.calls_bind, Prog.calls_op, Prog.exec_op]
      split <;> rename_i ha
      · refine .failed fun hf => ?_
        cases ha.symm.trans (act_releaseTask_ok.2 hf)
      · refine .released ?_
        cases h : (s.act (.releaseTask q.id) ω.head).1 with
        | error msg => exact absurd h (ha msg)
        | ok => exact act_releaseTask_ok.1 h
    · exact .skipped
  · exact .skipped

/-- In the course of a sweep that began in `s`: the sessions are the same, and every row was there with its id and
its team. -/
structure InSweep (s s' : Server) : Prop where
  sessions : s'.sessions = s.sessions
  backward : ∀ r' ∈ s'.tasks, ∃ r ∈ s.tasks, r.id = r'.id ∧ r.teamId = r'.teamId

section
variable {s s' s'' : Server} {P : Calls → Prop}

omit [DefaultHasher] in
theorem InSweep.refl (s : Server) : InSweep s s := ⟨rfl, fun r hr => ⟨r, hr, rfl, rfl⟩⟩

omit [DefaultHasher] in
theorem InSweep.trans (h : InSweep s s') (h' : InSweep s' s'') : InSweep s s'' := by
  refine ⟨h'.sessions.trans h.sessions, fun r'' hr'' => ?_⟩
  obtain ⟨r', hr', hid', hteam'⟩ := h'.backward r'' hr''
  obtain ⟨r, hr, hid, hteam⟩ := h.backward r' hr'
  exact ⟨r, hr, hid.trans hid', hteam.trans hteam'⟩

theorem InSweep.releaseOverdue (t : Uuid) (now : Time) (q : Task) (ω : Stream' Env) (s : Server) :
    InSweep s ((releaseOverdue t now q).exec Server.act ω s).2.2 := by
  have hlast := Prog.exec_state Server.act (MessageHandler.releaseOverdue t now q) ω s
  have hl := calls_releaseOverdue s t now q ω
  have htasks := exec_releaseOverdue t now q ω s
  constructor
  · rw [hlast]
    generalize (MessageHandler.releaseOverdue t now q).calls Server.act ω s = l at hl
    cases hl <;> rfl
  · intro r' hr'
    rw [htasks] at hr'
    split at hr'
    · obtain ⟨r, hr, rfl⟩ := List.mem_map.1 hr'
      refine ⟨r, hr, ?_⟩
      split <;> exact ⟨rfl, rfl⟩
    · exact ⟨r', hr', rfl, rfl⟩

variable (hread : ∀ s' l, Calls.Read s' l → P l) (happend : ∀ l l', P l → P l' → P (l ++ l'))
  (hround : ∀ s' t id l, InSweep s s' → (∃ r ∈ s.tasks, r.id = id ∧ r.teamId = t) → Releases s' t id l → P l)

include hread happend hround in
theorem calls_releaseAll (t : Uuid) (now : Time) {rest : List Task} (hs : InSweep s s')
    (hrest : ∀ q ∈ rest, ∃ r ∈ s.tasks, r.id = q.id ∧ r.teamId = t) (ω : Stream' Env) :
    P ((rest.forM (releaseOverdue t now)).calls Server.act ω s') := by
  induction rest generalizing s' ω with
  | nil => exact hread s' _ fun _ hc => absurd hc List.not_mem_nil
  | cons q rest ih =>
    rw [List.forall_mem_cons] at hrest
    rw [Prog.calls_forM_cons]
    exact happend _ _ (hround s' t q.id _ hs hrest.1 (calls_releaseOverdue s' t now q ω))
      (ih (hs.trans (.releaseOverdue t now q ω s')) hrest.2 _)

include hread happend hround in
theorem calls_checkTaskTimeouts (t : Uuid) (hs : InSweep s s') (ω : Stream' Env) :
    P ((checkTaskTimeouts t).calls Server.act ω s') ∧
      InSweep s ((checkTaskTimeouts t).exec Server.act ω s').2.2 := by
  have hget : (s'.act (.getClaimedTasks t) ω.head).2 = s' := rfl
  simp only [checkTaskTimeouts, call, Prog.calls_bind, Prog.calls_op, Prog.exec_bind, Prog.exec_op, hget]
  split
  · rename_i rows ha
    have hrows := Server.answer_getClaimedTasks ha.symm
    have hrest : ∀ q ∈ rows, ∃ r ∈ s.tasks, r.id = q.id ∧ r.teamId = t := by
      intro q hq
      rw [hrows, List.mem_filter, decide_eq_true_eq] at hq
      obtain ⟨r, hr, hid, hteam⟩ := hs.backward q hq.1
      exact ⟨r, hr, hid, hteam.trans hq.2.1⟩
    simp only [Prog.calls_bind, Prog.calls_op, Prog.exec_bind, Prog.exec_op]
    constructor
    · refine happend _ _ (hread s' _ (.single s' rfl _)) (happend _ _ (hread s' _ (.single s' rfl _)) ?_)
      exact calls_releaseAll hread happend hround t ω.tail.head.now hs hrest _
    · exact Prog.exec_forM Server.act (fun _ _ s'' => InSweep s s'') _
        (fun q _ ω' s'' h => h.trans (.releaseOverdue t _ q ω' s'')) rows _ _ hs
  · exact ⟨happend _ _ (hread s' _ (.single s' rfl _)) (hread s' _ fun _ hc => absurd hc List.not_mem_nil), hs⟩

include hread happend hround in
theorem calls_sweepTeams (teams : List Uuid) (hs : InSweep s s') (ω : Stream' Env) :
    P ((teams.forM checkTaskTimeouts).calls Server.act ω s') := by
  induction teams generalizing s' ω with
  | nil => exact hread s' _ fun _ hc => absurd hc List.not_mem_nil
  | cons t teams ih =>
    obtain ⟨hcalls, hs'⟩ := calls_checkTaskTimeouts hread happend hround t hs ω
    rw [Prog.calls_forM_cons]
    exact happend _ _ hcalls (ih hs' _)

include hread happend hround in
/-- The rule for the calls of a sweep: what holds of each round, and of calls that only look, holds of all. -/
theorem calls_checkAllTaskTimeouts (ω : Stream' Env) : P (checkAllTaskTimeouts.calls Server.act ω s) := by
  have hget : (s.act .getAllTeamIds ω.head).2 = s := rfl
  simp only [checkAllTaskTimeouts, call, Prog.calls_bind, Prog.calls_op, Prog.exec_op, hget]
  refine happend _ _ (hread s _ (.single s rfl _)) ?_
  split
  · exact calls_sweepTeams hread happend hround _ (.refl s) _
  · exact hread s _ fun _ hc => absurd hc List.not_mem_nil

end

/-! ### Whole jobs -/

/-- A message is handled for the session, where there is one. -/
theorem Server.calls_text [AuthDeps] {key : SessionKey} {msg : ClientMessage} {p : Session → M Unit}
    (hp : (Job.text key msg).code = do if let some session ← call (.getSession key) then p session) (s : Server)
    (ω : Stream' Env) :
    s.calls (.text key msg, ω) = ⟨s, .getSession key, ω.get 0⟩ ::
      ((s.session key).map fun x => (p x).calls Server.act ω.tail s).getD [] := by
  have hget : (s.act (.getSession key) ω.head).1 = s.session key := rfl
  unfold Server.calls
  simp only [hp, call, Prog.calls_bind, Prog.calls_op, Prog.exec_op, hget]
  cases s.session key <;> rfl

theorem Server.calls_text_some [AuthDeps] {key : SessionKey} {msg : ClientMessage} {p : Session → M Unit}
    (hp : (Job.text key msg).code = do if let some session ← call (.getSession key) then p session) {s : Server}
    {x : Session} (hx : s.session key = some x) (ω : Stream' Env) :
    s.calls (.text key msg, ω) = ⟨s, .getSession key, ω.get 0⟩ :: (p x).calls Server.act ω.tail s := by
  rw [Server.calls_text hp, hx, Option.map_some, Option.getD_some]

omit [DefaultHasher] in
theorem entry_createTeam_eq_some {s : Server} {key : SessionKey} {name : String} {ω : Stream' Env} {x : Session}
    {team : Team} :
    s.entry ω (.text key (.createTeam name)) = some (x, team) ↔ s.session key = some x ∧
      (s.db.createTeam (ω.get 1).fail (ω.get 1).uuid (ω.get 1).code (ω.get 1).now name).1 = .ok team := by
  cases hs : s.session key <;>
    cases hr : (s.db.createTeam (ω.get 1).fail (ω.get 1).uuid (ω.get 1).code (ω.get 1).now name).1 <;>
    simp [Server.entry, hs, hr]

omit [DefaultHasher] in
theorem entry_joinTeam_eq_some {s : Server} {key : SessionKey} {code : String} {ω : Stream' Env} {x : Session}
    {team : Team} :
    s.entry ω (.text key (.joinTeam code)) = some (x, team) ↔ s.session key = some x ∧
      (s.db.getTeamByCode (ω.get 1).fail code).1 = .ok (some team) := by
  cases hs : s.session key <;> rcases hr : (s.db.getTeamByCode (ω.get 1).fail code).1 with _ | _ | _ <;>
    simp [Server.entry, hs, hr]

theorem entry_createTeam [AuthDeps] (s : Server) (key : SessionKey) (name : String) (ω : Stream' Env) :
    (∃ x team, s.entry ω (.text key (.createTeam name)) = some (x, team) ∧
        Entry s ω x team (s.calls (.text key (.createTeam name), ω))) ∨
      s.entry ω (.text key (.createTeam name)) = none ∧ ∀ c ∈ s.calls (.text key (.createTeam name), ω), c.op.Plain := by
  have hcode : (Job.text key (.createTeam name)).code =
      (do if let some _ ← call (.getSession key) then handleCreateTeam key name) := rfl
  have hcalls := s.calls_text (p := fun _ => handleCreateTeam key name) hcode ω
  cases hs : s.session key with
  | none =>
    rw [hs] at hcalls
    refine .inr ⟨by simp only [Server.entry, hs], ?_⟩
    rw [hcalls]
    exact List.forall_mem_singleton.2 (Op.plain_of_posts fun _ => rfl)
  | some x =>
    rw [hs] at hcalls
    simp only [Option.map_some, Option.getD_some, handleCreateTeam, call, Prog.calls_bind, Prog.calls_op,
      Prog.exec_op] at hcalls
    cases hr : (s.db.createTeam (ω.get 1).fail (ω.get 1).uuid (ω.get 1).code (ω.get 1).now name).1 with
    | error msg =>
      have ha : (s.act (.createTeam name) ω.tail.head).1 = .error msg := hr
      rw [ha] at hcalls
      refine .inr ⟨by simp only [Server.entry, hs, hr], ?_⟩
      rw [hcalls, List.singleton_append, List.forall_mem_cons, List.forall_mem_cons, Prog.calls_op,
        List.forall_mem_singleton]
      exact ⟨Op.plain_of_posts fun _ => rfl, Op.plain_of_posts fun _ => rfl, Op.plain_sendError⟩
    | ok team =>
      have ha : (s.act (.createTeam name) ω.tail.head).1 = .ok team := hr
      obtain ⟨hdevices, hteam⟩ := Database.createTeam_ok hr
      rw [ha] at hcalls
      have hfail : failed ⟨s, .createTeam name, ω.tail.head⟩ = false := congrArg (Op.failed (.createTeam name)) ha
      refine .inl ⟨x, team, by simp only [Server.entry, hs, hr], ?_⟩
      rw [hcalls]
      exact .mk rfl rfl rfl hfail hs hdevices hteam rfl

theorem entry_joinTeam [AuthDeps] (s : Server) (key : SessionKey) (code : String) (ω : Stream' Env) :
    (∃ x team, s.entry ω (.text key (.joinTeam code)) = some (x, team) ∧
        Entry s ω x team (s.calls (.text key (.joinTeam code), ω))) ∨
      s.entry ω (.text key (.joinTeam code)) = none ∧ ∀ c ∈ s.calls (.text key (.joinTeam code), ω), c.op.Plain := by
  have hcode : (Job.text key (.joinTeam code)).code =
      (do if let some _ ← call (.getSession key) then handleJoinTeam key code) := rfl
  have hcalls := s.calls_text (p := fun _ => handleJoinTeam key code) hcode ω
  have hrefuse : ∀ text : String, ∀ c ∈ (⟨s, .getSession key, ω.get 0⟩ ::
      ([⟨s, .getTeamByCode code, ω.tail.head⟩] ++ [⟨s, .sendError key text, ω.tail.tail.head⟩]) : Calls),
      c.op.Plain := by
    intro text
    rw [List.singleton_append, List.forall_mem_cons, List.forall_mem_cons, List.forall_mem_singleton]
    exact ⟨Op.plain_of_posts fun _ => rfl, Op.plain_of_posts fun _ => rfl, Op.plain_sendError⟩
  cases hs : s.session key with
  | none =>
    rw [hs] at hcalls
    refine .inr ⟨by simp only [Server.entry, hs], ?_⟩
    rw [hcalls]
    exact List.forall_mem_singleton.2 (Op.plain_of_posts fun _ => rfl)
  | some x =>
    rw [hs] at hcalls
    simp only [Option.map_some, Option.getD_some, handleJoinTeam, call, Prog.calls_bind, Prog.calls_op,
      Prog.exec_op] at hcalls
    rcases hr : (s.db.getTeamByCode (ω.get 1).fail code).1 with msg | _ | team
    · have ha : (s.act (.getTeamByCode code) ω.tail.head).1 = .error msg := hr
      rw [ha] at hcalls
      refine .inr ⟨by simp only [Server.entry, hs, hr], ?_⟩
      rw [hcalls]
      exact hrefuse _
    · have ha : (s.act (.getTeamByCode code) ω.tail.head).1 = .ok none := hr
      rw [ha] at hcalls
      refine .inr ⟨by simp only [Server.entry, hs, hr], ?_⟩
      rw [hcalls]
      exact hrefuse _
    · have ha : (s.act (.getTeamByCode code) ω.tail.head).1 = .ok (some team) := hr
      have hteam : team ∈ s.db.teams.rows := List.mem_of_find?_eq_some (Database.query_eq_ok hr).symm
      rw [ha] at hcalls
      refine .inl ⟨x, team, by simp only [Server.entry, hs, hr], ?_⟩
      rw [hcalls]
      exact .mk rfl rfl rfl rfl hs rfl hteam rfl

/-- The state that the calls `l` leave when they begin in `s`. -/
def Calls.last (l : Calls) (s : Server) : Server :=
  (l.getLast?.map fun c => (c.state.act c.op c.env).2).getD s

@[simp] theorem Calls.last_cons_append_cons (l l' : Calls) (c c' : Prog.Made Op Env Server) (s : Server) :
    Calls.last (c :: (l ++ c' :: l')) s = Calls.last (c' :: l') s := by
  simp [Calls.last, List.getLast?_append, List.getLast?_cons]

@[simp] theorem Calls.last_cons_cons (l : Calls) (c c' : Prog.Made Op Env Server) (s : Server) :
    Calls.last (c :: c' :: l) s = Calls.last (c' :: l) s := rfl

@[simp] theorem Calls.last_singleton (c : Prog.Made Op Env Server) (s : Server) :
    Calls.last [c] s = (c.state.act c.op c.env).2 := rfl

theorem Server.handle_eq_last [AuthDeps] (s : Server) (x : Job × Stream' Env) :
    s.handle x = Calls.last (s.calls x) s := Prog.exec_state Server.act x.1.code x.2 s

theorem Server.tasks_of_idle [AuthDeps] {s : Server} {x : Job × Stream' Env} (h : (s.calls x).Idle s) :
    (s.handle x).tasks = s.tasks := by
  rw [Server.handle_eq_last, Calls.last]
  cases hc : (s.calls x).getLast? with
  | none => rfl
  | some c => exact h.state c (List.mem_of_getLast? hc)

end

end XVideoDownloader
