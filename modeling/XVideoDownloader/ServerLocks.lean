import XVideoDownloader.Handler
import XVideoDownloader.Lib.Sections

/-!
# The server's locks (`server/handler.rs`, `server/db.rs`, `crypto/hashring.rs`)

`Locked.code` writes the handlers once more, with the locks that they take: each operation of `Server.lean` in the
critical section `inLock`, and the two handlers that hold `hash_ring` over other sections as the source has them.
A handler is dropped where it waits when its connection ends.

`Locked.no_deadlock`: no handlers ever block each other for good. `Locked.exclusion` is why a call may count as atomic.
`Locked.refines_calls`: with each call in pieces, they do to the server what the programs of `Handler.lean` do, call by
call, but for the order of messages: `send_to_device` and `broadcast_to_team` only read the sessions, and two of them may
send side by side.
-/

namespace XVideoDownloader
open Lib

inductive Lock
  | hashRing
  | nodes
  | devices
  | sessions
  | conn
  deriving DecidableEq

namespace Lock

/-- The `RwLock`s of tokio queue those who wait; the `Mutex` of the connection does not. -/
def fair : Lock → Bool
  | conn => false
  | _ => true

/-- `hash_ring` is taken before the others, of which no two are held at once. -/
def rank : Lock → Nat
  | hashRing => 0
  | _ => 1

end Lock

/-- The lock that an operation is the critical section of. -/
def inLock : Op → Option (Lock × Mode)
  | .newV4 | .now => none
  | .registerDevice device =>
    -- an invalid device is refused before the connection is locked
    match Database.validateDevice device with
    | .ok () => some (.conn, .exclusive)
    | .error _ => none
  | .createTeam _ | .getTeamByCode _ | .updateDeviceHeartbeat _ | .setDeviceOffline _ | .getDevice _ | .getAllTeamIds
  | .createTask _ _ | .updateTask _ _ | .getTasksByTeam _ | .getClaimedTasks _ | .releaseTask _ =>
    some (.conn, .exclusive)
  | .getSession _ | .sendToDevice _ _ | .broadcastToTeam _ _ | .sendError _ _ => some (.sessions, .shared)
  | .setTeam _ _ | .evictDevice _ | .insertSession _ _ _ | .updateSession _ _ _ | .removeSession _ =>
    some (.sessions, .exclusive)
  | .getOwner _ => some (.hashRing, .shared)
  | .removeDevice _ => some (.hashRing, .exclusive)

namespace Locked
open LockProg MessageHandler

abbrev LockM := LockProg Lock Op.Ans

def call (o : Op) : LockM o.Ans := section' inLock o

/-- An operation whose lock is held already. -/
def within (o : Op) : LockM o.Ans := plain o

/-- The guard of `self.hash_ring.read().await` lives until the end of the `if let` that it stands in, over the
update of the task and the message to its owner. -/
def handleAddTask (deviceId teamId : Uuid) (url : String) : LockM Unit := do
  let id ← call .newV4
  let now ← call .now
  let task := { Task.new id now url teamId deviceId with status := .queued }
  match ← call (.createTask task teamId) with
  | .error e =>
    let errorMsg := if Text.contains e "URL already exists" then "URL already exists"
      else "Failed to create task: " ++ e
    call (.sendToDevice deviceId (.error errorMsg))
  | .ok () =>
    let task ← locked .hashRing .shared do
      match ← locked .nodes .shared (within (.getOwner task.url)) with
      | some ownerId =>
        let now ← call .now
        let task := { task with status := .claimed, claimedBy := some ownerId, claimedAt := some now }
        let _ ← call (.updateTask task teamId)
        call (.sendToDevice ownerId (.taskClaimed task.id ownerId))
        return task
      | none => return task
    call (.broadcastToTeam teamId (.taskAdded task))

/-- `remove_device` is called under the guard of `self.hash_ring.write().await`; it deletes from the two maps of
the ring in turn. -/
def handleLeaveTeam (deviceId : Uuid) : LockM Unit := do
  let _ ← call (.setDeviceOffline deviceId)
  locked .hashRing .exclusive do
    locked .nodes .exclusive (within (.removeDevice deviceId))
    locked .devices .exclusive (pure ())

def handleMessage (key : SessionKey) (msg : ClientMessage) : LockM Unit := do
  if let some session ← call (.getSession key) then
    let deviceId := session.deviceId
    let teamId := session.teamId
    match msg with
    | .register .. => return
    | .createTeam name => sections inLock (handleCreateTeam key name)
    | .joinTeam inviteCode => sections inLock (handleJoinTeam key inviteCode)
    | .heartbeat _ => sections inLock (handleHeartbeat deviceId)
    | .addTask url => handleAddTask deviceId teamId url
    | .claimTask taskId => sections inLock (handleClaimTask deviceId teamId taskId)
    | .updateProgress taskId progress => sections inLock (handleUpdateProgress deviceId teamId taskId progress)
    | .taskComplete taskId localPath fileSize =>
      sections inLock (handleTaskComplete deviceId teamId taskId localPath fileSize)
    | .requestFile taskId => sections inLock (handleRequestFile deviceId teamId taskId)
    | .leaveTeam _ => handleLeaveTeam deviceId

def onText (key : SessionKey) (msg : ClientMessage) : LockM Unit := do
  if let .register deviceId teamId _ := msg then
    call (.updateSession key deviceId teamId)
  handleMessage key msg

def code [AuthDeps] : Job → LockM Unit
  | .connect key firstMsg => sections inLock (WsServer.handleConnection key firstMsg)
  | .text key msg => onText key msg
  | .disconnect key => call (.removeSession key)
  | .sweep => sections inLock checkAllTaskTimeouts

/-! ### The same without the locks -/

theorem erase_call (o : Op) : erase (call o) = XVideoDownloader.call o := erase_section' inLock o

theorem erase_bind_eq {α β : Type} {p : LockM α} {q : M α} {f : α → LockM β} {g : α → M β} (hp : erase p = q)
    (hf : ∀ a, erase (f a) = g a) : erase (p >>= f) = q >>= g := by
  rw [erase_bind, hp]
  exact congrArg _ (funext hf)

theorem erase_handleAddTask (deviceId teamId : Uuid) (url : String) :
    erase (handleAddTask deviceId teamId url) = MessageHandler.handleAddTask deviceId teamId url := by
  refine erase_bind_eq (erase_call _) fun id => erase_bind_eq (erase_call _) fun now => ?_
  refine erase_bind_eq (erase_call _) fun created => ?_
  rcases created with e | ⟨⟩
  · exact erase_call _
  · rw [erase_bind, erase_locked, erase_bind, erase_locked, bind_assoc]
    refine congrArg _ (funext fun owner => ?_)
    cases owner with
    | none => exact erase_call _
    | some ownerId => rfl

theorem erase_handleLeaveTeam (deviceId : Uuid) :
    erase (handleLeaveTeam deviceId) = MessageHandler.handleLeaveTeam deviceId := by
  refine erase_bind_eq (erase_call _) fun _ => ?_
  rw [erase_locked]
  exact erase_bind_eq (erase_locked _ _ _) fun _ => erase_locked _ _ _

theorem erase_handleMessage (key : SessionKey) (msg : ClientMessage) :
    erase (handleMessage key msg) = MessageHandler.handleMessage key msg := by
  refine erase_bind_eq (erase_call _) fun session => ?_
  cases session with
  | none => rfl
  | some session =>
    cases msg with
    | register | heartbeat => rfl
    | addTask url => exact erase_handleAddTask _ _ _
    | leaveTeam deviceId => exact erase_handleLeaveTeam _
    | createTeam | joinTeam | claimTask | updateProgress | taskComplete | requestFile => exact erase_sections _ _

theorem erase_onText (key : SessionKey) (msg : ClientMessage) :
    erase (onText key msg) = WsServer.onText key msg := by
  have hmessage := erase_handleMessage key msg
  cases msg with
  | register => exact erase_bind_eq (erase_call _) fun _ => hmessage
  | _ => exact hmessage

theorem erase_code [AuthDeps] (j : Job) : erase (code j) = j.code := by
  cases j with
  | connect key firstMsg => exact erase_sections _ _
  | text key msg => exact erase_onText key msg
  | disconnect key => exact erase_call _
  | sweep => exact erase_sections _ _

/-! ### The order of the locks -/

/-- An operation but for the two on the ring may be called while a guard of the ring is held. -/
theorem balanced_call {o : Op} {m : Mode} (hrank : ∀ x ∈ inLock o, x.1 ≠ .hashRing) :
    Balanced Lock.rank inLock [(.hashRing, m)] (call o) := by
  refine .section' o fun y hy x hx => ?_
  rw [List.mem_singleton.1 hx]
  have hy' := hrank y hy
  cases hl : y.1 with
  | hashRing => exact absurd hl hy'
  | nodes | devices | sessions | conn => exact Nat.zero_lt_one

theorem balanced_call_nil (o : Op) : Balanced Lock.rank inLock [] (call o) :=
  .section' o fun _ _ _ hx => absurd hx List.not_mem_nil

theorem balanced_handleAddTask (deviceId teamId : Uuid) (url : String) :
    Balanced Lock.rank inLock [] (handleAddTask deviceId teamId url) := by
  refine .bind (balanced_call_nil _) fun id => .bind (balanced_call_nil _) fun now => ?_
  refine .bind (balanced_call_nil _) fun created => ?_
  rcases created with e | ⟨⟩
  · exact balanced_call_nil _
  · refine .bind (.locked (fun _ hx => absurd hx List.not_mem_nil) ?_) fun task => balanced_call_nil _
    refine .bind (.locked (by simp [Lock.rank]) (.plain (by simp [inLock]))) fun owner => ?_
    cases owner with
    | none => exact .pure _
    | some ownerId =>
      refine .bind (balanced_call (by simp [inLock])) fun now => ?_
      refine .bind (balanced_call (by simp [inLock])) fun _ => ?_
      exact .bind (balanced_call (by simp [inLock])) fun _ => .pure _

theorem balanced_handleLeaveTeam (deviceId : Uuid) :
    Balanced Lock.rank inLock [] (handleLeaveTeam deviceId) := by
  refine .bind (balanced_call_nil _) fun _ => .locked (fun _ hx => absurd hx List.not_mem_nil) ?_
  refine .bind (.locked (by simp [Lock.rank]) (.plain (by simp [inLock]))) fun _ => ?_
  exact .locked (by simp [Lock.rank]) (.pure ())

theorem balanced_handleMessage (key : SessionKey) (msg : ClientMessage) :
    Balanced Lock.rank inLock [] (handleMessage key msg) := by
  refine .bind (balanced_call_nil _) fun session => ?_
  cases session with
  | none => exact .pure ()
  | some session =>
    cases msg with
    | register => exact .pure ()
    | addTask url => exact balanced_handleAddTask _ _ _
    | leaveTeam deviceId => exact balanced_handleLeaveTeam _
    | createTeam | joinTeam | heartbeat | claimTask | updateProgress | taskComplete | requestFile =>
      exact .sections _

theorem balanced_onText (key : SessionKey) (msg : ClientMessage) :
    Balanced Lock.rank inLock [] (onText key msg) := by
  have hmessage := balanced_handleMessage key msg
  cases msg with
  | register => exact .bind (balanced_call_nil _) fun _ => hmessage
  | _ => exact hmessage

variable [AuthDeps]

theorem orderly_code (j : Job) : Orderly Lock.rank inLock (code j) [] := by
  cases j with
  | connect key firstMsg => exact Balanced.orderly (.sections _)
  | text key msg => exact (balanced_onText key msg).orderly
  | disconnect key => exact (balanced_call_nil _).orderly
  | sweep => exact Balanced.orderly (.sections _)

/-! ### Every run -/

variable [DefaultHasher]

/-- The handlers with their locks, started, resumed and dropped in the order `as`, with none under way at first. -/
abbrev run (s : Server) (as : List (LockStep Job Env)) : LockPool Lock Op.Ans Job Server :=
  LockPool.run Lock.fair code Server.act ⟨s, [], []⟩ as

theorem sound_run (s : Server) (as : List (LockStep Job Env)) : Sound Lock.rank inLock (run s as) :=
  (Sound.init s).run orderly_code as

/-- Whatever has been started, resumed and dropped so far: the handlers under way never block each other for
good. -/
theorem no_deadlock (s : Server) (as : List (LockStep Job Env)) : (run s as).Ends Lock.fair code Server.act :=
  (sound_run s as).ends orderly_code

/-- Two handlers are never at once about to make calls under one lock, unless both calls only read. -/
theorem exclusion (s : Server) (as : List (LockStep Job Env)) {i i' : Nat} {j j' : Job} {o o' : Op}
    {k : o.Ans → LockM Unit} {k' : o'.Ans → LockM Unit} {h h' : LockHist Lock Op.Ans}
    (hi : (run s as).threads[i]? = some ⟨j, .call (.op o) k, h⟩)
    (hi' : (run s as).threads[i']? = some ⟨j', .call (.op o') k', h'⟩) (hne : i ≠ i') {x x' : Lock × Mode}
    (hx : x ∈ inLock o) (hx' : x' ∈ inLock o') (hl : x.1 = x'.1) : x.2 = .shared ∧ x'.2 = .shared :=
  (sound_run s as).alone hi hi' hne hx hx' hl

omit [AuthDeps] [DefaultHasher] in
/-- Two connections look up their sessions side by side. -/
theorem exclusion_two_readers :
    (Lock.sessions, Mode.shared).2 = .shared ∧ (Lock.sessions, Mode.shared).2 = .shared := by
  have e : Env := ⟨Uuid.nil, "", 0, none⟩
  exact @exclusion Sample.auth Sample.hasher (.new true)
    [.spawn (.text 1 (.heartbeat 1)), .spawn (.text 2 (.heartbeat 2)), .resume 0 e, .resume 1 e, .resume 0 e,
      .resume 1 e] 0 1 _ _ _ _ _ _ _ _ rfl rfl Nat.zero_ne_one (.sessions, .shared) (.sessions, .shared) rfl rfl rfl

/-! ### Calls in pieces -/

/-- What the locks guard. Those within the ring are taken under `hash_ring`. -/
instance : Parts Lock Server (SessionKey × ServerMessage) where
  Part
    | .conn => Database
    | .sessions => Table Session fun a b => a.key = b.key
    | .hashRing => HashRing
    | .nodes | .devices => Unit
  part
    | .conn, s => s.db
    | .sessions, s => s.sessions
    | .hashRing, s => s.hashRing
    | .nodes, _ | .devices, _ => ()
  put
    | .conn, db, s => { s with db := db }
    | .sessions, sessions, s => { s with sessions := sessions }
    | .hashRing, ring, s => { s with hashRing := ring }
    | .nodes, _, s | .devices, _, s => s
  sent := Server.sent
  push x s := { s with sent := s.sent ++ [x] }
  part_put l v s := by cases l <;> rfl
  part_put_ne {l l'} h v s := by cases l <;> cases l' <;> first | rfl | exact absurd rfl h
  sent_put l v s := by cases l <;> rfl
  part_push l x s := by cases l <;> rfl
  sent_push x s := rfl

/-- The `tx.send`s of a call. -/
def sends : Op → Server → List (SessionKey × ServerMessage)
  | .sendToDevice deviceId message, s => toSessions (fun x => x.deviceId = deviceId) message s
  | .broadcastToTeam teamId message, s => toSessions (fun x => x.teamId = teamId) message s
  | .sendError key message, s => toSessions (fun x => x.key = key) (.error message) s
  | _, _ => []
where
  toSessions (p : Session → Bool) (message : ServerMessage) (s : Server) : List (SessionKey × ServerMessage) :=
    (s.sessions.rows.filter p).map fun x => (x.key, message)

section
omit [AuthDeps]
variable {o : Op} {s s' : Server}

/-- A call is answered from what its lock guards. -/
theorem ans_of_sameFor (e : Env) (h : SameFor inLock o s s') : (Server.act o e s).1 = (Server.act o e s').1 := by
  cases o with
  | newV4 | now | setTeam | evictDevice | insertSession | updateSession | removeSession | sendToDevice
  | broadcastToTeam | sendError | removeDevice => rfl
  | registerDevice device =>
    cases hv : Database.validateDevice device with
    | error error => simp only [Server.act, Server.onDb, Database.registerDevice, hv]
    | ok =>
      have hdb : s.db = s'.db := h (.conn, .exclusive) (by simp only [inLock, hv]; rfl)
      simp only [Server.act, Server.onDb, hdb]
  | createTeam | getTeamByCode | updateDeviceHeartbeat | setDeviceOffline | getDevice | getAllTeamIds | createTask
  | updateTask | getTasksByTeam | getClaimedTasks | releaseTask =>
    have hdb : s.db = s'.db := h _ rfl
    simp only [Server.act, Server.onDb, hdb]
  | getSession key =>
    have hsessions : s.sessions = s'.sessions := h _ rfl
    simp only [Server.act, Server.session, hsessions]
  | getOwner url =>
    have hring : s.hashRing = s'.hashRing := h _ rfl
    simp only [Server.act, hring]

omit [DefaultHasher] in
theorem sends_of_sameFor (h : SameFor inLock o s s') : sends o s = sends o s' := by
  cases o with
  | sendToDevice | broadcastToTeam | sendError =>
    have hsessions : s.sessions = s'.sessions := h _ rfl
    simp only [sends, sends.toSessions, hsessions]
  | _ => rfl

/-- What a call makes of the part that is its own depends on that part only. -/
theorem part_of_exclusive (e : Env) {l : Lock} (hl : inLock o = some (l, .exclusive))
    (h : Parts.part l s = Parts.part l s') :
    Parts.part l (Server.act o e s).2 = Parts.part l (Server.act o e s').2 := by
  cases o with
  | newV4 | now | getSession | sendToDevice | broadcastToTeam | sendError | getOwner => cases hl
  | registerDevice device =>
    cases hv : Database.validateDevice device with
    | error error =>
      simp only [inLock, hv] at hl
      cases hl
    | ok =>
      simp only [inLock, hv] at hl
      cases hl
      have hdb : s.db = s'.db := h
      simp only [Server.act, Server.onDb, Parts.part, hdb]
  | createTeam | getTeamByCode | updateDeviceHeartbeat | setDeviceOffline | getDevice | getAllTeamIds | createTask
  | updateTask | getTasksByTeam | getClaimedTasks | releaseTask =>
    cases hl
    have hdb : s.db = s'.db := h
    simp only [Server.act, Server.onDb, Parts.part, hdb]
  | setTeam | evictDevice | insertSession | updateSession | removeSession =>
    cases hl
    have hsessions : s.sessions = s'.sessions := h
    simp only [Server.act, Server.setSession, Parts.part, hsessions]
  | removeDevice deviceId =>
    cases hl
    have hring : s.hashRing = s'.hashRing := h
    simp only [Server.act, Parts.part, hring]

/-- A call changes nothing else. -/
theorem part_of_ne (e : Env) {l : Lock} (hl : inLock o ≠ some (l, .exclusive)) :
    Parts.part l (Server.act o e s).2 = Parts.part l s := by
  cases o with
  | registerDevice device =>
    cases hv : Database.validateDevice device with
    | error error => simp only [Server.act, Server.onDb, Database.registerDevice, hv]
    | ok =>
      simp only [inLock, hv] at hl
      cases l <;> first | rfl | exact absurd rfl hl
  | _ => cases l <;> first | rfl | exact absurd rfl hl

theorem sent_act (e : Env) : (Server.act o e s).2.sent = s.sent ++ sends o s := by
  cases o with
  | sendToDevice | broadcastToTeam | sendError => rfl
  | _ => exact (List.append_nil _).symm

theorem guarded_act : Guarded inLock Server.act sends where
  ans _ e _ _ h := ans_of_sameFor e h
  sends _ _ _ h := sends_of_sameFor h
  write _ e _ _ _ hl h := part_of_exclusive e hl h
  frame _ e _ _ hl := part_of_ne e hl
  sent _ e _ := sent_act e

end

/-- The handlers with their locks, each call in pieces. -/
abbrev runInPieces (s : Server) (as : List (LockStep Job (Env × Order (SessionKey × ServerMessage)))) :
    SectionPool Lock Op.Ans Job Server (SessionKey × ServerMessage) :=
  SectionPool.run Lock.fair code Server.act sends inLock ⟨⟨s, [], []⟩, fun _ => none⟩ as

/-- What the handlers do to the server with their locks, each call in pieces, they also do call by call, but for the
order in which messages are sent: two calls may send side by side. -/
theorem refines_calls (s : Server) (as : List (LockStep Job (Env × Order (SessionKey × ServerMessage)))) :
    ∃ bs, (s.run bs).threads.map Thread.job = (runInPieces s as).threads.map Thread.job ∧
      (s.run bs).state.db = (runInPieces s as).state.db ∧
      (s.run bs).state.sessions = (runInPieces s as).state.sessions ∧
      (s.run bs).state.hashRing = (runInPieces s as).state.hashRing ∧
      ((s.run bs).state.sent ++ (runInPieces s as).underWay).Perm (runInPieces s as).state.sent := by
  obtain ⟨as', hF⟩ := (Follows.init s).run Lock.fair code guarded_act orderly_code (Sound.init s) as
  have hE := (LockPool.Erased.init s).run Server.act Lock.fair erase_code as'
  have hparts := hF.parts
  have hsent := hF.sent
  rw [← hE.state] at hparts hsent
  refine ⟨LockPool.eraseRun code Server.act Lock.fair ⟨s, [], []⟩ as', ?_⟩
  exact ⟨hE.jobs.trans (congrArg _ hF.threads), hparts .conn, hparts .sessions, hparts .hashRing, hsent⟩

end Locked

namespace Sample
open Locked

def twoSessions : Server :=
  { Server.new false with sessions := (Table.empty.put ⟨11, 1, 5⟩).put ⟨12, 2, 5⟩ }

/-- Each of two handlers gets to the sessions with the task that it has added. The first session has the first task
before the second, and the other has them the other way round. -/
def crossing : List (LockStep Job (Env × Order (SessionKey × ServerMessage))) :=
  let e (id : Uuid) : Env × Order (SessionKey × ServerMessage) := (⟨id, "", 0, none⟩, ⟨fun l => l, fun _ => .refl _⟩)
  [.spawn (.text 11 (.addTask "a")), .spawn (.text 12 (.addTask "b"))] ++ List.replicate 26 (.resume 0 (e 7)) ++
    List.replicate 26 (.resume 1 (e 8)) ++ [.resume 1 (e 8), .resume 0 (e 7)]

example :
    let a : ServerMessage := .taskAdded { Task.new 7 0 "a" 5 1 with status := .queued }
    let b : ServerMessage := .taskAdded { Task.new 8 0 "b" 5 2 with status := .queued }
    (@runInPieces auth hasher twoSessions crossing).state.sent = [(11, a), (11, b), (12, b), (12, a)] := by
  decide +kernel

end Sample
end XVideoDownloader
