import XVideoDownloader.Lifecycle

/-!
# What the server sends

`Server.posts` are the messages that one operation sends, with the sessions they go to, and `Server.posted`
those of a whole job. They are what `sent` grows by (`Server.handle_sent`).
-/

namespace XVideoDownloader
open Lib MessageHandler WsServer

/-- The calls of a job, in order. -/
abbrev Calls := List (Prog.Made Op Env Server)

namespace ServerMessage

/-- The task that the message is about. -/
def taskId? : ServerMessage → Option Uuid
  | taskAdded task | taskUpdated task => some task.id
  | taskClaimed taskId _ | taskReleased taskId _ => some taskId
  | _ => none

/-- The team that the receiver is told to be in. -/
def entered? : ServerMessage → Option Team
  | teamCreated team | teamJoined team => some team
  | _ => none

end ServerMessage

namespace Server

/-- The sessions that `p` selects, each with the message. -/
def addressed (s : Server) (p : Session → Bool) (message : ServerMessage) : List (Session × ServerMessage) :=
  (s.sessions.rows.filter p).map fun x => (x, message)

theorem mem_addressed {s : Server} {p : Session → Bool} {message : ServerMessage} {y : Session × ServerMessage} :
    y ∈ s.addressed p message ↔ y.1 ∈ s.sessions.rows ∧ p y.1 ∧ y.2 = message := by
  constructor
  · intro h
    obtain ⟨x, hx, rfl⟩ := List.mem_map.1 h
    obtain ⟨hx, hp⟩ := List.mem_filter.1 hx
    exact ⟨hx, hp, rfl⟩
  · rintro ⟨hx, hp, rfl⟩
    exact List.mem_map.2 ⟨y.1, List.mem_filter.2 ⟨hx, hp⟩, rfl⟩

theorem session_eq_some {s : Server} {key : SessionKey} {x : Session} :
    s.session key = some x ↔ x ∈ s.sessions.rows ∧ x.key = key := by
  constructor
  · intro h
    exact ⟨List.mem_of_find?_eq_some h, by simpa using List.find?_some h⟩
  · rintro ⟨hx, rfl⟩
    refine s.sessions.find?_eq_some hx (by simp) fun y hy => ?_
    have hy' : y.key = x.key := by simpa using hy
    exact ⟨hy', hy'.symm⟩

def posts (s : Server) : Op → List (Session × ServerMessage)
  | .sendToDevice deviceId message => s.addressed (fun x => x.deviceId = deviceId) message
  | .broadcastToTeam teamId message => s.addressed (fun x => x.teamId = teamId) message
  | .sendError key message => s.addressed (fun x => x.key = key) (.error message)
  | _ => []

theorem mem_of_posts {s : Server} {o : Op} {p : Session × ServerMessage} (h : p ∈ s.posts o) :
    p.1 ∈ s.sessions.rows := by
  cases o with
  | sendToDevice | broadcastToTeam | sendError => exact (mem_addressed.1 h).1
  | _ => cases h

variable [DefaultHasher]

theorem act_sent (o : Op) (e : Env) (s : Server) :
    (s.act o e).2.sent = s.sent ++ (s.posts o).map fun p => (p.1.key, p.2) := by
  cases o with
  | sendToDevice | broadcastToTeam | sendError => simp [act, post, posts, addressed]
  | _ => exact (List.append_nil _).symm

variable [AuthDeps]

def calls (s : Server) (x : Job × Stream' Env) : Calls := x.1.code.calls act x.2 s

def posted (s : Server) (x : Job × Stream' Env) : List (Session × ServerMessage) :=
  (s.calls x).flatMap fun c => c.state.posts c.op

theorem handle_sent (s : Server) (x : Job × Stream' Env) :
    (s.handle x).sent = s.sent ++ (s.posted x).map fun p => (p.1.key, p.2) := by
  have h := Prog.exec_log act (γ := SessionKey × ServerMessage) Server.sent
    (fun c => (c.state.posts c.op).map fun p => (p.1.key, p.2)) (fun o e s => act_sent o e s) x.1.code x.2 s
  rw [posted, List.map_flatMap]
  exact h

end Server

/-! ### Jobs that speak of no task and no team -/

/-- Whatever the operation sends says nothing of a task, and of no team that was entered. -/
def Op.Plain (o : Op) : Prop := ∀ s : Server, ∀ p ∈ s.posts o, p.2.taskId? = none ∧ p.2.entered? = none

theorem Op.plain_of_posts {o : Op} (h : ∀ s : Server, s.posts o = []) : o.Plain := by
  intro s p hp
  rw [h s] at hp
  cases hp

theorem Op.plain_sendToDevice {deviceId : Uuid} {message : ServerMessage} (ht : message.taskId? = none)
    (he : message.entered? = none) : (Op.sendToDevice deviceId message).Plain := by
  intro s p hp
  rw [(Server.mem_addressed.1 hp).2.2]
  exact ⟨ht, he⟩

theorem Op.plain_sendError {key : SessionKey} {text : String} : (Op.sendError key text).Plain := by
  intro s p hp
  rw [(Server.mem_addressed.1 hp).2.2]
  exact ⟨rfl, rfl⟩

def Job.plain : Job → Bool
  | .connect .. | .disconnect _ => true
  | .text _ (.register ..) | .text _ (.heartbeat _) | .text _ (.requestFile _) | .text _ (.leaveTeam _) => true
  | _ => false

section
variable [AuthDeps]

theorem Job.wp_plain {j : Job} (hj : j.plain) : j.code.wp (fun _ o => o.Plain) (fun _ _ => True) [] := by
  have hnil : ∀ {o : Op}, (∀ s : Server, s.posts o = []) → o.Plain := Op.plain_of_posts
  cases j with
  | connect key firstMsg =>
    simp only [Job.code, handleConnection]
    split
    · simp only [call, Prog.wp_bind, Prog.wp_op]
      refine ⟨hnil fun _ => rfl, fun now => ?_⟩
      split
      · unfold registerClient
        split
        · exact ⟨hnil fun _ => rfl, fun _ => ⟨hnil fun _ => rfl, fun _ => trivial⟩⟩
        · exact ⟨hnil fun _ => rfl, fun _ => trivial⟩
      · trivial
    · trivial
  | disconnect key => exact ⟨hnil fun _ => rfl, fun _ => trivial⟩
  | sweep => cases hj
  | text key msg =>
    cases msg with
    | register deviceId teamId name =>
      refine ⟨hnil fun _ => rfl, fun _ => ⟨hnil fun _ => rfl, fun r => ?_⟩⟩
      cases r <;> trivial
    | heartbeat =>
      refine ⟨hnil fun _ => rfl, fun r => ?_⟩
      cases r with
      | none => trivial
      | some x => exact ⟨hnil fun _ => rfl, fun _ => trivial⟩
    | leaveTeam =>
      refine ⟨hnil fun _ => rfl, fun r => ?_⟩
      cases r with
      | none => trivial
      | some x => exact ⟨hnil fun _ => rfl, fun _ => ⟨hnil fun _ => rfl, fun _ => trivial⟩⟩
    | requestFile taskId =>
      refine ⟨hnil fun _ => rfl, fun r => ?_⟩
      cases r with
      | none => trivial
      | some x =>
        show (handleRequestFile x.deviceId x.teamId taskId).wp _ _ _
        simp only [handleRequestFile, call, Prog.wp_bind, Prog.wp_op]
        refine ⟨hnil fun _ => rfl, fun r => ?_⟩
        split
        · split
          · split
            · simp only [Prog.wp_bind, Prog.wp_op]
              refine ⟨hnil fun _ => rfl, fun r => ?_⟩
              split <;> exact ⟨Op.plain_sendToDevice rfl rfl, fun _ => trivial⟩
            · trivial
          · trivial
        · trivial
    | _ => cases hj

theorem Server.calls_plain [DefaultHasher] {j : Job} (hj : j.plain) (ω : Stream' Env) (s : Server) :
    ∀ c ∈ s.calls (j, ω), c.op.Plain := fun c hc => by
  obtain ⟨-, -, h⟩ := (Job.wp_plain hj).calls (J := fun _ => True) (fun _ _ _ _ _ _ => trivial) ω trivial c hc
  exact h

theorem Server.posted_plain [DefaultHasher] {j : Job} (hj : j.plain) (ω : Stream' Env) (s : Server) :
    ∀ p ∈ s.posted (j, ω), p.2.taskId? = none ∧ p.2.entered? = none := fun p hp => by
  obtain ⟨c, hc, hp⟩ := List.mem_flatMap.1 hp
  exact calls_plain hj ω s c hc c.state p hp

/-! ### Jobs that speak of no task -/

def Op.Taskless (o : Op) : Prop := ∀ s : Server, ∀ p ∈ s.posts o, p.2.taskId? = none

omit [AuthDeps] in
theorem Op.Plain.taskless {o : Op} (h : o.Plain) : o.Taskless := fun s p hp => (h s p hp).1

omit [AuthDeps] in
theorem wp_enterTeam_taskless {key : SessionKey} {team : Team} {message : ServerMessage} (name : String)
    (hm : message.taskId? = none) (h : List (Call Op.Ans)) :
    (enterTeam key team message name).wp (fun _ o => o.Taskless) (fun _ _ => True) h := by
  have hnil : ∀ {o : Op}, (∀ s : Server, s.posts o = []) → o.Taskless := fun h => (Op.plain_of_posts h).taskless
  simp only [enterTeam, call, Prog.wp_bind, Prog.wp_op]
  refine ⟨hnil fun _ => rfl, fun r => ?_⟩
  cases r with
  | none => exact ⟨hnil fun _ => rfl, fun _ => ⟨hnil fun _ => rfl, fun _ => trivial⟩⟩
  | some session =>
    simp only [Prog.wp_bind, Prog.wp_op]
    refine ⟨hnil fun _ => rfl, fun _ => ⟨?_, fun _ => ⟨hnil fun _ => rfl, fun _ =>
      ⟨hnil fun _ => rfl, fun _ => trivial⟩⟩⟩⟩
    intro s p hp
    rw [(Server.mem_addressed.1 hp).2.2]
    exact hm

theorem Job.wp_entering {key : SessionKey} {msg : ClientMessage}
    (hmsg : ∃ text, msg = .createTeam text ∨ msg = .joinTeam text) :
    (Job.text key msg).code.wp (fun _ o => o.Taskless) (fun _ _ => True) [] := by
  have hnil : ∀ {o : Op}, (∀ s : Server, s.posts o = []) → o.Taskless := fun h => (Op.plain_of_posts h).taskless
  obtain ⟨text, rfl | rfl⟩ := hmsg
  · refine ⟨hnil fun _ => rfl, fun r => ?_⟩
    cases r with
    | none => trivial
    | some x =>
      show (handleCreateTeam key text).wp _ _ _
      simp only [handleCreateTeam, call, Prog.wp_bind, Prog.wp_op]
      refine ⟨hnil fun _ => rfl, fun r => ?_⟩
      cases r with
      | error e => exact ⟨Op.plain_sendError.taskless, fun _ => trivial⟩
      | ok team => exact wp_enterTeam_taskless _ rfl _
  · refine ⟨hnil fun _ => rfl, fun r => ?_⟩
    cases r with
    | none => trivial
    | some x =>
      show (handleJoinTeam key text).wp _ _ _
      simp only [handleJoinTeam, call, Prog.wp_bind, Prog.wp_op]
      refine ⟨hnil fun _ => rfl, fun r => ?_⟩
      rcases r with e | _ | team
      · exact ⟨Op.plain_sendError.taskless, fun _ => trivial⟩
      · exact ⟨Op.plain_sendError.taskless, fun _ => trivial⟩
      · exact wp_enterTeam_taskless _ rfl _

/-- Only these jobs speak of tasks. -/
def Job.ofTasks : Job → Bool
  | .text _ (.addTask _) | .text _ (.claimTask _) | .text _ (.updateProgress ..) | .text _ (.taskComplete ..) => true
  | .sweep => true
  | _ => false

theorem Server.posted_taskless [DefaultHasher] {j : Job} (hj : j.ofTasks = false) (ω : Stream' Env) (s : Server) :
    ∀ p ∈ s.posted (j, ω), p.2.taskId? = none := by
  have hentering : ∀ {key : SessionKey} {msg : ClientMessage},
      (∃ text, msg = .createTeam text ∨ msg = .joinTeam text) →
        ∀ p ∈ s.posted (.text key msg, ω), p.2.taskId? = none := by
    intro key msg hmsg p hp
    obtain ⟨c, hc, hp⟩ := List.mem_flatMap.1 hp
    obtain ⟨-, -, h⟩ := (Job.wp_entering hmsg).calls (J := fun _ => True) (fun _ _ _ _ _ _ => trivial) ω trivial c hc
    exact h c.state p hp
  cases j with
  | connect | disconnect => exact fun p hp => (posted_plain rfl ω s p hp).1
  | sweep => cases hj
  | text key msg =>
    cases msg with
    | createTeam name => exact hentering ⟨name, .inl rfl⟩
    | joinTeam code => exact hentering ⟨code, .inr rfl⟩
    | register | heartbeat | requestFile | leaveTeam => exact fun p hp => (posted_plain rfl ω s p hp).1
    | _ => cases hj

theorem Server.handle_taskless [DefaultHasher] {j : Job} (hj : j.ofTasks = false) (ω : Stream' Env) (s : Server) :
    (s.handle (j, ω)).tasks = s.tasks := by
  refine handle_quiet ?_ ?_ ?_
  · rintro key url rfl
    cases hj
  · rintro hist task t hstores
    cases hstores <;> cases hj
  · rintro rfl
    cases hj

end

end XVideoDownloader
