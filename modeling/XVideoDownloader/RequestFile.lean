import XVideoDownloader.Progress

/-!
# The answer to a file request

`handle_request_file` answers for every task that is claimed, complete or not, with what the task's row says and
the address of the row of its claimant. Of a complete task the row says what its claimant has reported
(`records_of_complete`). No row of the `devices` table has an address (`Server.Unaddressed`), so the address is
always the default.
-/

namespace XVideoDownloader
open Lib MessageHandler WsServer

/-! ### The addresses of the devices -/

/-- No device has a public address. -/
def Database.Unaddressed (db : Database) : Prop :=
  ∀ r ∈ db.devices.rows, r.publicIp = none ∧ r.publicPort = none

/-- A row that is written has none. -/
def Op.Unaddressed : Op → Prop
  | .registerDevice device => device.publicIp = none ∧ device.publicPort = none
  | _ => True

namespace Database
variable {db : Database} {fail : Option String}

theorem Unaddressed.modify {db' : Database} {p : Device → Prop} [DecidablePred p] {f : Device → Device}
    (h : db.Unaddressed) (hf : ∀ r ∈ db.devices.rows, (f r).publicIp = none ∧ (f r).publicPort = none)
    (hdb : db'.devices.rows = db.devices.rows.map fun r => if p r then f r else r) : db'.Unaddressed := by
  rw [Unaddressed, hdb]
  refine List.forall_mem_map.2 fun r hr => ?_
  split
  · exact hf r hr
  · exact h r hr

theorem Unaddressed.registerDevice (h : db.Unaddressed) {device : Device}
    (hd : device.publicIp = none ∧ device.publicPort = none) :
    (registerDevice fail db device).2.Unaddressed := by
  unfold Database.registerDevice
  split
  · exact h
  · refine execute_ind Unaddressed h fun a db' _ hup => ?_
    unfold upsertDevice at hup
    split at hup
    · rename_i devices hins
      split at hup <;> cases hup
      show ∀ r ∈ devices.rows, _
      rw [(Table.insert_eq_some.1 hins).2, List.forall_mem_append, List.forall_mem_singleton]
      exact ⟨h, hd⟩
    · cases hup
      exact h.modify (by exact fun _ _ => hd) rfl

end Database

section
variable [DefaultHasher] {s : Server}

theorem act_unaddressed (h : s.db.Unaddressed) {o : Op} (ho : o.Unaddressed) (e : Env) :
    (s.act o e).2.db.Unaddressed := by
  cases o with
  | registerDevice device => exact h.registerDevice ho
  | updateDeviceHeartbeat | setDeviceOffline =>
    refine Database.execute_ind Database.Unaddressed h fun a db' _ hdb => ?_
    cases hdb
    exact h.modify (by exact h) rfl
  | createTeam name =>
    refine Database.execute_ind Database.Unaddressed h fun a db' _ hdb => ?_
    split at hdb <;> cases hdb
    exact h
  | createTask task teamId =>
    refine Database.execute_ind Database.Unaddressed h fun a db' _ hdb => ?_
    unfold Database.insertTask at hdb
    split at hdb
    · split at hdb <;> cases hdb
      exact h
    · cases hdb
  | updateTask | releaseTask =>
    refine Database.execute_ind Database.Unaddressed h fun a db' _ hdb => ?_
    cases hdb
    exact h
  | _ => exact h

end

section
variable {h : Hist} {deviceId teamId taskId : Uuid}

theorem wp_handleAddTask_unaddressed (url : String) :
    (handleAddTask deviceId teamId url).wp (fun _ o => o.Unaddressed) (fun _ _ => True) h := by
  simp only [handleAddTask, call, Prog.wp_bind, Prog.wp_op]
  refine ⟨trivial, fun id => ⟨trivial, fun created => ⟨trivial, fun r => ?_⟩⟩⟩
  cases r with
  | error e => exact ⟨trivial, fun _ => trivial⟩
  | ok =>
    simp only [Prog.wp_bind, Prog.wp_op]
    refine ⟨trivial, fun o => ?_⟩
    cases o with
    | none => exact ⟨trivial, fun _ => trivial⟩
    | some ownerId =>
      exact ⟨trivial, fun _ => ⟨trivial, fun _ => ⟨trivial, fun _ => ⟨trivial, fun _ => trivial⟩⟩⟩⟩

theorem wp_store_unaddressed (task : Task) (message : ServerMessage) :
    (store teamId task message).wp (fun _ o => o.Unaddressed) (fun _ _ => True) h := by
  simp only [store, call, Prog.wp_bind, Prog.wp_op]
  refine ⟨trivial, fun r => ?_⟩
  cases r with
  | error e => trivial
  | ok => exact ⟨trivial, fun _ => trivial⟩

theorem wp_enterTeam_unaddressed {key : SessionKey} (team : Team) (message : ServerMessage) (name : String) :
    (enterTeam key team message name).wp (fun _ o => o.Unaddressed) (fun _ _ => True) h := by
  simp only [enterTeam, call, Prog.wp_bind, Prog.wp_op]
  refine ⟨trivial, fun r => ?_⟩
  cases r with
  | none => exact ⟨trivial, fun _ => ⟨⟨rfl, rfl⟩, fun _ => trivial⟩⟩
  | some session =>
    exact ⟨trivial, fun _ => ⟨trivial, fun _ => ⟨trivial, fun _ => ⟨⟨rfl, rfl⟩, fun _ => trivial⟩⟩⟩⟩

theorem wp_checkTaskTimeouts_unaddressed :
    (checkTaskTimeouts teamId).wp (fun _ o => o.Unaddressed) (fun _ _ => True) h := by
  simp only [checkTaskTimeouts, call, Prog.wp_bind, Prog.wp_op]
  refine ⟨trivial, fun r => ?_⟩
  cases r with
  | error e => trivial
  | ok rows =>
    refine ⟨trivial, fun now => Prog.wp_forM (fun _ => True) rows (fun task _ _ _ => ?_) trivial⟩
    unfold releaseOverdue
    split
    · split
      · refine ⟨trivial, fun r => ?_⟩
        cases r with
        | error e => trivial
        | ok => exact ⟨trivial, fun _ => trivial⟩
      · trivial
    · trivial

theorem wp_handleMessage_unaddressed (key : SessionKey) (msg : ClientMessage) :
    (handleMessage key msg).wp (fun _ o => o.Unaddressed) (fun _ _ => True) h := by
  simp only [handleMessage, call, Prog.wp_bind, Prog.wp_op]
  refine ⟨trivial, fun r => ?_⟩
  cases r with
  | none => trivial
  | some session =>
    cases msg with
    | register => trivial
    | heartbeat => exact ⟨trivial, fun _ => trivial⟩
    | leaveTeam => exact ⟨trivial, fun _ => ⟨trivial, fun _ => trivial⟩⟩
    | addTask url => exact wp_handleAddTask_unaddressed url
    | createTeam name =>
      refine ⟨trivial, fun r => ?_⟩
      cases r with
      | error e => exact ⟨trivial, fun _ => trivial⟩
      | ok team => exact wp_enterTeam_unaddressed team _ _
    | joinTeam code =>
      refine ⟨trivial, fun r => ?_⟩
      rcases r with e | _ | team
      · exact ⟨trivial, fun _ => trivial⟩
      · exact ⟨trivial, fun _ => trivial⟩
      · exact wp_enterTeam_unaddressed team _ _
    | claimTask taskId =>
      refine wp_findTask trivial (fun rows task _ _ => ?_) fun r => ⟨trivial, fun _ => trivial⟩
      split
      · exact ⟨trivial, fun _ => trivial⟩
      · exact ⟨trivial, fun _ => wp_store_unaddressed _ _⟩
    | updateProgress taskId progress =>
      refine wp_findTask trivial (fun rows task _ _ => ?_) fun r => trivial
      split
      · trivial
      · exact wp_store_unaddressed _ _
    | taskComplete taskId localPath fileSize =>
      refine wp_findTask trivial (fun rows task _ _ => ?_) fun r => trivial
      split
      · trivial
      · exact wp_store_unaddressed _ _
    | requestFile taskId =>
      refine wp_findTask trivial (fun rows task _ _ => ?_) fun r => trivial
      split
      · refine ⟨trivial, fun r => ?_⟩
        rcases r with e | _ | owner <;> exact ⟨trivial, fun _ => trivial⟩
      · trivial

variable [AuthDeps]

/-- No handler writes an address. -/
theorem Job.wp_unaddressed (j : Job) : j.code.wp (fun _ o => o.Unaddressed) (fun _ _ => True) [] := by
  cases j with
  | connect key firstMsg =>
    simp only [Job.code, handleConnection]
    split
    · simp only [call, Prog.wp_bind, Prog.wp_op]
      refine ⟨trivial, fun now => ?_⟩
      split
      · unfold registerClient
        split
        · exact ⟨trivial, fun _ => ⟨trivial, fun _ => trivial⟩⟩
        · exact ⟨trivial, fun _ => trivial⟩
      · trivial
    · trivial
  | disconnect key => exact ⟨trivial, fun _ => trivial⟩
  | sweep =>
    refine ⟨trivial, fun r => ?_⟩
    cases r with
    | error e => trivial
    | ok teamIds =>
      exact Prog.wp_forM (fun _ => True) teamIds (fun _ _ _ _ => wp_checkTaskTimeouts_unaddressed) trivial
  | text key msg =>
    simp only [Job.code, onText, call]
    split
    · simp only [Prog.wp_bind, Prog.wp_op]
      exact ⟨trivial, fun _ => wp_handleMessage_unaddressed key _⟩
    · exact wp_handleMessage_unaddressed key _

theorem unaddressed_handleAll [DefaultHasher] {s : Server} (hs : s.db.Unaddressed) (xs : List (Job × Stream' Env)) :
    (s.handleAll xs).db.Unaddressed := by
  induction xs generalizing s with
  | nil => exact hs
  | cons x xs ih =>
    refine ih (x.1.wp_unaddressed.exec (J := fun s' : Server => s'.db.Unaddressed) ?_ x.2 hs)
    intro _ o e s' ho hs'
    exact act_unaddressed hs' ho e

end

/-! ### The reports of completion -/

/-- What a `TaskComplete` reports, and who sent it. -/
structure Completion where
  deviceId : Uuid
  localPath : String
  fileSize : Nat
  deriving DecidableEq

structure Task.Records (r : Task) (c : Completion) : Prop where
  claimedBy : r.claimedBy = some c.deviceId
  localPath : r.localPath = some c.localPath
  fileSize : r.fileSize = some c.fileSize

namespace Server
variable [DefaultHasher]

/-- The completion of the task that is stored by the job: its claimant reports it, and neither reading the task nor
writing it fails. -/
def completion (s : Server) (x : Job × Stream' Env) (taskId : Uuid) : Option Completion :=
  match x.1 with
  | .text key (.taskComplete id localPath fileSize) =>
    (s.session key).bind fun session =>
      if id = taskId ∧ (x.2.get 1).fail = none ∧ (x.2.get 2).fail = none ∧ ∃ r ∈ s.tasks, r.ReportedBy session id then
        some ⟨session.deviceId, localPath, fileSize⟩
      else none
  | _ => none

variable [AuthDeps]

/-- The last completion of the task that the jobs store, if `c` was the last before them. -/
def completed (s : Server) (taskId : Uuid) (c : Option Completion) : List (Job × Stream' Env) → Option Completion
  | [] => c
  | x :: xs => (s.handle x).completed taskId ((s.completion x taskId).or c) xs

variable {s : Server} {key : SessionKey} {session : Session}

theorem handle_taskComplete (hs : s.session key = some session) (taskId : Uuid) (localPath : String) (fileSize : Nat)
    (ω : Stream' Env) :
    (s.handle (.text key (.taskComplete taskId localPath fileSize), ω)).tasks =
      if (ω.get 1).fail = none ∧ (ω.get 2).fail = none then
        s.tasks.map fun r =>
          if r.ReportedBy session taskId then
            { r with
              status := .complete, localPath := some localPath, fileSize := some fileSize, progress := 1,
              version := r.version + 1 }
          else r
      else s.tasks :=
  tasks_of_reports
    (Server.calls_text_some
      (p := fun x => handleTaskComplete x.deviceId x.teamId taskId localPath fileSize) rfl hs ω)
    (calls_handleTaskComplete s session.deviceId session.teamId taskId localPath fileSize ω.tail)
    fun _ => ⟨rfl, rfl, rfl, rfl, rfl⟩

/-- One job keeps the rows of the complete tasks in step with the reports. -/
theorem records_step (hI : s.Consistent) {taskId : Uuid} {c : Option Completion}
    (h : ∀ r ∈ s.tasks, r.id = taskId → r.status = .complete → ∃ c' ∈ c, r.Records c') (x : Job × Stream' Env) :
    ∀ r ∈ (s.handle x).tasks, r.id = taskId → r.status = .complete →
      ∃ c' ∈ (s.completion x taskId).or c, r.Records c' := by
  intro r' hr' hid hst
  obtain ⟨j, ω⟩ := x
  -- the rows that are not touched, where the job stores no completion
  have hkept : s.completion (j, ω) taskId = none → r' ∈ s.tasks →
      ∃ c' ∈ (s.completion (j, ω) taskId).or c, r'.Records c' := by
    intro hnone hr
    rw [hnone, Option.none_or]
    exact h r' hr hid hst
  by_cases hj : ∃ key id localPath fileSize, j = .text key (.taskComplete id localPath fileSize)
  · obtain ⟨key, id, localPath, fileSize, rfl⟩ := hj
    cases hs : s.session key with
    | none =>
      rw [tasks_of_no_session
        (p := fun x => handleTaskComplete x.deviceId x.teamId id localPath fileSize) rfl hs ω] at hr'
      refine hkept ?_ hr'
      simp only [completion, hs, Option.bind_none]
    | some session =>
      have hcompletion : s.completion (.text key (.taskComplete id localPath fileSize), ω) taskId =
          if id = taskId ∧ (ω.get 1).fail = none ∧ (ω.get 2).fail = none ∧
            ∃ r ∈ s.tasks, r.ReportedBy session id then some ⟨session.deviceId, localPath, fileSize⟩ else none := by
        simp only [completion, hs, Option.bind_some]
      rw [handle_taskComplete hs] at hr'
      split at hr'
      · rename_i hf
        obtain ⟨r, hr, rfl⟩ := List.mem_map.1 hr'
        by_cases hby : r.ReportedBy session id
        · rw [if_pos hby] at hid hst ⊢
          rw [hcompletion, if_pos ⟨hby.1.symm.trans hid, hf.1, hf.2, r, hr, hby⟩]
          exact ⟨_, rfl, hby.2.2, rfl, rfl⟩
        · rw [if_neg hby] at hid hst hr' hkept ⊢
          refine hkept ?_ hr
          rw [hcompletion, if_neg]
          rintro ⟨rfl, -, -, r₁, hr₁, hby₁⟩
          exact hby (eq_of_id hr₁ hr (hby₁.1.trans hid.symm) ▸ hby₁)
      · rename_i hf
        refine hkept ?_ hr'
        rw [hcompletion, if_neg fun h => hf ⟨h.2.1, h.2.2.1⟩]
  · have hnone : s.completion (j, ω) taskId = none := by
      unfold completion
      split
      · exact absurd ⟨_, _, _, _, ‹_›⟩ hj
      · rfl
    rcases (handle_changes hI (j, ω)).backward r' hr' with ⟨r, hr, rfl | ⟨k, hc⟩⟩ | ⟨-, k, hc⟩
    · exact hkept hnone hr
    · cases hc with
      | claim => cases hst
      | release => cases hst
      | complete => exact absurd ⟨_, _, _, _, rfl⟩ hj
      | progress =>
        obtain ⟨c', hc', hrec⟩ := h r hr hid hst
        rw [hnone, Option.none_or]
        exact ⟨c', hc', hrec.claimedBy, hrec.localPath, hrec.fileSize⟩
    · cases hc <;> cases hst

/-- In every state that is reached from an empty table, the row of a complete task says who has last reported it
complete, and what was reported. -/
theorem records_of_complete (hs : s.tasks = []) (xs : List (Job × Stream' Env)) (taskId : Uuid) :
    ∀ r ∈ (s.handleAll xs).tasks, r.id = taskId → r.status = .complete →
      ∃ c ∈ s.completed taskId none xs, r.Records c := by
  have hrun : ∀ (xs : List (Job × Stream' Env)) (s : Server) (c : Option Completion), s.Consistent →
      (∀ r ∈ s.tasks, r.id = taskId → r.status = .complete → ∃ c' ∈ c, r.Records c') →
      ∀ r ∈ (s.handleAll xs).tasks, r.id = taskId → r.status = .complete →
        ∃ c' ∈ s.completed taskId c xs, r.Records c' := by
    intro xs
    induction xs with
    | nil => exact fun s c _ h => h
    | cons x xs ih => exact fun s c hI h => ih _ _ (hI.handleAll [x]) (records_step hI h x)
  refine hrun xs s none (.of_empty hs) fun r hr => ?_
  rw [hs] at hr
  cases hr

end Server

/-! ### The answer -/

/-- What is answered about a task with a claimant, where no device has an address. -/
def Task.available (r : Task) (ownerId : Uuid) : ServerMessage :=
  .fileAvailable r.id ownerId "0.0.0.0" 0 ((r.localPath.map fun p => (Text.fileName p).getD "").getD "")
    (r.fileSize.getD 0)

namespace Server
variable [DefaultHasher] [AuthDeps] {s : Server} {key : SessionKey} {session : Session}

omit [AuthDeps] in
theorem answer_getDevice {e : Env} {deviceId : Uuid} {owner : Device}
    (h : (s.act (.getDevice deviceId) e).1 = .ok (some owner)) : owner ∈ s.db.devices.rows := by
  have hquery : (Database.query e.fail s.db fun db => db.devices.rows.find? fun d => d.id = deviceId).1 =
      .ok (some owner) := h
  exact List.mem_of_find?_eq_some (Database.query_eq_ok hquery).symm

/-- If the task has a claimant, the requesting device is sent the address of nobody. -/
theorem posted_requestFile (hu : s.db.Unaddressed) (hs : s.session key = some session) {r : Task}
    (hr : r ∈ s.tasks) (hteam : r.teamId = session.teamId) (ω : Stream' Env) :
    s.posted (.text key (.requestFile r.id), ω) =
      if (ω.get 1).fail = none then
        (r.claimedBy.map fun d => s.addressed (fun x => x.deviceId = session.deviceId) (r.available d)).getD []
      else [] := by
  rw [posted, calls_text_some (p := fun x => handleRequestFile x.deviceId x.teamId r.id) rfl hs]
  unfold handleRequestFile
  rw [List.flatMap_cons]
  refine calls_findTask s ω.tail (P := fun l => _ ++ l.flatMap _ = _) (fun q hq hid hteam' hf => ?_) fun hno => ?_
  · obtain rfl := eq_of_id hq hr hid
    have hf' : (ω.get 1).fail = none := hf
    rw [if_pos hf']
    cases hc : q.claimedBy with
    | none => rfl
    | some d =>
      have haddress : ∀ {e : Env} {owner : Device}, (s.act (.getDevice d) e).1 = .ok (some owner) →
          owner.publicIp = none ∧ owner.publicPort = none := fun h => hu _ (answer_getDevice h)
      simp only [call, Prog.calls_bind, Prog.calls_op, Prog.exec_op]
      split
      · rename_i owner ha
        rw [(haddress ha).1, (haddress ha).2]
        exact List.append_nil _
      · exact List.append_nil _
  · have hf : ¬ (ω.get 1).fail = none := fun hf => hno hf r hr rfl hteam
    rw [if_neg hf]
    rfl

/-- A `FileAvailable` for the task is sent exactly if the task is complete. It names who has last reported that, and
the file that was reported, and gives the public address that the device is registered with. -/
structure Truthful (s : Server) (c : Option Completion) (x : Job × Stream' Env) (r : Task) : Prop where
  sent : (∃ p ∈ s.posted x, ∃ fromDevice ip port filename size,
    p.2 = .fileAvailable r.id fromDevice ip port filename size) ↔ r.status = .complete
  message : ∀ p ∈ s.posted x, ∀ fromDevice ip port filename size,
    p.2 = .fileAvailable r.id fromDevice ip port filename size →
      (∃ c' ∈ c, fromDevice = c'.deviceId ∧ filename = (Text.fileName c'.localPath).getD "" ∧ size = c'.fileSize) ∧
        ∃ d ∈ s.db.devices.rows, d.id = fromDevice ∧ d.publicIp = some ip ∧ d.publicPort = some port ∧
          ip ≠ "0.0.0.0" ∧ port ≠ 0

theorem truthful_iff (hu : s.db.Unaddressed) (hs : s.session key = some session) {r : Task} (hr : r ∈ s.tasks)
    (hteam : r.teamId = session.teamId) (hI : r.Consistent) (c : Option Completion) (ω : Stream' Env) :
    s.Truthful c (.text key (.requestFile r.id), ω) r ↔
      r.status = .queued ∨ r.status = .claimed ∧ (ω.get 1).fail ≠ none := by
  have hposted := posted_requestFile hu hs hr hteam ω
  constructor
  · intro h
    by_cases hq : r.status = .queued
    · exact Or.inl hq
    obtain ⟨d, hd⟩ := Option.ne_none_iff_exists'.1 fun hn => hq (hI.claimedBy.1 hn)
    have hfail : (ω.get 1).fail ≠ none := by
      intro hf
      -- the requesting session itself is answered, with an address that no row has
      have hmem : (session, r.available d) ∈ s.posted (.text key (.requestFile r.id), ω) := by
        rw [hposted, if_pos hf, hd, Option.map_some, Option.getD_some]
        exact mem_addressed.2 ⟨(session_eq_some.1 hs).1, decide_eq_true rfl, rfl⟩
      obtain ⟨-, row, hrow, -, hip, -⟩ := h.message _ hmem _ _ _ _ _ rfl
      cases (hu row hrow).1.symm.trans hip
    rw [if_neg hfail] at hposted
    have hst : r.status ≠ .complete := fun hst => by
      obtain ⟨p, hp, -⟩ := h.sent.2 hst
      rw [hposted] at hp
      cases hp
    rcases hI.status with hst' | hst' | hst'
    · exact absurd hst' hq
    · exact Or.inr ⟨hst', hfail⟩
    · exact absurd hst' hst
  · intro h
    have hnil : s.posted (.text key (.requestFile r.id), ω) = [] := by
      rw [hposted]
      rcases h with hq | ⟨-, hf⟩
      · rw [hI.claimedBy.2 hq, Option.map_none, Option.getD_none, ite_self]
      · exact if_neg hf
    have hst : r.status ≠ .complete := by
      rcases h with h | ⟨h, -⟩ <;> simp [h]
    constructor
    · rw [hnil]
      refine iff_of_false ?_ hst
      rintro ⟨p, hp, -⟩
      cases hp
    · rw [hnil]
      exact fun p hp => absurd hp List.not_mem_nil

/-- About a complete task the answer is right in all but the address. -/
theorem posted_of_complete (foreignKeys : Bool) (xs : List (Job × Stream' Env)) (key : SessionKey) (session : Session)
    (hs : ((Server.new foreignKeys).handleAll xs).session key = some session) (r : Task)
    (hr : r ∈ ((Server.new foreignKeys).handleAll xs).tasks) (hteam : r.teamId = session.teamId)
    (hst : r.status = .complete) (ω : Stream' Env) (hω : (ω.get 1).fail = none) :
    ∃ c ∈ (Server.new foreignKeys).completed r.id none xs,
      ((Server.new foreignKeys).handleAll xs).posted (.text key (.requestFile r.id), ω) =
        ((Server.new foreignKeys).handleAll xs).addressed (fun x => x.deviceId = session.deviceId)
          (.fileAvailable r.id c.deviceId "0.0.0.0" 0 ((Text.fileName c.localPath).getD "") c.fileSize) := by
  have hu : ((Server.new foreignKeys).handleAll xs).db.Unaddressed :=
    unaddressed_handleAll (fun _ hr => absurd hr List.not_mem_nil) xs
  obtain ⟨c, hc, hrec⟩ := records_of_complete (s := Server.new foreignKeys) rfl xs r.id r hr rfl hst
  refine ⟨c, hc, ?_⟩
  rw [posted_requestFile hu hs hr hteam, if_pos hω, hrec.claimedBy, Option.map_some, Option.getD_some, Task.available,
    hrec.localPath, hrec.fileSize, Option.map_some, Option.getD_some, Option.getD_some]

/-- In every state that jobs handled one at a time reach from an empty database, a request from the task's team is
answered truthfully if and only if nothing is answered and nothing is to be: the task is queued, or it is claimed but not
complete and reading the tasks fails. -/
theorem file_available_iff (foreignKeys : Bool) (xs : List (Job × Stream' Env)) (key : SessionKey) (session : Session)
    (hs : ((Server.new foreignKeys).handleAll xs).session key = some session) (r : Task)
    (hr : r ∈ ((Server.new foreignKeys).handleAll xs).tasks) (hteam : r.teamId = session.teamId) (ω : Stream' Env) :
    ((Server.new foreignKeys).handleAll xs).Truthful ((Server.new foreignKeys).completed r.id none xs)
        (.text key (.requestFile r.id), ω) r ↔
      r.status = .queued ∨ r.status = .claimed ∧ (ω.get 1).fail ≠ none :=
  truthful_iff (unaddressed_handleAll (fun _ hr => absurd hr List.not_mem_nil) xs) hs hr hteam
    ((Server.Consistent.of_empty rfl).handleAll xs r hr) _ ω

end Server

namespace Sample

/-- Device 1 creates a team and adds a task. -/
def oneTask : List (Job × Stream' Env) :=
  [(.connect 101 firstMsg, always 0 "" 1000), (.text 101 (.createTeam "a"), always 10 "code" 1000),
    (.text 101 (.addTask "u"), always 7 "" 1000)]

theorem file_available_oneTask :
    ∃ r ∈ ((Server.new true).handleAll oneTask).tasks, r.id = 7 ∧
      ((Server.new true).handleAll oneTask).Truthful ((Server.new true).completed r.id none oneTask)
        (.text 101 (.requestFile r.id), always 0 "" 1000) r := by
  have hsession : ((Server.new true).handleAll oneTask).session 101 = some ⟨101, 1, 10⟩ := by
    rw [oneTask, handleAll_connect]
    decide +kernel
  have hmem : { Task.new 7 1000000000000 "u" 10 1 with status := .queued } ∈
      ((Server.new true).handleAll oneTask).tasks := by
    rw [oneTask, handleAll_connect]
    decide +kernel
  exact ⟨_, hmem, rfl,
    (Server.file_available_iff true oneTask 101 _ hsession _ hmem rfl (always 0 "" 1000)).2 (Or.inl rfl)⟩

/-- Then it claims the task. -/
def oneClaim : List (Job × Stream' Env) := oneTask ++ [(.text 101 (.claimTask 7), always 0 "" 1000)]

/-- Then it completes it. -/
def oneFile : List (Job × Stream' Env) := oneClaim ++ [(.text 101 (.taskComplete 7 "/d/u.mp4" 9), always 0 "" 1000)]

/-- The file is advertised before there is one, and, when there is one, at an address that nobody registered. -/
theorem not_truthful_oneClaim :
    (((Server.new true).handleAll oneClaim).posted (.text 101 (.requestFile 7), always 0 "" 1000) =
        [(⟨101, 1, 10⟩, .fileAvailable 7 1 "0.0.0.0" 0 "" 0)] ∧
      ∃ r ∈ ((Server.new true).handleAll oneClaim).tasks, r.id = 7 ∧ r.status = .claimed ∧
        ¬ ((Server.new true).handleAll oneClaim).Truthful ((Server.new true).completed r.id none oneClaim)
          (.text 101 (.requestFile r.id), always 0 "" 1000) r) ∧
    ((Server.new true).handleAll oneFile).posted (.text 101 (.requestFile 7), always 0 "" 1000) =
        [(⟨101, 1, 10⟩, .fileAvailable 7 1 "0.0.0.0" 0 "u.mp4" 9)] ∧
      ∃ r ∈ ((Server.new true).handleAll oneFile).tasks, r.id = 7 ∧ r.status = .complete ∧
        ¬ ((Server.new true).handleAll oneFile).Truthful ((Server.new true).completed r.id none oneFile)
          (.text 101 (.requestFile r.id), always 0 "" 1000) r := by
  have hrefuted : ∀ (s : Server) (c : Option Completion) (r : Task) (ip : String) (port : UInt16) (name : String)
      (size : Nat), r.id = 7 → s.posted (.text 101 (.requestFile 7), always 0 "" 1000) =
        [(⟨101, 1, 10⟩, .fileAvailable 7 1 ip port name size)] → s.db.devices.rows.map (·.publicIp) = [none] →
      ¬ s.Truthful c (.text 101 (.requestFile r.id), always 0 "" 1000) r := by
    intro s c r ip port name size hid hposted hrows h
    rw [hid] at h
    obtain ⟨-, d, hd, -, hip, -⟩ := h.message _ (hposted ▸ List.mem_singleton.2 rfl) 1 ip port name size (hid ▸ rfl)
    have hnone := List.mem_map_of_mem (f := fun r : Device => r.publicIp) hd
    rw [hrows, List.mem_singleton] at hnone
    cases hnone.symm.trans hip
  constructor
  · have hclaim : (Server.new true).handleAll oneClaim = connected.handleAll oneClaim.tail := handleAll_connect _
    have hposted : ((Server.new true).handleAll oneClaim).posted (.text 101 (.requestFile 7), always 0 "" 1000) =
        [(⟨101, 1, 10⟩, .fileAvailable 7 1 "0.0.0.0" 0 "" 0)] := by rw [hclaim]; decide +kernel
    have hrows : ((Server.new true).handleAll oneClaim).db.devices.rows.map (·.publicIp) = [none] := by
      rw [hclaim]
      decide +kernel
    obtain ⟨r, hr, hid, hst⟩ : ∃ r ∈ ((Server.new true).handleAll oneClaim).tasks, r.id = 7 ∧ r.status = .claimed := by
      rw [hclaim]
      decide +kernel
    exact ⟨hposted, r, hr, hid, hst, hrefuted _ _ r _ _ _ _ hid hposted hrows⟩
  · have hfile : (Server.new true).handleAll oneFile = connected.handleAll oneFile.tail := handleAll_connect _
    have hposted : ((Server.new true).handleAll oneFile).posted (.text 101 (.requestFile 7), always 0 "" 1000) =
        [(⟨101, 1, 10⟩, .fileAvailable 7 1 "0.0.0.0" 0 "u.mp4" 9)] := by rw [hfile]; decide +kernel
    have hrows : ((Server.new true).handleAll oneFile).db.devices.rows.map (·.publicIp) = [none] := by
      rw [hfile]
      decide +kernel
    obtain ⟨r, hr, hid, hst⟩ : ∃ r ∈ ((Server.new true).handleAll oneFile).tasks, r.id = 7 ∧ r.status = .complete := by
      rw [hfile]
      decide +kernel
    exact ⟨hposted, r, hr, hid, hst, hrefuted _ _ r _ _ _ _ hid hposted hrows⟩

end Sample

end XVideoDownloader
