import XVideoDownloader.Isolation
import XVideoDownloader.Lifecycle

/-!
# What a team can learn about the others

`Server.view A` is the server without the tasks of the teams other than `A`. Every operation that a message
handler of team `A` makes answers on the view as it does on the server (`act_view`), with one exception:
`create_task` refuses a URL that any team has. So the effect of a message depends on the view and, for
`AddTask`, on whether another team has the URL.
-/

namespace XVideoDownloader
open Lib MessageHandler WsServer

def Database.view (A : Uuid) (db : Database) : Database :=
  { db with tasks := db.tasks.delete fun r => r.teamId ≠ A }

def Server.view (A : Uuid) (s : Server) : Server := { s with db := s.db.view A }

def Server.own (s : Server) (A : Uuid) : List Task := s.tasks.filter fun r => r.teamId = A

/-- The operation looks at no other team's tasks. -/
def Op.Within (A : Uuid) : Op → Prop
  | .createTask .. => False
  | .getTasksByTeam teamId | .getClaimedTasks teamId => teamId = A
  | _ => True

namespace Server

theorem tasks_view (A : Uuid) (s : Server) : (s.view A).tasks = s.own A := by
  refine List.filter_congr fun r _ => ?_
  simp

theorem exists_own_or_foreign (A : Uuid) (s : Server) (p : Task → Prop) :
    (∃ r ∈ s.tasks, p r) ↔ (∃ r ∈ s.own A, p r) ∨ ∃ r ∈ s.foreign A, p r := by
  simp only [own, foreign, List.mem_filter, decide_eq_true_eq]
  constructor
  · rintro ⟨r, hr, hp⟩
    by_cases h : r.teamId = A
    · exact .inl ⟨r, ⟨hr, h⟩, hp⟩
    · exact .inr ⟨r, ⟨hr, h⟩, hp⟩
  · rintro (⟨r, ⟨hr, -⟩, hp⟩ | ⟨r, ⟨hr, -⟩, hp⟩) <;> exact ⟨r, hr, hp⟩

end Server

namespace Database
variable {α : Type} {A : Uuid} {fail : Option String} {db : Database}

theorem execute_view {stmt : Database → Except String (α × Database)}
    (h : stmt (db.view A) = (stmt db).map fun x => (x.1, x.2.view A)) :
    execute fail (db.view A) stmt = ((execute fail db stmt).1, (execute fail db stmt).2.view A) := by
  unfold execute
  cases fail with
  | some e => rfl
  | none =>
    simp only [h]
    cases stmt db <;> rfl

theorem setTask_view (id : Uuid) (f : Task → Task) (hf : ∀ r, (f r).id = r.id ∧ (f r).url = r.url)
    (hteam : ∀ r, (f r).teamId = r.teamId) : (db.view A).setTask id f hf = (db.setTask id f hf).view A := by
  have hrows : ((db.view A).setTask id f hf).tasks = ((db.setTask id f hf).view A).tasks := by
    refine Table.ext ?_
    show List.map _ (List.filter _ _) = List.filter _ (List.map _ _)
    rw [List.filter_map]
    congr 1
    refine List.filter_congr fun r _ => ?_
    have hr : (if r.id = id then f r else r).teamId = r.teamId := by
      split
      · exact hteam r
      · rfl
    simp only [Function.comp, hr]
  exact congrArg (fun tasks => { db with tasks := tasks }) hrows

theorem upsertDevice_view (device : Device) :
    (db.view A).upsertDevice device = (db.upsertDevice device).map fun x => (x.1, x.2.view A) := by
  have hd : (db.view A).devices = db.devices := rfl
  have ht : (db.view A).referencesTeam device.teamId = db.referencesTeam device.teamId := rfl
  simp only [upsertDevice, hd, ht]
  cases db.devices.insert device with
  | none => rfl
  | some devices => cases db.referencesTeam device.teamId <;> rfl

theorem createTeam_view (id : Uuid) (code : String) (now : Time) (name : String) :
    createTeam fail (db.view A) id code now name =
      ((createTeam fail db id code now name).1, (createTeam fail db id code now name).2.view A) := by
  unfold createTeam
  refine execute_view ?_
  have ht : (db.view A).teams = db.teams := rfl
  simp only [ht]
  cases db.teams.insert ⟨id, name, code, now⟩ <;> rfl

theorem query_view {f : Database → α} (h : f (db.view A) = f db) :
    query fail (db.view A) f = ((query fail db f).1, (query fail db f).2.view A) := by
  simp only [query, h]

theorem filter_view (p : Task → Bool) (hp : ∀ r, p r = true → r.teamId = A) :
    (db.view A).tasks.rows.filter p = db.tasks.rows.filter p := by
  show (db.tasks.rows.filter _).filter p = _
  rw [List.filter_filter]
  refine List.filter_congr fun r _ => ?_
  cases h : p r with
  | false => rfl
  | true => simp [hp r h]

theorem put_view (task : Task) :
    ({ db with tasks := db.tasks.put { task with teamId := A } } : Database).view A =
      { db.view A with tasks := (db.view A).tasks.put { task with teamId := A } } := by
  have hrows : (({ db with tasks := db.tasks.put { task with teamId := A } } : Database).view A).tasks =
      (db.view A).tasks.put { task with teamId := A } := by
    refine Table.ext ?_
    show List.filter _ (List.filter _ _ ++ [_]) = List.filter _ (List.filter _ _) ++ [_]
    rw [List.filter_append, List.filter_filter, List.filter_filter]
    simp [Bool.and_comm]
  exact congrArg (fun tasks => { db with tasks := tasks }) hrows

/-- `create_task` for the team: the same on two databases that look alike, if the task clashes with a row
of both or of neither. -/
theorem createTask_view (fail : Option String) {db₁ db₂ : Database} (hv : db₁.view A = db₂.view A) {task : Task}
    (hc : (∃ r ∈ db₁.tasks.rows, Task.Clash r { task with teamId := A }) ↔
      ∃ r ∈ db₂.tasks.rows, Task.Clash r { task with teamId := A }) :
    (createTask fail db₁ task A).1 = (createTask fail db₂ task A).1 ∧
      (createTask fail db₁ task A).2.view A = (createTask fail db₂ task A).2.view A := by
  cases fail with
  | some e => exact ⟨rfl, hv⟩
  | none =>
    by_cases h : ∃ r ∈ db₁.tasks.rows, Task.Clash r { task with teamId := A }
    · rw [createTask_of_clash h, createTask_of_clash (hc.1 h)]
      exact ⟨rfl, hv⟩
    · have href : db₁.referencesTeam A = db₂.referencesTeam A := by
        show (db₁.view A).referencesTeam A = (db₂.view A).referencesTeam A
        rw [hv]
      rw [createTask_of_noClash h, createTask_of_noClash (mt hc.2 h), href]
      split
      · refine ⟨rfl, ?_⟩
        dsimp only
        rw [put_view, put_view, hv]
      · exact ⟨rfl, hv⟩

theorem createTask_eq_ok_iff (fail : Option String) (db : Database) (task : Task) (teamId : Uuid) :
    (createTask fail db task teamId).1 = .ok () ↔
      fail = none ∧ (¬ ∃ r ∈ db.tasks.rows, Task.Clash r { task with teamId := teamId }) ∧
        db.referencesTeam teamId = true := by
  cases fail with
  | some m =>
    rcases createTask_cases (some m) db task teamId with ⟨⟨msg, hm⟩, -⟩ | ⟨-, hf, -⟩
    · simp [hm]
    · cases hf
  | none =>
    by_cases hc : ∃ r ∈ db.tasks.rows, Task.Clash r { task with teamId := teamId }
    · rw [createTask_of_clash hc]
      constructor
      · intro h
        cases h
      · intro h
        exact absurd hc h.2.1
    · rw [createTask_of_noClash hc]
      split
      · exact ⟨fun _ => ⟨rfl, hc, ‹_›⟩, fun _ => rfl⟩
      · constructor
        · intro h
          cases h
        · intro h
          exact absurd h.2.2 ‹_›

end Database

theorem Job.code_text [AuthDeps] (key : SessionKey) {msg : ClientMessage}
    (hmsg : ∀ deviceId teamId name, msg ≠ .register deviceId teamId name) :
    ∃ k, (Job.text key msg).code = .call (.getSession key) k ∧ k none = .ret () := by
  cases msg with
  | register deviceId teamId name => exact absurd rfl (hmsg deviceId teamId name)
  | _ => exact ⟨_, rfl, rfl⟩

section
variable [DefaultHasher] {A : Uuid}

theorem act_view {o : Op} (h : o.Within A) (e : Env) (s : Server) :
    (s.view A).act o e = ((s.act o e).1, (s.act o e).2.view A) := by
  have hdb : ∀ {α : Type} {r r' : α × Database}, r = (r'.1, r'.2.view A) →
      (s.view A).onDb r = ((s.onDb r').1, (s.onDb r').2.view A) := by
    rintro α r r' rfl
    rfl
  cases o with
  | createTask => exact h.elim
  | createTeam name => exact hdb (Database.createTeam_view _ _ _ _)
  | getTeamByCode | getDevice | getAllTeamIds => exact hdb (Database.query_view rfl)
  | registerDevice device =>
    refine hdb ?_
    simp only [Database.registerDevice]
    split
    · rfl
    · exact Database.execute_view (Database.upsertDevice_view device)
  | updateDeviceHeartbeat | setDeviceOffline => exact hdb (Database.execute_view rfl)
  | updateTask task teamId =>
    refine hdb (Database.execute_view ?_)
    exact congrArg (fun db => Except.ok ((), db)) (Database.setTask_view _ _ _ fun _ => rfl)
  | releaseTask id =>
    refine hdb (Database.execute_view ?_)
    exact congrArg (fun db => Except.ok ((), db)) (Database.setTask_view _ _ _ fun _ => rfl)
  | getTasksByTeam teamId =>
    cases h
    exact hdb (Database.query_view (Database.filter_view _ fun r hr => by simpa using hr))
  | getClaimedTasks teamId =>
    cases h
    exact hdb (Database.query_view (Database.filter_view _ fun r hr => by simp_all))
  | _ => rfl

/-- Two servers that a handler of team `A`, after the calls `h`, cannot tell apart, with the tasks of the
other teams being `F₁` and `F₂`. -/
structure Alike (A : Uuid) (F₁ F₂ : List Task) (h : Hist) (s₁ s₂ : Server) : Prop where
  view : s₁.view A = s₂.view A
  actsFor : ∃ deviceId, who h = some (deviceId, A)
  hist₁ : Answered Server.act (fun _ => True) Persists s₁ h
  hist₂ : Answered Server.act (fun _ => True) Persists s₂ h
  foreign₁ : s₁.foreign A = F₁
  foreign₂ : s₂.foreign A = F₂
  fresh : ∀ id, ⟨.newV4, id⟩ ∈ h → ∀ r ∈ F₁ ++ F₂, r.id ≠ id

namespace Alike
variable {F₁ F₂ : List Task} {h : Hist} {s₁ s₂ : Server} {key : SessionKey} {msg : ClientMessage}

theorem clash_iff (hs : Alike A F₁ F₂ h s₁ s₂) {task : Task} (hid : ⟨.newV4, task.id⟩ ∈ h)
    (hurl : (∃ r ∈ F₁, r.url = task.url) ↔ ∃ r ∈ F₂, r.url = task.url) :
    (∃ r ∈ s₁.tasks, Task.Clash r { task with teamId := A }) ↔
      ∃ r ∈ s₂.tasks, Task.Clash r { task with teamId := A } := by
  have hown : s₁.own A = s₂.own A := by
    rw [← s₁.tasks_view A, ← s₂.tasks_view A, hs.view]
  have hF : ∀ F : List Task, (∀ r ∈ F, r ∈ F₁ ++ F₂) →
      ((∃ r ∈ F, Task.Clash r { task with teamId := A }) ↔ ∃ r ∈ F, r.url = task.url) := fun F hF =>
    exists_congr fun r => and_congr_right fun hr => or_iff_right (hs.fresh _ hid r (hF r hr))
  rw [s₁.exists_own_or_foreign A, s₂.exists_own_or_foreign A, hown, hs.foreign₁, hs.foreign₂,
    hF F₁ fun r hr => List.mem_append_left _ hr, hF F₂ fun r hr => List.mem_append_right _ hr, hurl]

variable [AuthDeps]

theorem within_or_createTask (hs : Alike A F₁ F₂ h s₁ s₂) {o : Op} (ha : Allowed (.text key msg) h o) :
    o.Within A ∨ ∃ task, o = .createTask task A ∧ msg = .addTask task.url ∧ ⟨.newV4, task.id⟩ ∈ h := by
  obtain ⟨deviceId, hw⟩ := hs.actsFor
  cases o with
  | createTask task teamId =>
    obtain ⟨_, url, _, id, _, hj, hw', hid, rfl⟩ := ha
    cases hj
    cases hw.symm.trans hw'
    exact .inr ⟨_, rfl, rfl, hid⟩
  | getTasksByTeam teamId =>
    obtain ⟨_, hw'⟩ := ha
    cases hw.symm.trans hw'
    exact .inl rfl
  | getClaimedTasks => cases ha
  | _ => exact .inl trivial

theorem step (hs : Alike A F₁ F₂ h s₁ s₂) {o : Op} {e : Env} (ha : Allowed (.text key msg) h o)
    (he : ∀ r ∈ F₁ ++ F₂, r.id ≠ e.uuid)
    (hurl : ∀ url, msg = .addTask url → ((∃ r ∈ F₁, r.url = url) ↔ ∃ r ∈ F₂, r.url = url)) :
    (s₁.act o e).1 = (s₂.act o e).1 ∧
      Alike A F₁ F₂ (⟨o, (s₁.act o e).1⟩ :: h) (s₁.act o e).2 (s₂.act o e).2 := by
  have hact : (s₁.act o e).1 = (s₂.act o e).1 ∧ (s₁.act o e).2.view A = (s₂.act o e).2.view A := by
    rcases hs.within_or_createTask ha with hin | ⟨task, rfl, hmsg, hid⟩
    · have h₁ := act_view hin e s₁
      rw [hs.view, act_view hin e s₂] at h₁
      exact Prod.mk.inj h₁.symm
    · have hdb := Database.createTask_view e.fail (congrArg Server.db hs.view)
        (hs.clash_iff hid (hurl _ hmsg))
      refine ⟨hdb.1, ?_⟩
      have hview := hs.view
      simp only [Server.view, Server.mk.injEq] at hview ⊢
      exact ⟨hdb.2, hview.2⟩
  obtain ⟨deviceId, hw⟩ := hs.actsFor
  have hteam : ∀ p ∈ who h, p.2 = A := by simp [hw]
  refine ⟨hact.1, hact.2, ⟨deviceId, who_cons_of_some _ hw⟩, ?_, ?_, ?_, ?_, fun id hid => ?_⟩
  · exact hs.hist₁.cons Persists.refl Persists.trans trivial (Persists.act o e s₁)
  · rw [hact.1]
    exact hs.hist₂.cons Persists.refl Persists.trans trivial (Persists.act o e s₂)
  · exact (foreign_step ha hs.hist₁ hteam).trans hs.foreign₁
  · exact (foreign_step ha hs.hist₂ hteam).trans hs.foreign₂
  · rcases List.mem_cons.1 hid with hid | hid
    · cases hid
      exact he
    · exact hs.fresh id hid

theorem handle_of_session {session : Session} (hteam : session.teamId = A) (hsession : s₁.session key = some session)
    (hv : s₁.view A = s₂.view A) (hmsg : ∀ deviceId teamId name, msg ≠ .register deviceId teamId name)
    {ω : Stream' Env} (hω : ∀ n, ∀ r ∈ s₁.foreign A ++ s₂.foreign A, r.id ≠ (ω.get n).uuid)
    (hurl : ∀ url, msg = .addTask url →
      ((∃ r ∈ s₁.foreign A, r.url = url) ↔ ∃ r ∈ s₂.foreign A, r.url = url)) :
    (s₁.handle (.text key msg, ω)).view A = (s₂.handle (.text key msg, ω)).view A := by
  obtain ⟨k, hk, -⟩ := Job.code_text key hmsg
  have hwp := code_wp (.text key msg)
  rw [hk] at hwp
  have hsession₂ : s₂.session key = some session := by
    rw [← hsession]
    exact congrArg (·.session key) hv.symm
  have hget (s : Server) : Answered Server.act (fun _ => True) Persists s
      [⟨.getSession key, s.session key⟩] := by
    have hnil : Answered Server.act (fun _ => True) Persists s [] := fun _ hc => absurd hc List.not_mem_nil
    exact hnil.cons Persists.refl Persists.trans trivial (o := .getSession key) (e := ω.head)
      (Persists.refl s)
  have hstart : Alike A (s₁.foreign A) (s₂.foreign A) [⟨.getSession key, some session⟩] s₁ s₂ :=
    ⟨hv, ⟨session.deviceId, by simp [sessionRead, who, hteam]⟩, hsession ▸ hget s₁,
      hsession₂ ▸ hget s₂, rfl, rfl, by simp⟩
  have hstep (h : Hist) (o : Op) (e : Env) (s s' : Server) (ha : Allowed (.text key msg) h o)
      (he : ∀ r ∈ s₁.foreign A ++ s₂.foreign A, r.id ≠ e.uuid)
      (hs : Alike A (s₁.foreign A) (s₂.foreign A) h s s') := hs.step ha he hurl
  obtain ⟨-, h', hend⟩ := (hwp.2 (some session)).exec_sim hstep ω.tail (fun n => hω (n + 1)) hstart
  have hhandle (s : Server) (hs : s.session key = some session) :
      s.handle (.text key msg, ω) = ((k (some session)).exec Server.act ω.tail s).2.2 := by
    simp only [Server.handle, hk, Prog.exec, Server.act, hs]
  rw [hhandle s₁ hsession, hhandle s₂ hsession₂]
  exact hend.view

end Alike

variable [AuthDeps] {s : Server} {s₁ s₂ : Server} {key : SessionKey} {ω : Stream' Env}

theorem handle_of_no_session {msg : ClientMessage} (hs : s.session key = none)
    (hmsg : ∀ deviceId teamId name, msg ≠ .register deviceId teamId name) :
    s.handle (.text key msg, ω) = s := by
  obtain ⟨k, hk, hnone⟩ := Job.code_text key hmsg
  simp only [Server.handle, hk, Prog.exec, Server.act, hs, hnone]

theorem handle_register (deviceId teamId : Uuid) (name : String) :
    s.handle (.text key (.register deviceId teamId name), ω) =
      (s.act (.updateSession key deviceId teamId) ω.head).2 := by
  simp only [Server.handle, Job.code, onText, handleMessage, call, Prog.exec_bind, Prog.exec_op]
  split <;> rfl

/-- Whatever the message, the view of its session's team after it depends on the view before it, and for
`AddTask` on whether another team has the URL. -/
theorem handle_view {msg : ClientMessage} (hv : s₁.view A = s₂.view A)
    (hteam : ∀ session, s₁.session key = some session → session.teamId = A)
    (hω : ∀ n, ∀ r ∈ s₁.foreign A ++ s₂.foreign A, r.id ≠ (ω.get n).uuid)
    (hurl : ∀ url, msg = .addTask url →
      ((∃ r ∈ s₁.foreign A, r.url = url) ↔ ∃ r ∈ s₂.foreign A, r.url = url)) :
    (s₁.handle (.text key msg, ω)).view A = (s₂.handle (.text key msg, ω)).view A := by
  by_cases hreg : ∃ deviceId teamId name, msg = .register deviceId teamId name
  · obtain ⟨deviceId, teamId, name, rfl⟩ := hreg
    have hact := act_view (A := A) (o := .updateSession key deviceId teamId) trivial ω.head
    rw [handle_register, handle_register, ← (Prod.mk.inj (hact s₁)).2, ← (Prod.mk.inj (hact s₂)).2, hv]
  · have hmsg : ∀ deviceId teamId name, msg ≠ .register deviceId teamId name :=
      fun deviceId teamId name h => hreg ⟨deviceId, teamId, name, h⟩
    cases hs : s₁.session key with
    | some session => exact Alike.handle_of_session (hteam session hs) hs hv hmsg hω hurl
    | none =>
      have hs₂ : s₂.session key = none := (congrArg (·.session key) hv.symm).trans hs
      rw [handle_of_no_session hs hmsg, handle_of_no_session hs₂ hmsg, hv]

omit [AuthDeps] in
theorem Change.of_addTask {url : String} {k : Kind} {new : Task}
    (h : Change s (.text key (.addTask url), ω) k none new) :
    new.url = url ∧ ∃ session, s.session key = some session ∧ new.teamId = session.teamId := by
  cases h with
  | insertQueued hs => exact ⟨rfl, _, hs, rfl⟩
  | insertClaimed hs => exact ⟨rfl, _, hs, rfl⟩

theorem handle_addTask_iff {session : Session} {url : String} (hs : s.session key = some session)
    (hid : ∀ r ∈ s.tasks, r.id ≠ (ω.get 1).uuid) :
    (∃ r ∈ (s.handle (.text key (.addTask url), ω)).own session.teamId, r.url = url ∧ r ∉ s.tasks) ↔
      (∀ r ∈ s.tasks, r.url ≠ url) ∧ s.db.referencesTeam session.teamId = true ∧ (ω.get 3).fail = none := by
  have hrun : s.handle (.text key (.addTask url), ω) =
      ((handleAddTask session.deviceId session.teamId url).exec Server.act (ω.drop 1) s).2.2 := by
    simp only [Server.handle, Job.code, onText, handleMessage, call, Prog.exec_bind, Prog.exec_op,
      Server.act, hs]
    rfl
  have hcreate := Database.createTask_eq_ok_iff (ω.get 3).fail s.db
    { Task.new (ω.get 1).uuid (ω.get 2).now url session.teamId session.deviceId with status := .queued }
    session.teamId
  have hclash : (¬ ∃ r ∈ s.tasks, r.id = (ω.get 1).uuid ∨ r.url = url) ↔ ∀ r ∈ s.tasks, r.url ≠ url := by
    simp only [not_exists, not_and, not_or]
    exact forall₂_congr fun r hr => and_iff_right (hid r hr)
  rw [hrun, ← hclash]
  rcases exec_handleAddTask ω 1 url hs with ⟨⟨msg, herr⟩, hsame⟩ | ⟨hok, new, hins⟩
  · constructor
    · rintro ⟨r, hr, -, hn⟩
      exact absurd (hsame ▸ (List.mem_filter.1 hr).1) hn
    · rintro ⟨hn, href, hf⟩
      cases herr.symm.trans (hcreate.2 ⟨hf, hn, href⟩)
  · obtain ⟨hf, hn, href⟩ := hcreate.1 hok
    refine iff_of_true ⟨new, ?_⟩ ⟨hn, href, hf⟩
    obtain ⟨k, hc⟩ := hins.change
    obtain ⟨hurl, session', hs', hteam⟩ := hc.of_addTask
    obtain rfl := Option.some.inj (hs.symm.trans hs')
    refine ⟨List.mem_filter.2 ⟨?_, by simp [hteam]⟩, hurl, fun hmem => hins.noClash new hmem (.inl rfl)⟩
    rw [hins.tasks]
    exact List.mem_append_right _ (List.mem_singleton.2 rfl)

/-- Two servers that differ in the tasks of other teams only handle a message of a session of team `A`
alike, if the message does not add a URL that another team has in just one of them: the team's tasks and
everything sent are the same. And a URL can be added exactly when no team has it, the team is known and the
insertion does not fail. -/
theorem noninterference (A : Uuid) (s₁ s₂ : Server) (key : SessionKey) (ω : Stream' Env)
    (hv : s₁.view A = s₂.view A)
    (hteam : ∀ session, s₁.session key = some session → session.teamId = A)
    (hω : ∀ n, ∀ r ∈ s₁.tasks ++ s₂.tasks, r.id ≠ (ω.get n).uuid) :
    (∀ msg, (∀ url, msg = .addTask url →
        ((∃ r ∈ s₁.foreign A, r.url = url) ↔ ∃ r ∈ s₂.foreign A, r.url = url)) →
      (s₁.handle (.text key msg, ω)).own A = (s₂.handle (.text key msg, ω)).own A ∧
        (s₁.handle (.text key msg, ω)).sent = (s₂.handle (.text key msg, ω)).sent) ∧
      ∀ url session, s₁.session key = some session →
        ((∃ r ∈ (s₁.handle (.text key (.addTask url), ω)).own A, r.url = url ∧ r ∉ s₁.tasks) ↔
          (∀ r ∈ s₁.tasks, r.url ≠ url) ∧ s₁.db.referencesTeam A = true ∧ (ω.get 3).fail = none) := by
  constructor
  · intro msg hurl
    have hω' : ∀ n, ∀ r ∈ s₁.foreign A ++ s₂.foreign A, r.id ≠ (ω.get n).uuid := fun n r hr =>
      hω n r <| (List.mem_append.1 hr).elim (fun h => List.mem_append_left _ (List.mem_filter.1 h).1)
        fun h => List.mem_append_right _ (List.mem_filter.1 h).1
    have h : (s₁.handle (.text key msg, ω)).view A = (s₂.handle (.text key msg, ω)).view A :=
      handle_view hv hteam hω' hurl
    refine ⟨?_, congrArg (·.sent) h⟩
    rw [← Server.tasks_view, ← Server.tasks_view, h]
  · intro url session hs
    rw [← hteam session hs]
    exact handle_addTask_iff hs fun r hr => hω 1 r (List.mem_append_left _ hr)

end

namespace Sample

def serverWithoutTasks : Server := { serverOfTwoTeams with db := { serverOfTwoTeams.db with tasks := .empty } }

theorem noninterference_serverOfTwoTeams :
    let s := serverOfTwoTeams.handle (.text 101 (.addTask "u"), always 7 "" 1000)
    let s' := serverWithoutTasks.handle (.text 101 (.addTask "u"), always 7 "" 1000)
    s.own 10 = s'.own 10 ∧ s.sent = s'.sent ∧ ∃ r ∈ s.own 10, r.url = "u" ∧ r ∉ serverOfTwoTeams.tasks := by
  have hfresh : ∀ r ∈ serverOfTwoTeams.tasks ++ serverWithoutTasks.tasks, r.id ≠ 7 := by decide
  have h := noninterference 10 serverOfTwoTeams serverWithoutTasks 101 (always 7 "" 1000) (by decide)
    (by decide) fun _ => hfresh
  obtain ⟨hown, hsent⟩ := h.1 (.addTask "u") fun url hurl => by cases hurl; decide
  exact ⟨hown, hsent, (h.2 "u" ⟨101, 1, 10⟩ (by decide)).2 ⟨by decide, by decide, rfl⟩⟩

/-- A URL of the other team: it is added where that team's task is missing, and refused where it is there,
though the team itself has no task with it. -/
theorem not_noninterference_serverOfTwoTeams :
    serverOfTwoTeams.view 10 = serverWithoutTasks.view 10 ∧ serverOfTwoTeams.hashRing = HashRing.new ∧
      (serverOfTwoTeams.session 101).map (·.teamId) = some 10 ∧
      (∀ r ∈ serverOfTwoTeams.own 10, r.url ≠ "v") ∧
      let s := serverOfTwoTeams.handle (.text 101 (.addTask "v"), always 7 "" 1000)
      let s' := serverWithoutTasks.handle (.text 101 (.addTask "v"), always 7 "" 1000)
      s.own 10 = [] ∧ (s'.own 10).map (·.url) = ["v"] ∧
        s.sent = [(101, .error "URL already exists")] ∧ s'.sent ≠ s.sent := by
  decide +kernel

end Sample

end XVideoDownloader
