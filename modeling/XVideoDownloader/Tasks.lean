import XVideoDownloader.Calls

/-!
# The `tasks` table under one operation

`RowStep o e r r'` says what the operation `o` can make of a stored row `r`; `act_tasks_forward` and
`act_tasks_backward` say that nothing else happens to the table, apart from the insertion of a row that
clashes with none. `Read.past` and `ReadOverdue.past` place the rows a handler has read in the past of the
present state, and `Allowed.builds` says how a write is made from them.
-/

namespace XVideoDownloader
open Lib

namespace Server

def tasks (s : Server) : List Task := s.db.tasks.rows

def task? (s : Server) (id : Uuid) : Option Task := s.tasks.find? fun r => r.id = id

theorem eq_of_id {s : Server} {r r' : Task} (hr : r ∈ s.tasks) (hr' : r' ∈ s.tasks) (h : r.id = r'.id) :
    r = r' :=
  s.db.tasks.eq_of_clash hr hr' (.inl h) (.inl h.symm)

theorem task?_eq_some {s : Server} {id : Uuid} {r : Task} :
    s.task? id = some r ↔ r ∈ s.tasks ∧ r.id = id := by
  constructor
  · intro h
    exact ⟨List.mem_of_find?_eq_some h, by simpa using List.find?_some h⟩
  · rintro ⟨hr, rfl⟩
    refine s.db.tasks.find?_eq_some hr (by simp) fun x hx => ?_
    have hx' : x.id = r.id := by simpa using hx
    exact ⟨.inl hx', .inl hx'.symm⟩

theorem task?_eq_none {s : Server} {id : Uuid} : s.task? id = none ↔ ∀ r ∈ s.tasks, r.id ≠ id := by
  simp [task?]

end Server

/-- What an operation makes of a row. -/
inductive RowStep (o : Op) (e : Env) (r : Task) : Task → Prop
  | same : RowStep o e r r
  | update {task : Task} {teamId : Uuid} (ho : o = .updateTask task teamId) (hf : e.fail = none)
      (hid : task.id = r.id) : RowStep o e r (r.overwrite task)
  | release (ho : o = .releaseTask r.id) (hf : e.fail = none) : RowStep o e r r.released

theorem RowStep.sameIdentity {o : Op} {e : Env} {r r' : Task} (h : RowStep o e r r') :
    r.SameIdentity r' := by
  cases h with
  | same => exact .refl r
  | update => exact r.sameIdentity_overwrite _
  | release => exact r.sameIdentity_released

/-- The row that a call writes, if it succeeds in writing one. -/
def written (x : Issue Op.Ans Job Env) : Option Uuid :=
  match x.op, x.env.fail with
  | .updateTask task _, none => some task.id
  | .releaseTask id, none => some id
  | _, _ => none

theorem RowStep.eq_or_written {x : Issue Op.Ans Job Env} {r r' : Task} (h : RowStep x.op x.env r r') :
    r' = r ∨ written x = some r.id := by
  cases h with
  | same => exact .inl rfl
  | update ho hf hid => exact .inr (by simp [written, ho, hf, hid])
  | release ho hf => exact .inr (by simp [written, ho, hf])

namespace Database
variable {α : Type} {fail : Option String} {db : Database}

theorem query_eq_ok {f : Database → α} {a : α} (h : (query fail db f).1 = .ok a) : a = f db := by
  cases fail with
  | some e => cases h
  | none =>
    cases h
    rfl

/-- What holds before a statement, and after it if it succeeds, holds after it. -/
theorem execute_ind (P : Database → Prop) {stmt : Database → Except String (α × Database)} (h : P db)
    (hs : ∀ a db', fail = none → stmt db = .ok (a, db') → P db') : P (execute fail db stmt).2 := by
  unfold execute
  split
  · exact h
  · split
    · exact h
    · exact hs _ _ rfl ‹_›

theorem tasks_createTeam (id : Uuid) (code : String) (now : Time) (name : String) :
    (createTeam fail db id code now name).2.tasks = db.tasks := by
  refine execute_ind (fun db' => db'.tasks = db.tasks) rfl fun a db' _ h => ?_
  split at h <;> cases h
  rfl

theorem tasks_upsertDevice {device : Device} {a : Unit} {db' : Database}
    (h : db.upsertDevice device = .ok (a, db')) : db'.tasks = db.tasks := by
  unfold upsertDevice at h
  split at h
  · split at h <;> cases h
    rfl
  · cases h
    rfl

theorem tasks_registerDevice (device : Device) :
    (registerDevice fail db device).2.tasks = db.tasks := by
  unfold registerDevice
  split
  · rfl
  · exact execute_ind (fun db' => db'.tasks = db.tasks) rfl fun a db' _ h => tasks_upsertDevice h

theorem tasks_updateDeviceHeartbeat (now : Time) (id : Uuid) :
    (updateDeviceHeartbeat fail db now id).2.tasks = db.tasks :=
  execute_ind (fun db' => db'.tasks = db.tasks) rfl fun a db' _ h => by cases h; rfl

theorem tasks_setDeviceOffline (id : Uuid) : (setDeviceOffline fail db id).2.tasks = db.tasks :=
  execute_ind (fun db' => db'.tasks = db.tasks) rfl fun a db' _ h => by cases h; rfl

theorem createTask_of_clash {task : Task} {teamId : Uuid}
    (h : ∃ r ∈ db.tasks.rows, Task.Clash r { task with teamId := teamId }) :
    createTask none db task teamId = (.error "URL already exists", db) := by
  have hid : Text.contains ("UNIQUE constraint failed: tasks." ++ "id") "UNIQUE constraint failed" = true := by
    decide
  have hurl : Text.contains ("UNIQUE constraint failed: tasks." ++ "url") "UNIQUE constraint failed" = true := by
    decide
  simp only [createTask, execute, insertTask, Table.insert_eq_none.2 h]
  by_cases hany : (db.tasks.rows.any fun r => r.id = task.id) = true
  · rw [if_pos hany, if_pos hid]
  · rw [if_neg hany, if_pos hurl]

theorem createTask_of_noClash {task : Task} {teamId : Uuid}
    (h : ¬ ∃ r ∈ db.tasks.rows, Task.Clash r { task with teamId := teamId }) :
    createTask none db task teamId =
      if db.referencesTeam teamId then
        (.ok (), { db with tasks := db.tasks.put { task with teamId := teamId } })
      else (.error "FOREIGN KEY constraint failed", db) := by
  have hfk : Text.contains "FOREIGN KEY constraint failed" "UNIQUE constraint failed" = false := by decide
  simp only [createTask, execute, insertTask, Table.insert_eq_put fun r hr hc => h ⟨r, hr, hc⟩]
  by_cases hr : db.referencesTeam teamId = true <;> simp [hr, hfk]

theorem createTask_cases (fail : Option String) (db : Database) (task : Task) (teamId : Uuid) :
    (∃ msg, (createTask fail db task teamId).1 = .error msg) ∧ (createTask fail db task teamId).2 = db ∨
      (createTask fail db task teamId).1 = .ok () ∧ fail = none ∧
        (∀ r ∈ db.tasks.rows, ¬ Task.Clash r { task with teamId := teamId }) ∧
        (createTask fail db task teamId).2.tasks.rows = db.tasks.rows ++ [{ task with teamId := teamId }] := by
  cases fail with
  | some e =>
    refine .inl ⟨?_, rfl⟩
    simp only [createTask, execute]
    split <;> exact ⟨_, rfl⟩
  | none =>
    by_cases hc : ∃ r ∈ db.tasks.rows, Task.Clash r { task with teamId := teamId }
    · rw [createTask_of_clash hc]
      exact .inl ⟨⟨_, rfl⟩, rfl⟩
    · rw [createTask_of_noClash hc]
      have hn : ∀ r ∈ db.tasks.rows, ¬ Task.Clash r { task with teamId := teamId } :=
        fun r hr h => hc ⟨r, hr, h⟩
      split
      · exact .inr ⟨rfl, rfl, hn, Table.rows_put_of_forall hn⟩
      · exact .inl ⟨⟨_, rfl⟩, rfl⟩

theorem createTask_eq_ok {task : Task} {teamId : Uuid} (h : (createTask fail db task teamId).1 = .ok ()) :
    { task with teamId := teamId } ∈ (createTask fail db task teamId).2.tasks.rows := by
  rcases createTask_cases fail db task teamId with ⟨⟨msg, hm⟩, -⟩ | ⟨-, -, -, hr⟩
  · cases hm.symm.trans h
  · rw [hr]
    exact List.mem_append_right _ (List.mem_singleton.2 rfl)

end Database

variable [DefaultHasher]

theorem Server.createTask_cases (e : Env) (task : Task) (teamId : Uuid) (s : Server) :
    (∃ msg, (s.act (.createTask task teamId) e).1 = .error msg) ∧
        (s.act (.createTask task teamId) e).2.tasks = s.tasks ∨
      (s.act (.createTask task teamId) e).1 = .ok () ∧ e.fail = none ∧
        (∀ r ∈ s.tasks, ¬ Task.Clash r { task with teamId := teamId }) ∧
        (s.act (.createTask task teamId) e).2.tasks = s.tasks ++ [{ task with teamId := teamId }] :=
  (Database.createTask_cases e.fail s.db task teamId).imp
    (fun h => ⟨h.1, congrArg (·.tasks.rows) h.2⟩) id

theorem act_tasks (o : Op) (e : Env) (s : Server) :
    (s.act o e).2.tasks = s.tasks ∨
      (∃ task teamId, o = .createTask task teamId ∧ e.fail = none ∧
        (∀ r ∈ s.tasks, ¬ Task.Clash r { task with teamId := teamId }) ∧
        (s.act o e).2.tasks = s.tasks ++ [{ task with teamId := teamId }]) ∨
      (∃ task teamId, o = .updateTask task teamId ∧ e.fail = none ∧
        (s.act o e).2.tasks = s.tasks.map fun r => if r.id = task.id then r.overwrite task else r) ∨
      ∃ id, o = .releaseTask id ∧ e.fail = none ∧
        (s.act o e).2.tasks = s.tasks.map fun r => if r.id = id then r.released else r := by
  cases o with
  | createTask task teamId =>
    rcases Server.createTask_cases e task teamId s with ⟨-, hr⟩ | ⟨-, hf, hc, hr⟩
    · exact .inl hr
    · exact .inr (.inl ⟨task, teamId, rfl, hf, hc, hr⟩)
  | updateTask task teamId =>
    refine (Database.execute_ind (fun db => db.tasks.rows = s.tasks ∨ e.fail = none ∧
      db.tasks.rows = s.tasks.map fun r => if r.id = task.id then r.overwrite task else r) (.inl rfl)
      fun a db' hf h => by cases h; exact .inr ⟨hf, rfl⟩).imp id fun h => ?_
    exact .inr (.inl ⟨task, teamId, rfl, h⟩)
  | releaseTask id =>
    refine (Database.execute_ind (fun db => db.tasks.rows = s.tasks ∨ e.fail = none ∧
      db.tasks.rows = s.tasks.map fun r => if r.id = id then r.released else r) (.inl rfl)
      fun a db' hf h => by cases h; exact .inr ⟨hf, rfl⟩).imp (fun h => h) fun h => ?_
    exact .inr (.inr ⟨id, rfl, h⟩)
  | createTeam name => exact .inl (congrArg Table.rows (Database.tasks_createTeam _ _ _ _))
  | registerDevice device => exact .inl (congrArg Table.rows (Database.tasks_registerDevice _))
  | updateDeviceHeartbeat id => exact .inl (congrArg Table.rows (Database.tasks_updateDeviceHeartbeat _ _))
  | setDeviceOffline id => exact .inl (congrArg Table.rows (Database.tasks_setDeviceOffline _))
  | _ => exact .inl rfl

theorem Server.tasks_updateTask (e : Env) (task : Task) (teamId : Uuid) (s : Server) :
    (s.act (.updateTask task teamId) e).2.tasks =
      if e.fail = none then s.tasks.map fun r => if r.id = task.id then r.overwrite task else r
      else s.tasks := by
  cases hf : e.fail <;> simp only [act, onDb, Database.updateTask, Database.execute, hf] <;> rfl

theorem Server.tasks_createTask_of_ok {s : Server} {task : Task} {teamId : Uuid} {e : Env}
    (ht : task.teamId = teamId) (hok : (s.act (.createTask task teamId) e).1 = .ok ()) :
    (∀ r ∈ s.tasks, ¬ Task.Clash r task) ∧ (s.act (.createTask task teamId) e).2.tasks = s.tasks ++ [task] := by
  subst ht
  rcases s.createTask_cases e task task.teamId with ⟨⟨msg, hmsg⟩, -⟩ | ⟨-, -, hn, hr⟩
  · cases hmsg.symm.trans hok
  · exact ⟨hn, hr⟩

/-- A call that stores over the row that has just been inserted. -/
theorem Server.tasks_updateTask_of_new {s s' : Server} {row new : Task} {teamId : Uuid} {e : Env}
    (hn : ∀ r ∈ s.tasks, ¬ Task.Clash r row) (hs : s'.tasks = s.tasks ++ [row]) (hi : row.SameIdentity new)
    (hf : e.fail = none) : (s'.act (.updateTask new teamId) e).2.tasks = s.tasks ++ [new] := by
  have hold : s.tasks.map (fun r => if r.id = new.id then r.overwrite new else r) = s.tasks :=
    (List.map_congr_left fun r hr => if_neg fun h => hn r hr (.inl (h.trans hi.id.symm))).trans (List.map_id _)
  rw [tasks_updateTask, if_pos hf, hs, List.map_append, hold, List.map_singleton, if_pos hi.id, Task.overwrite_eq hi]

theorem Server.tasks_releaseTask (e : Env) (id : Uuid) (s : Server) :
    (s.act (.releaseTask id) e).2.tasks =
      if e.fail = none then s.tasks.map fun r => if r.id = id then r.released else r else s.tasks := by
  cases hf : e.fail <;> simp only [act, onDb, Database.releaseTask, Database.execute, hf] <;> rfl

/-- Every row makes a step, or a row is inserted that clashes with none. -/
theorem act_tasks_rowStep (o : Op) (e : Env) (s : Server) :
    (∃ f : Task → Task, (s.act o e).2.tasks = s.tasks.map f ∧ ∀ r ∈ s.tasks, RowStep o e r (f r)) ∨
      ∃ task teamId, o = .createTask task teamId ∧
        (∀ r ∈ s.tasks, ¬ Task.Clash r { task with teamId := teamId }) ∧
        (s.act o e).2.tasks = s.tasks ++ [{ task with teamId := teamId }] := by
  rcases act_tasks o e s with h | ⟨task, teamId, ho, -, hc, h⟩ | ⟨task, teamId, ho, hf, h⟩ | ⟨id, ho, hf, h⟩
  · refine .inl ⟨fun r => r, by rw [h, List.map_id'], ?_⟩
    intro r _
    exact .same
  · exact .inr ⟨task, teamId, ho, hc, h⟩
  · refine .inl ⟨_, h, ?_⟩
    intro r _
    split
    · exact .update ho hf (Eq.symm ‹_›)
    · exact .same
  · refine .inl ⟨_, h, ?_⟩
    intro r _
    split
    · subst ‹r.id = id›
      exact .release ho hf
    · exact .same

theorem act_tasks_forward {o : Op} {e : Env} {s : Server} {r : Task} (hr : r ∈ s.tasks) :
    ∃ r' ∈ (s.act o e).2.tasks, RowStep o e r r' := by
  rcases act_tasks_rowStep o e s with ⟨f, h, hstep⟩ | ⟨task, teamId, -, -, h⟩
  · exact (exists_of_map h hstep).1 r hr
  · rw [h]
    exact ⟨r, List.mem_append_left _ hr, .same⟩

theorem act_tasks_backward {o : Op} {e : Env} {s : Server} {r' : Task} (hr' : r' ∈ (s.act o e).2.tasks) :
    (∃ r ∈ s.tasks, RowStep o e r r') ∨
      ∃ task teamId, o = .createTask task teamId ∧ (∀ r ∈ s.tasks, ¬ Task.Clash r r') ∧
        r' = { task with teamId := teamId } := by
  rcases act_tasks_rowStep o e s with ⟨f, h, hstep⟩ | ⟨task, teamId, ho, hc, h⟩
  · exact .inl ((exists_of_map h hstep).2 r' hr')
  · rw [h] at hr'
    rcases List.mem_append.1 hr' with hr' | hr'
    · exact .inl ⟨r', hr', .same⟩
    · obtain rfl := List.mem_singleton.1 hr'
      exact .inr ⟨task, teamId, ho, hc, rfl⟩

/-! ### The rows a handler has read -/

section
variable {I : Server → Prop} {R : Server → Server → Prop} {s : Server} {h : Hist}

theorem Server.answer_getTasksByTeam {teamId : Uuid} {e : Env} {rows : List Task}
    (ha : .ok rows = (s.act (.getTasksByTeam teamId) e).1) :
    rows = s.tasks.filter fun r => r.teamId = teamId := by
  have h : (s.db.getTasksByTeam e.fail teamId).1 = .ok rows := ha.symm
  exact Database.query_eq_ok h

theorem Server.answer_getClaimedTasks {teamId : Uuid} {e : Env} {rows : List Task}
    (ha : .ok rows = (s.act (.getClaimedTasks teamId) e).1) :
    rows = s.tasks.filter fun r => r.teamId = teamId ∧ r.status = .claimed := by
  have h : (s.db.getClaimedTasks e.fail teamId).1 = .ok rows := ha.symm
  exact Database.query_eq_ok h

/-- A row that a handler has read was stored at some earlier moment, in the team it was read for, and the
handler knows no other row with its id. -/
theorem Read.past {teamId : Uuid} {task : Task} (hr : Read h teamId task)
    (hh : Answered Server.act I R s h) :
    ∃ s₀, I s₀ ∧ R s₀ s ∧ task ∈ s₀.tasks ∧ task.teamId = teamId ∧
      ∀ q ∈ rowsRead h, q.id = task.id → q = task := by
  obtain ⟨e, s₀, hI, ha, hR⟩ := hh _ hr.1
  have hrows := Server.answer_getTasksByTeam ha
  have hmem : ∀ q ∈ rowsRead h, q ∈ s₀.tasks ∧ q.teamId = teamId := fun q hq => by
    rw [hrows] at hq
    simpa using hq
  obtain ⟨ht, hteam⟩ := hmem _ hr.2
  exact ⟨s₀, hI, hR, ht, hteam, fun q hq hid => Server.eq_of_id (hmem q hq).1 ht hid⟩

theorem ReadOverdue.past {task : Task} (hr : ReadOverdue h task) (hh : Answered Server.act I R s h) :
    ∃ s₀, I s₀ ∧ R s₀ s ∧ task ∈ s₀.tasks ∧ task.status = .claimed ∧
      ∀ q ∈ rowsRead h, q.id = task.id → q = task := by
  obtain ⟨teamId, now, claimedAt, hc, ht, -⟩ := hr
  obtain ⟨e, s₀, hI, ha, hR⟩ := hh _ hc
  have hrows := Server.answer_getClaimedTasks ha
  have hmem : ∀ q ∈ rowsRead h, q ∈ s₀.tasks ∧ q.status = .claimed := fun q hq => by
    rw [hrows] at hq
    simp only [List.mem_filter, decide_eq_true_eq] at hq
    exact ⟨hq.1, hq.2.2⟩
  obtain ⟨ht', hst⟩ := hmem _ ht
  exact ⟨s₀, hI, hR, ht', hst, fun q hq hid => Server.eq_of_id (hmem q hq).1 ht' hid⟩

/-- The writes that are made from a row `q` that was read before: by which job, and what is stored. -/
inductive Builds (q : Task) : Job → Op → Prop
  | claim {key : SessionKey} {teamId deviceId : Uuid} {now : Time} (hs : q.status = .queued) :
      Builds q (.text key (.claimTask q.id)) (.updateTask
        { q with
          status := .claimed, claimedBy := some deviceId, claimedAt := some now,
          version := q.version + 1 } teamId)
  | progress {key : SessionKey} {teamId deviceId : Uuid} {progress : Rat}
      (hc : q.claimedBy = some deviceId) :
      Builds q (.text key (.updateProgress q.id progress)) (.updateTask
        { q with progress := progress, version := q.version + 1 } teamId)
  | complete {key : SessionKey} {teamId deviceId : Uuid} {localPath : String} {fileSize : Nat}
      (hc : q.claimedBy = some deviceId) :
      Builds q (.text key (.taskComplete q.id localPath fileSize)) (.updateTask
        { q with
          status := .complete, localPath := some localPath, fileSize := some fileSize, progress := 1,
          version := q.version + 1 } teamId)
  | release (hs : q.status = .claimed) : Builds q .sweep (.releaseTask q.id)

/-- The write of a handler that has read the row it writes is made from what it has read, and that was
stored at some earlier moment. -/
theorem Allowed.builds [AuthDeps] {x : Issue Op.Ans Job Env} (ha : Allowed x.job x.hist x.op)
    (hh : Answered Server.act I R s x.hist) {q : Task} (hw : written x = some q.id)
    (hq : q ∈ rowsRead x.hist) : Builds q x.job x.op ∧ ∃ s₀, I s₀ ∧ R s₀ s ∧ q ∈ s₀.tasks := by
  obtain ⟨j, h, o, e⟩ := x
  unfold written at hw
  split at hw
  · rename_i task teamId ho hf
    dsimp only at ho ha hh hq
    subst ho
    cases ha with
    | assign _ hr => simp [hr] at hq
    | claim _ hr hs =>
      obtain ⟨s₀, hI, hR, ht, -, hu⟩ := hr.past hh
      obtain rfl := hu q hq (Option.some.inj hw).symm
      exact ⟨.claim hs, s₀, hI, hR, ht⟩
    | progress _ hr hc =>
      obtain ⟨s₀, hI, hR, ht, -, hu⟩ := hr.past hh
      obtain rfl := hu q hq (Option.some.inj hw).symm
      exact ⟨.progress hc, s₀, hI, hR, ht⟩
    | complete _ hr hc =>
      obtain ⟨s₀, hI, hR, ht, -, hu⟩ := hr.past hh
      obtain rfl := hu q hq (Option.some.inj hw).symm
      exact ⟨.complete hc, s₀, hI, hR, ht⟩
  · rename_i id ho hf
    dsimp only at ho ha hh hq
    subst ho
    obtain ⟨rfl, task, rfl, hr⟩ := ha
    obtain ⟨s₀, hI, hR, ht, hs, hu⟩ := hr.past hh
    obtain rfl := hu q hq (Option.some.inj hw).symm
    exact ⟨.release hs, s₀, hI, hR, ht⟩
  · cases hw

end

end XVideoDownloader
