import XVideoDownloader.Sweep

/-!
# The life cycle of a task, one job at a time

`Change s x k old new` says what a job `x` handled from the state `s` can do to one row, and of what kind
`k` that is. `handle_changes` proves that a job does nothing else to the table, from the text of the
handlers; failing database calls only make a job do less.
-/

namespace XVideoDownloader
open Lib MessageHandler WsServer

inductive Kind
  | insertQueued
  | insertClaimed
  | claim
  | progress
  | complete
  | release
  deriving DecidableEq

section
variable [DefaultHasher]

/-- The row `old` (`none` for an insertion) becomes `new`. -/
inductive Change (s : Server) : Job × Stream' Env → Kind → Option Task → Task → Prop
  | insertQueued {key : SessionKey} {url : String} {ω : Stream' Env} {session : Session} {id : Uuid}
      {created : Time} (hs : s.session key = some session) :
      Change s (.text key (.addTask url), ω) .insertQueued none
        { Task.new id created url session.teamId session.deviceId with status := .queued }
  | insertClaimed {key : SessionKey} {url : String} {ω : Stream' Env} {session : Session}
      {id ownerId : Uuid} {created : Time} {n : Nat} (hs : s.session key = some session)
      (ho : s.hashRing.getOwner url = some ownerId) :
      Change s (.text key (.addTask url), ω) .insertClaimed none
        { Task.new id created url session.teamId session.deviceId with
          status := .claimed, claimedBy := some ownerId, claimedAt := some (ω.get n).now }
  | claim {key : SessionKey} {ω : Stream' Env} {session : Session} {q : Task} {n : Nat}
      (hs : s.session key = some session) (ht : q.teamId = session.teamId) (hq : q.status = .queued) :
      Change s (.text key (.claimTask q.id), ω) .claim (some q)
        { q with
          status := .claimed, claimedBy := some session.deviceId, claimedAt := some (ω.get n).now,
          version := q.version + 1 }
  | progress {key : SessionKey} {progress : Rat} {ω : Stream' Env} {session : Session} {q : Task}
      (hs : s.session key = some session) (ht : q.teamId = session.teamId)
      (hc : q.claimedBy = some session.deviceId) :
      Change s (.text key (.updateProgress q.id progress), ω) .progress (some q)
        { q with progress := progress, version := q.version + 1 }
  | complete {key : SessionKey} {localPath : String} {fileSize : Nat} {ω : Stream' Env}
      {session : Session} {q : Task} (hs : s.session key = some session)
      (ht : q.teamId = session.teamId) (hc : q.claimedBy = some session.deviceId)
      (hq : q.status = .claimed ∨ q.status = .complete) :
      Change s (.text key (.taskComplete q.id localPath fileSize), ω) .complete (some q)
        { q with
          status := .complete, localPath := some localPath, fileSize := some fileSize, progress := 1,
          version := q.version + 1 }
  | release {ω : Stream' Env} {q : Task} {n : Nat} (ho : q.Overdue (ω.get n).now) :
      Change s (.sweep, ω) .release (some q) q.released

namespace Change
variable {s : Server} {x : Job × Stream' Env} {k : Kind} {old : Option Task} {q new : Task}

def kindOf (j : Job) (new : Task) : Kind :=
  match j with
  | .text _ (.addTask _) => if new.status = .queued then .insertQueued else .insertClaimed
  | .text _ (.claimTask _) => .claim
  | .text _ (.updateProgress ..) => .progress
  | .text _ (.taskComplete ..) => .complete
  | _ => .release

theorem kind_eq (h : Change s x k old new) : k = kindOf x.1 new := by
  cases h <;> simp [kindOf]

theorem sameIdentity (h : Change s x k (some q) new) : q.SameIdentity new := by
  cases h with
  | release => exact q.sameIdentity_released
  | _ => exact ⟨rfl, rfl, rfl, rfl, rfl⟩

theorem version_eq (h : Change s x k (some q) new) : new.version = q.version + 1 := by
  cases h <;> rfl

theorem version_insert (h : Change s x k none new) : new.version = 1 := by
  cases h <;> rfl

theorem complete_of_complete (h : Change s x k (some q) new) (hq : q.status = .complete) :
    new.status = .complete := by
  cases h with
  | claim _ _ hq' => simp [hq'] at hq
  | progress => exact hq
  | complete => rfl
  | release ho => simp [ho.1] at hq

end Change

/-- Handling `x` leads from `s` to `s'` by changes of rows, at most one a row. -/
structure Changes (s : Server) (x : Job × Stream' Env) (s' : Server) : Prop where
  forward : ∀ r ∈ s.tasks, ∃ r' ∈ s'.tasks, r' = r ∨ ∃ k, Change s x k (some r) r'
  backward : ∀ r' ∈ s'.tasks, (∃ r ∈ s.tasks, r' = r ∨ ∃ k, Change s x k (some r) r') ∨
    (∀ r ∈ s.tasks, r.id ≠ r'.id) ∧ ∃ k, Change s x k none r'

namespace Changes
variable {s s' : Server} {x : Job × Stream' Env}

theorem of_tasks_eq (h : s'.tasks = s.tasks) : Changes s x s' :=
  ⟨fun r hr => ⟨r, h ▸ hr, .inl rfl⟩, fun r hr => .inl ⟨r, h ▸ hr, .inl rfl⟩⟩

theorem of_insert {k : Kind} {new : Task} (hc : Change s x k none new)
    (hn : ∀ r ∈ s.tasks, ¬ Task.Clash r new) (h : s'.tasks = s.tasks ++ [new]) : Changes s x s' := by
  constructor
  · intro r hr
    rw [h]
    exact ⟨r, List.mem_append_left _ hr, .inl rfl⟩
  · intro r' hr'
    rw [h] at hr'
    rcases List.mem_append.1 hr' with hr' | hr'
    · exact .inl ⟨r', hr', .inl rfl⟩
    · obtain rfl := List.mem_singleton.1 hr'
      exact .inr ⟨fun r hr hid => hn r hr (.inl hid), k, hc⟩

theorem of_write {k : Kind} {q new : Task} (hq : q ∈ s.tasks) (hc : Change s x k (some q) new)
    (h : s'.tasks = s.tasks.map fun r => if r.id = new.id then r.overwrite new else r) :
    Changes s x s' := by
  have hstep : ∀ r ∈ s.tasks, (if r.id = new.id then r.overwrite new else r) = r ∨
      ∃ k, Change s x k (some r) (if r.id = new.id then r.overwrite new else r) := by
    intro r hr
    split
    · rename_i hid
      obtain rfl := Server.eq_of_id hr hq (hid.trans hc.sameIdentity.id.symm)
      rw [Task.overwrite_eq hc.sameIdentity]
      exact .inr ⟨k, hc⟩
    · exact .inl rfl
  obtain ⟨hforward, hbackward⟩ := exists_of_map (R := fun r r' => r' = r ∨ ∃ k, Change s x k (some r) r') h hstep
  exact ⟨hforward, fun r' hr' => .inl (hbackward r' hr')⟩

theorem of_update {k : Kind} {q new : Task} {teamId : Uuid} {e : Env} (hq : q ∈ s.tasks)
    (hc : Change s x k (some q) new) (h : s'.tasks = (s.act (.updateTask new teamId) e).2.tasks) :
    Changes s x s' := by
  rw [Server.tasks_updateTask] at h
  split at h
  · exact .of_write hq hc h
  · exact .of_tasks_eq h

theorem of_swept {ω : Stream' Env} {teams : List Uuid} (h : Swept ω teams s s') :
    Changes s (.sweep, ω) s' := by
  have hstep : ∀ {r r' : Task}, r.SweepStep ω teams r' →
      r' = r ∨ ∃ k, Change s (.sweep, ω) k (some r) r' := by
    rintro r r' (rfl | ⟨-, ⟨n, ho⟩, rfl⟩)
    · exact .inl rfl
    · exact .inr ⟨_, .release ho⟩
  constructor
  · intro r hr
    obtain ⟨r', hr', h'⟩ := h.forward r hr
    exact ⟨r', hr', hstep h'⟩
  · intro r' hr'
    obtain ⟨r, hr, h'⟩ := h.backward r' hr'
    exact .inl ⟨r, hr, hstep h'⟩

end Changes

/-! ### The handlers, run alone -/

variable {s : Server} {ω : Stream' Env} {key : SessionKey} {session : Session} {taskId : Uuid}

/-- What the handlers of claims, progress and completions share, run alone: what is found is stored now. -/
theorem exec_findTask (P : Server → Prop) {teamId : Uuid} {found : Task → M Unit} {missing : M Unit}
    (hf : ∀ q ∈ s.tasks, q.id = taskId → q.teamId = teamId →
      P ((found q).exec Server.act ω.tail s).2.2)
    (hm : P (missing.exec Server.act ω.tail s).2.2) :
    P (Prog.exec Server.act (do
      match ← call (.getTasksByTeam teamId) with
      | .ok tasks =>
        match tasks.find? fun t => t.id = taskId with
        | some task => found task
        | _ => missing
      | _ => missing) ω s).2.2 := by
  simp only [call, Prog.exec_bind, Prog.exec_op]
  have hs : (s.act (.getTasksByTeam teamId) ω.head).2 = s := rfl
  rw [hs]
  split
  · rename_i rows ha
    have hrows := Server.answer_getTasksByTeam ha.symm
    split
    · rename_i q hq
      have hmem := List.mem_of_find?_eq_some hq
      rw [hrows, List.mem_filter] at hmem
      exact hf q hmem.1 (by simpa using List.find?_some hq) (by simpa using hmem.2)
    · exact hm
  · exact hm

theorem exec_handleClaimTask {m : Nat} (hs : s.session key = some session) :
    Changes s (.text key (.claimTask taskId), ω)
      ((handleClaimTask session.deviceId session.teamId taskId).exec Server.act (ω.drop m) s).2.2 := by
  unfold handleClaimTask
  refine exec_findTask (Changes s _) (fun q hq hid ht => ?_) (.of_tasks_eq rfl)
  subst hid
  split
  · exact .of_tasks_eq rfl
  · rename_i hst
    simp only [call, Prog.exec_bind, Prog.exec_op]
    split <;> exact .of_update hq (.claim hs ht (by simpa using hst)) rfl

theorem exec_handleUpdateProgress {m : Nat} (progress : Rat) (hs : s.session key = some session) :
    Changes s (.text key (.updateProgress taskId progress), ω)
      ((handleUpdateProgress session.deviceId session.teamId taskId progress).exec Server.act
        (ω.drop m) s).2.2 := by
  unfold handleUpdateProgress
  refine exec_findTask (Changes s _) (fun q hq hid ht => ?_) (.of_tasks_eq rfl)
  subst hid
  split
  · exact .of_tasks_eq rfl
  · rename_i hc
    simp only [call, Prog.exec_bind, Prog.exec_op]
    split <;> exact .of_update hq (.progress hs ht (by simpa using hc)) rfl

theorem exec_handleTaskComplete {m : Nat} (localPath : String) (fileSize : Nat) (hI : s.Consistent)
    (hs : s.session key = some session) :
    Changes s (.text key (.taskComplete taskId localPath fileSize), ω)
      ((handleTaskComplete session.deviceId session.teamId taskId localPath fileSize).exec Server.act
        (ω.drop m) s).2.2 := by
  unfold handleTaskComplete
  refine exec_findTask (Changes s _) (fun q hq hid ht => ?_) (.of_tasks_eq rfl)
  subst hid
  split
  · exact .of_tasks_eq rfl
  · rename_i hc
    have hc' : q.claimedBy = some session.deviceId := by simpa using hc
    have hst := (hI q hq).status.resolve_left ((hI q hq).of_claimedBy hc').1
    simp only [call, Prog.exec_bind, Prog.exec_op]
    split <;> exact .of_update hq (.complete hs ht hc' hst) rfl

structure Inserts (s : Server) (x : Job × Stream' Env) (s' : Server) (new : Task) : Prop where
  change : ∃ k, Change s x k none new
  noClash : ∀ r ∈ s.tasks, ¬ Task.Clash r new
  tasks : s'.tasks = s.tasks ++ [new]

theorem Inserts.changes {x : Job × Stream' Env} {s' : Server} {new : Task} (h : Inserts s x s' new) :
    Changes s x s' := by
  obtain ⟨k, hc⟩ := h.change
  exact .of_insert hc h.noClash h.tasks

/-- An insertion, and a call that stores over the row that has just been inserted. -/
theorem Inserts.of_update {x : Job × Stream' Env} {s₁ s' : Server} {k k' : Kind} {row new : Task}
    {teamId : Uuid} {e : Env} (hn : ∀ r ∈ s.tasks, ¬ Task.Clash r row) (hr : s₁.tasks = s.tasks ++ [row])
    (hc : Change s x k none row) (hc' : Change s x k' none new) (hi : row.SameIdentity new)
    (h : s'.tasks = (s₁.act (.updateTask new teamId) e).2.tasks) : ∃ new, Inserts s x s' new := by
  by_cases hf : e.fail = none
  · rw [Server.tasks_updateTask_of_new hn hr hi hf] at h
    refine ⟨new, ⟨k', hc'⟩, fun r hr hcl => hn r hr ?_, h⟩
    exact hcl.imp (·.trans hi.id.symm) (·.trans hi.url.symm)
  · rw [Server.tasks_updateTask, if_neg hf, hr] at h
    exact ⟨row, ⟨k, hc⟩, hn, h⟩

/-- `AddTask` inserts a row if `create_task` succeeds, and changes nothing else. -/
theorem exec_handleAddTask (ω : Stream' Env) (m : Nat) (url : String) (hs : s.session key = some session) :
    let r := s.act (.createTask
      { Task.new (ω.drop m).head.uuid (ω.drop m).tail.head.now url session.teamId session.deviceId with
        status := .queued } session.teamId) (ω.drop m).tail.tail.head
    let s' := ((handleAddTask session.deviceId session.teamId url).exec Server.act (ω.drop m) s).2.2
    (∃ msg, r.1 = .error msg) ∧ s'.tasks = s.tasks ∨
      r.1 = .ok () ∧ ∃ new, Inserts s (.text key (.addTask url), ω) s' new := by
  have hcreate := s.createTask_cases (ω.drop m).tail.tail.head
    { Task.new (ω.drop m).head.uuid (ω.drop m).tail.head.now url session.teamId session.deviceId with
      status := .queued } session.teamId
  simp only [handleAddTask, call, Prog.exec_bind, Prog.exec_op]
  split
  · rename_i msg ha
    rcases hcreate with ⟨-, hr⟩ | ⟨hok, -⟩
    · exact .inl ⟨⟨msg, ha⟩, hr⟩
    · cases ha.symm.trans hok
  · rename_i ha
    rcases hcreate with ⟨⟨msg, herr⟩, -⟩ | ⟨-, -, hn, hr⟩
    · cases ha.symm.trans herr
    refine .inr ⟨ha, ?_⟩
    simp only [Prog.exec_bind, Prog.exec_op]
    split
    · rename_i ownerId ho
      simp only [Prog.exec_bind, Prog.exec_op]
      exact Inserts.of_update hn hr (.insertQueued hs) (.insertClaimed hs ho) ⟨rfl, rfl, rfl, rfl, rfl⟩ rfl
    · exact ⟨_, ⟨_, .insertQueued hs⟩, hn, hr⟩

theorem exec_handleMessage {msg : ClientMessage} {p : Session → M Unit}
    (hp : handleMessage key msg = do if let some session ← call (.getSession key) then p session)
    (h : ∀ session, s.session key = some session →
      Changes s (.text key msg, ω) ((p session).exec Server.act (ω.drop 1) s).2.2) :
    Changes s (.text key msg, ω) ((handleMessage key msg).exec Server.act ω s).2.2 := by
  simp only [hp, call, Prog.exec_bind, Prog.exec_op]
  split
  · exact h _ ‹_›
  · exact .of_tasks_eq rfl

variable [AuthDeps]

theorem handle_quiet {j : Job} (hc : ∀ key url, j ≠ .text key (.addTask url))
    (hu : ∀ h task teamId, ¬ Stores j h task teamId) (hr : j ≠ .sweep) :
    (s.handle (j, ω)).tasks = s.tasks := by
  refine (code_wp j).exec (J := fun s' : Server => s'.tasks = s.tasks) (fun h o e s' ha hJ => ?_) ω rfl
  rcases act_tasks o e s' with h | ⟨_, _, rfl, -⟩ | ⟨_, _, rfl, -⟩ | ⟨_, rfl, -⟩
  · exact h.trans hJ
  · obtain ⟨key, url, -, -, -, hj, -⟩ := ha
    exact absurd hj (hc key url)
  · exact absurd ha (hu _ _ _)
  · exact absurd ha.1 hr

theorem handle_changes (hI : s.Consistent) (x : Job × Stream' Env) : Changes s x (s.handle x) := by
  obtain ⟨j, ω⟩ := x
  cases j with
  | connect => exact .of_tasks_eq (handle_quiet (by simp) (fun _ _ _ h => by cases h) (by simp))
  | disconnect => exact .of_tasks_eq (handle_quiet (by simp) (fun _ _ _ h => by cases h) (by simp))
  | sweep =>
    obtain ⟨teams, -, hsw, -⟩ := exec_checkAllTaskTimeouts ω s
    exact .of_swept hsw
  | text key msg =>
    cases msg with
    | addTask url =>
      exact exec_handleMessage (p := fun x => handleAddTask x.deviceId x.teamId url) rfl
        fun session hs => by
          rcases exec_handleAddTask ω 1 url hs with ⟨-, h⟩ | ⟨-, new, h⟩
          · exact .of_tasks_eq h
          · exact h.changes
    | claimTask taskId =>
      exact exec_handleMessage (p := fun x => handleClaimTask x.deviceId x.teamId taskId) rfl
        fun session hs => exec_handleClaimTask hs
    | updateProgress taskId progress =>
      exact exec_handleMessage (p := fun x => handleUpdateProgress x.deviceId x.teamId taskId progress) rfl
        fun session hs => exec_handleUpdateProgress progress hs
    | taskComplete taskId localPath fileSize =>
      exact exec_handleMessage
        (p := fun x => handleTaskComplete x.deviceId x.teamId taskId localPath fileSize) rfl
        fun session hs => exec_handleTaskComplete localPath fileSize hI hs
    | _ => exact .of_tasks_eq (handle_quiet (by simp) (fun _ _ _ h => by cases h) (by simp))

/-- From an empty table, jobs handled one at a time: no row disappears, and a row that a job changes is
changed in exactly one of the ways of the life cycle; an inserted row has version 1, every other change
raises the version by 1, and a complete task stays complete. -/
theorem life_cycle (s : Server) (hs : s.tasks = []) (xs : List (Job × Stream' Env)) (x : Job × Stream' Env) :
    (∀ r ∈ (s.handleAll xs).tasks, ∃ r' ∈ ((s.handleAll xs).handle x).tasks, r'.id = r.id) ∧
      ∀ new ∈ ((s.handleAll xs).handle x).tasks, (s.handleAll xs).task? new.id ≠ some new →
        (∃! k, Change (s.handleAll xs) x k ((s.handleAll xs).task? new.id) new) ∧
          ((s.handleAll xs).task? new.id = none → new.version = 1) ∧
          ∀ r, (s.handleAll xs).task? new.id = some r →
            new.version = r.version + 1 ∧ (r.status = .complete → new.status = .complete) := by
  have hI := (Server.Consistent.of_empty hs).handleAll xs
  have hch := handle_changes hI x
  generalize s.handleAll xs = b at hI hch ⊢
  constructor
  · intro r hr
    obtain ⟨r', hr', rfl | ⟨k, hc⟩⟩ := hch.forward r hr
    · exact ⟨r', hr', rfl⟩
    · exact ⟨r', hr', hc.sameIdentity.id.symm⟩
  · intro new hnew hne
    -- the change was made to the row that had the id before
    have hold : ∃ k, Change b x k (b.task? new.id) new := by
      rcases hch.backward new hnew with ⟨r, hr, rfl | ⟨k, hc⟩⟩ | ⟨hnone, k, hc⟩
      · exact absurd (Server.task?_eq_some.2 ⟨hr, rfl⟩) hne
      · exact ⟨k, by rwa [Server.task?_eq_some.2 ⟨hr, hc.sameIdentity.id⟩]⟩
      · exact ⟨k, by rwa [Server.task?_eq_none.2 hnone]⟩
    obtain ⟨k, hc⟩ := hold
    refine ⟨⟨k, hc, ?_⟩, ?_, ?_⟩
    · intro k' hc'
      rw [hc'.kind_eq, hc.kind_eq]
    · intro h
      rw [h] at hc
      exact hc.version_insert
    · intro r h
      rw [h] at hc
      exact ⟨hc.version_eq, hc.complete_of_complete⟩

end

namespace Sample

theorem life_cycle_claim :
    let s := server.handleAll [(.text 101 (.addTask "u"), always 7 "" 1000)]
    let x := (Job.text 101 (.claimTask 7), always 0 "" 1000)
    s.tasks.map (·.status) = [.queued] ∧
      ∀ new ∈ (s.handle x).tasks, s.task? new.id ≠ some new ∧ ∃! k, Change s x k (s.task? new.id) new := by
  refine ⟨by decide +kernel, fun new hnew => ?_⟩
  have hne : ∀ new ∈ ((server.handleAll [(.text 101 (.addTask "u"), always 7 "" 1000)]).handle
      (.text 101 (.claimTask 7), always 0 "" 1000)).tasks,
      (server.handleAll [(.text 101 (.addTask "u"), always 7 "" 1000)]).task? new.id ≠ some new := by
    decide +kernel
  exact ⟨hne new hnew, ((life_cycle server rfl _ _).2 new hnew (hne new hnew)).1⟩

end Sample

end XVideoDownloader
