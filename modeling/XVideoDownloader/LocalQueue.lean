import XVideoDownloader.Types
import XVideoDownloader.Lib.Slices
import XVideoDownloader.Lib.StateFile
import Mathlib.Data.List.Induction

/-!
# The local task queue (`client/queue.rs`)

Every operation checks, changes the list in memory and then saves it. `serde_json` is the `Codec` of the lists.
`Op.run` is an operation with the file system's answers to its save, and a `LocalQueue.Event` is an operation or a
reopening of the queue's directory.
-/

namespace XVideoDownloader
open Lib

/-- An `f64`, by its bits. -/
abbrev F64 := BitVec 64

/-- A `PathBuf`, by its bytes: they need not be UTF-8. -/
abbrev Path := List UInt8

/-- A `Task` as the client holds it: its progress may be any number and its path any path. -/
structure LocalTask where
  id : Uuid
  teamId : Uuid
  url : String
  status : TaskStatus
  claimedBy : Option Uuid
  claimedAt : Option Time
  progress : F64
  localPath : Option Path
  fileSize : Option Nat
  createdBy : Uuid
  createdAt : Time
  version : Nat
  deriving DecidableEq

def LocalTask.new (id : Uuid) (now : Time) (url : String) (teamId createdBy : Uuid) : LocalTask where
  id := id
  teamId := teamId
  url := url
  status := .new
  claimedBy := none
  claimedAt := none
  progress := 0
  localPath := none
  fileSize := none
  createdBy := createdBy
  createdAt := now
  version := 1

structure LocalQueue where
  tasks : List LocalTask
  teamId : Uuid
  deviceId : Uuid
  deriving DecidableEq

namespace LocalQueue

/-- What the file system answers to `save`. -/
structure Io where
  /-- The error of `create_dir_all`. -/
  createDir : Option String
  write : FileWrite

/-- What it answers to `load`: `exists` may not see the file, and reading it may fail. -/
inductive FileRead
  | unseen
  | failed (error : String)
  | done

section
variable [Codec (List LocalTask)]

def save (io : Io) (q : LocalQueue) (file : Option String) : Except String Unit × Option String :=
  match Codec.encode q.tasks with
  | .error e => (.error e, file)
  | .ok json =>
    match io.createDir with
    | some e => (.error e, file)
    | none => io.write.run json

def load (read : FileRead) (q : LocalQueue) (file : Option String) : Except String LocalQueue :=
  match file, read with
  | none, _ => .ok q
  | some _, .unseen => .ok q
  | some _, .failed e => .error e
  | some json, .done => (Codec.decode json).map fun tasks => { q with tasks := tasks }

def new (deviceId teamId : Uuid) (read : FileRead) (file : Option String) : Except String LocalQueue :=
  load read ⟨[], teamId, deviceId⟩ file

end

/-- `iter_mut().find(…)`, and the first task found is changed by `f`. -/
def modifyFirst (taskId : Uuid) (f : LocalTask → Except String LocalTask) :
    List LocalTask → Except String (List LocalTask)
  | [] => .error "任务不存在"
  | task :: tasks =>
    if task.id = taskId then (f task).map fun task => task :: tasks
    else (modifyFirst taskId f tasks).map fun tasks => task :: tasks

def modifyTask (taskId : Uuid) (f : LocalTask → Except String LocalTask) (q : LocalQueue) :
    Except String LocalQueue :=
  (modifyFirst taskId f q.tasks).map fun tasks => { q with tasks := tasks }

def pushTask (task : LocalTask) (q : LocalQueue) : Except String LocalQueue :=
  if q.tasks.any fun t => t.url = task.url then .error "URL 已存在"
  else .ok { q with tasks := q.tasks ++ [task] }

def pushUnlessKnown (tasks : List LocalTask) (task : LocalTask) : List LocalTask :=
  if tasks.any fun t => t.url = task.url then tasks else tasks ++ [task]

/-- The server's tasks, and after them the new tasks of the queue whose URL none of them has. -/
def merge (server current : List LocalTask) : List LocalTask :=
  (current.filter fun t => t.status = .new).foldl pushUnlessKnown server

def getTask (q : LocalQueue) (taskId : Uuid) : Option LocalTask := q.tasks.find? fun t => t.id = taskId

inductive Op
  | addTask (url : String) (id : Uuid) (now : Time)
  | claimTask (taskId : Uuid) (now : Time)
  | updateProgress (taskId : Uuid) (progress : F64)
  | markComplete (taskId : Uuid) (localPath : Path) (fileSize : Nat)
  | updateStatusToQueued (taskId : Uuid)
  | syncFromServer (tasks : List LocalTask)

/-- What an operation does before its `save`. -/
def Op.edit : Op → LocalQueue → Except String LocalQueue
  | addTask url id now, q => q.pushTask (.new id now url q.teamId q.deviceId)
  | claimTask taskId now, q => q.modifyTask taskId fun task =>
      if task.status ≠ .queued then .error "任务不可认领"
      else .ok { task with status := .claimed, claimedBy := some q.deviceId, claimedAt := some now }
  | updateProgress taskId progress, q => q.modifyTask taskId fun task => .ok { task with progress := progress }
  | markComplete taskId localPath fileSize, q => q.modifyTask taskId fun task =>
      .ok { task with status := .complete, localPath := some localPath, fileSize := some fileSize }
  | updateStatusToQueued taskId, q => q.modifyTask taskId fun task => .ok { task with status := .queued }
  | syncFromServer tasks, q => .ok { q with tasks := merge tasks q.tasks }

/-- The task that `add_task` returns. -/
def Op.returned (q : LocalQueue) : Op → Option LocalTask
  | addTask url id now => some (.new id now url q.teamId q.deviceId)
  | _ => none

/-- The result of an operation, and the queue and the state file after it. -/
def Op.run [Codec (List LocalTask)] (o : Op) (io : Io) (q : LocalQueue) (file : Option String) :
    Except String (Option LocalTask) × LocalQueue × Option String :=
  let r := commit o.edit (save io) q file
  (r.1.map fun _ => o.returned q, r.2)

/-! ### Edits -/

variable {q q' : LocalQueue} {taskId : Uuid} {task : LocalTask} {tasks tasks' : List LocalTask}

theorem modifyFirst_of_find? (h : tasks.find? (fun t => t.id = taskId) = some task) :
    ∃ before after, tasks = before ++ task :: after ∧
      ∀ f, modifyFirst taskId f tasks = (f task).map fun task => before ++ task :: after := by
  induction tasks with
  | nil => cases h
  | cons t tasks ih =>
    by_cases ht : t.id = taskId
    · rw [List.find?_cons_of_pos (by simpa using ht)] at h
      cases h
      exact ⟨[], tasks, rfl, fun f => by simp [modifyFirst, ht]⟩
    · rw [List.find?_cons_of_neg (by simpa using ht)] at h
      obtain ⟨before, after, rfl, hf⟩ := ih h
      refine ⟨t :: before, after, rfl, fun f => ?_⟩
      rw [modifyFirst, if_neg ht, hf]
      cases f task <;> rfl

theorem modifyFirst_of_find?_none (h : tasks.find? (fun t => t.id = taskId) = none)
    (f : LocalTask → Except String LocalTask) : modifyFirst taskId f tasks = .error "任务不存在" := by
  induction tasks with
  | nil => rfl
  | cons t tasks ih =>
    have ht : ¬ t.id = taskId := by simpa using List.find?_eq_none.1 h t List.mem_cons_self
    rw [List.find?_cons_of_neg (by simpa using ht)] at h
    rw [modifyFirst, if_neg ht, ih h]
    rfl

/-- An unknown task is refused, and otherwise the found task is replaced where it stands. -/
theorem modifyTask_cases (q : LocalQueue) (taskId : Uuid) :
    (q.getTask taskId = none ∧ ∀ f, q.modifyTask taskId f = .error "任务不存在") ∨
      ∃ before task after, q.getTask taskId = some task ∧ q.tasks = before ++ task :: after ∧
        ∀ f, q.modifyTask taskId f = (f task).map fun task => { q with tasks := before ++ task :: after } := by
  cases h : q.getTask taskId with
  | none =>
    refine Or.inl ⟨rfl, fun f => ?_⟩
    rw [modifyTask, modifyFirst_of_find?_none h]
    rfl
  | some task =>
    obtain ⟨before, after, htasks, hf⟩ := modifyFirst_of_find? h
    refine Or.inr ⟨before, task, after, rfl, htasks, fun f => ?_⟩
    rw [modifyTask, hf]
    cases f task <;> rfl

/-! ### Distinct URLs -/

def Distinct (tasks : List LocalTask) : Prop := tasks.Pairwise fun t u => t.url ≠ u.url

instance : Decidable (Distinct tasks) := inferInstanceAs (Decidable (tasks.Pairwise _))

theorem distinct_congr (h : tasks'.map (·.url) = tasks.map (·.url)) : Distinct tasks' ↔ Distinct tasks := by
  rw [Distinct, Distinct, ← List.pairwise_map (f := LocalTask.url), h, List.pairwise_map]

theorem distinct_concat : Distinct (tasks ++ [task]) ↔ Distinct tasks ∧ ∀ t ∈ tasks, t.url ≠ task.url := by
  simp [Distinct, List.pairwise_append]

/-- A change that keeps the URL of a task keeps the URLs of the list. -/
theorem distinct_modifyTask {f : LocalTask → Except String LocalTask}
    (hf : ∀ t t', f t = .ok t' → t'.url = t.url) (h : q.modifyTask taskId f = .ok q') (hq : Distinct q.tasks) :
    Distinct q'.tasks := by
  rcases modifyTask_cases q taskId with ⟨-, he⟩ | ⟨before, task, after, -, htasks, he⟩
  · rw [he] at h
    cases h
  · rw [he] at h
    cases ht : f task with
    | error e =>
      rw [ht] at h
      cases h
    | ok task' =>
      rw [ht] at h
      cases h
      refine (distinct_congr ?_).1 hq
      rw [htasks, List.map_append, List.map_cons, List.map_append, List.map_cons, hf task task' ht]

theorem distinct_merge (hserver : Distinct tasks) (current : List LocalTask) : Distinct (merge tasks current) := by
  unfold merge
  generalize current.filter (fun t => t.status = .new) = news
  induction news generalizing tasks with
  | nil => exact hserver
  | cons task news ih =>
    refine ih ?_
    by_cases h : (tasks.any fun t => t.url = task.url) = true
    · rw [pushUnlessKnown, if_pos h]
      exact hserver
    · rw [pushUnlessKnown, if_neg h]
      exact distinct_concat.2 ⟨hserver, by simpa using h⟩

/-- The lists given to `sync_from_server` have distinct URLs. -/
def Op.Clean : Op → Prop
  | syncFromServer tasks => Distinct tasks
  | _ => True

theorem Op.distinct_edit {o : Op} (ho : o.Clean) (h : o.edit q = .ok q') (hq : Distinct q.tasks) :
    Distinct q'.tasks := by
  cases o with
  | addTask url id now =>
    by_cases hd : (q.tasks.any fun t => t.url = url) = true
    · rw [edit, pushTask, LocalTask.new, if_pos hd] at h
      cases h
    · rw [edit, pushTask, LocalTask.new, if_neg hd] at h
      cases h
      exact distinct_concat.2 ⟨hq, by simpa using hd⟩
  | claimTask taskId now =>
    refine distinct_modifyTask ?_ h hq
    intro t t' ht
    split at ht <;> cases ht
    rfl
  | updateProgress taskId progress =>
    refine distinct_modifyTask ?_ h hq
    rintro t t' ⟨⟩
    rfl
  | markComplete taskId localPath fileSize =>
    refine distinct_modifyTask ?_ h hq
    rintro t t' ⟨⟩
    rfl
  | updateStatusToQueued taskId =>
    refine distinct_modifyTask ?_ h hq
    rintro t t' ⟨⟩
    rfl
  | syncFromServer tasks =>
    cases h
    exact distinct_merge ho _

/-! ### Runs -/

/-- A queue and its state file. -/
structure State where
  queue : LocalQueue
  file : Option String

inductive Event
  | call (o : Op) (io : Io)
  | reopen (deviceId teamId : Uuid) (read : FileRead)

variable [Codec (List LocalTask)]

/-- Where reopening fails, there is only the old queue. -/
def State.step (s : State) : Event → State
  | .call o io => ⟨(o.run io s.queue s.file).2.1, (o.run io s.queue s.file).2.2⟩
  | .reopen deviceId teamId read =>
    match LocalQueue.new deviceId teamId read s.file with
    | .ok q => ⟨q, s.file⟩
    | .error _ => s

def State.after (s : State) (xs : List Event) : State := xs.foldl step s

/-- A queue on a directory without a state file. -/
def State.fresh (deviceId teamId : Uuid) : State := ⟨⟨[], teamId, deviceId⟩, none⟩

theorem State.after_concat (s : State) (xs : List Event) (x : Event) : s.after (xs ++ [x]) = (s.after xs).step x := by
  rw [after, List.foldl_append]
  rfl

theorem State.step_reopen_ok {s : State} {deviceId teamId : Uuid} {read : FileRead}
    (h : LocalQueue.new deviceId teamId read s.file = .ok q) : s.step (.reopen deviceId teamId read) = ⟨q, s.file⟩ := by
  simp only [step, h]

theorem State.step_reopen_error {s : State} {deviceId teamId : Uuid} {read : FileRead} {e : String}
    (h : LocalQueue.new deviceId teamId read s.file = .error e) : s.step (.reopen deviceId teamId read) = s := by
  simp only [step, h]

/-- The event is an operation that succeeds, and `json` is what its `save` leaves in the file. -/
def State.Saves (s : State) (x : Event) (json : String) : Prop :=
  ∃ o io a, x = .call o io ∧ (o.run io s.queue s.file).1 = .ok a ∧ (s.step x).file = some json

/-- Some save of the run has written `json`. -/
def State.Saved (s : State) (xs : List Event) (json : String) : Prop :=
  ∃ before x after, xs = before ++ x :: after ∧ (s.after before).Saves x json

/-- The URLs of a list from the server are distinct, and a file that is opened was written by `save`. -/
def State.Legal (s : State) (before : List Event) : Event → Prop
  | .call o _ => o.Clean
  | .reopen .. => ∀ json, (s.after before).file = some json → s.Saved before json

/-- `from_str` reads back the URLs that `to_string_pretty` has written. -/
def UrlsReadBack : Prop :=
  ∀ (tasks : List LocalTask) json (tasks' : List LocalTask), Codec.encode tasks = .ok json → Codec.decode json = .ok tasks' →
    tasks'.map (·.url) = tasks.map (·.url)

theorem save_ok {io : Io} {file : Option String} (h : (q.save io file).1 = .ok ()) :
    ∃ json, Codec.encode q.tasks = .ok json ∧ (q.save io file).2 = some json := by
  unfold save at h ⊢
  cases he : Codec.encode q.tasks with
  | error e =>
    rw [he] at h
    cases h
  | ok json =>
    rw [he] at h
    refine ⟨json, rfl, ?_⟩
    cases hc : io.createDir with
    | some e =>
      rw [hc] at h
      cases h
    | none =>
      rw [hc] at h
      have h : (io.write.run json).1 = .ok () := h
      show (io.write.run json).2 = some json
      rw [FileWrite.run_ok.1 h]
      rfl

/-- An operation that succeeds edits the queue and leaves its text in the file. -/
theorem Op.run_ok {o : Op} {io : Io} {file : Option String} {a : Option LocalTask}
    (h : (o.run io q file).1 = .ok a) :
    ∃ q' json, o.edit q = .ok q' ∧ Codec.encode q'.tasks = .ok json ∧ (o.run io q file).2 = (q', some json) := by
  have hok : ((commit o.edit (save io) q file).1.map fun _ => o.returned q) = .ok a := h
  show ∃ q' json, _ ∧ _ ∧ (commit o.edit (save io) q file).2 = (q', some json)
  cases he : o.edit q with
  | error e =>
    rw [commit_of_error he] at hok
    cases hok
  | ok q' =>
    rw [commit_of_ok he] at hok ⊢
    have hs : (save io q' file).1 = .ok () := by
      cases hr : (save io q' file).1 with
      | ok => rfl
      | error e =>
        rw [show (save io q' file).1 = .error e from hr] at hok
        cases hok
    obtain ⟨json, hencode, hfile⟩ := save_ok hs
    exact ⟨q', json, rfl, hencode, Prod.ext rfl hfile⟩

theorem State.Saves.encode {s : State} {x : Event} {json : String} (h : s.Saves x json) :
    Codec.encode (s.step x).queue.tasks = .ok json := by
  obtain ⟨o, io, a, rfl, hok, hfile⟩ := h
  obtain ⟨q', json', -, hencode, hrun⟩ := Op.run_ok hok
  have hfile : (o.run io s.queue s.file).2.2 = some json := hfile
  rw [hrun] at hfile
  cases hfile
  show Codec.encode (o.run io s.queue s.file).2.1.tasks = .ok json
  rw [hrun]
  exact hencode

theorem State.saved_concat {s : State} {xs : List Event} {x : Event} {json : String}
    (h : s.Saved (xs ++ [x]) json) : s.Saved xs json ∨ (s.after xs).Saves x json := by
  obtain ⟨before, y, after, he, hy⟩ := h
  rcases concat_cut he with ⟨rfl, rfl, -⟩ | ⟨after, -, hxs⟩
  · exact Or.inr hy
  · exact Or.inl ⟨before, y, after, hxs, hy⟩

/-- What the induction carries: the URLs of the queue are distinct, and so are those of every text that a save has
written. -/
structure State.Tidy (s : State) (xs : List Event) : Prop where
  queue : Distinct (s.after xs).queue.tasks
  saved : ∀ json, s.Saved xs json → ∃ tasks, Codec.encode tasks = .ok json ∧ Distinct tasks

theorem State.Tidy.step_queue {s : State} {xs : List Event} {x : Event} (h : s.Tidy xs) (hread : UrlsReadBack)
    (hx : s.Legal xs x) : Distinct ((s.after xs).step x).queue.tasks := by
  cases x with
  | call o io => exact commit_invariant (J := fun q => Distinct q.tasks) h.queue fun q' he => o.distinct_edit hx he h.queue
  | reopen deviceId teamId read =>
    cases hnew : LocalQueue.new deviceId teamId read (s.after xs).file with
    | error e =>
      rw [step_reopen_error hnew]
      exact h.queue
    | ok q =>
      rw [step_reopen_ok hnew]
      show Distinct q.tasks
      unfold LocalQueue.new load at hnew
      split at hnew
      · cases hnew
        exact .nil
      · cases hnew
        exact .nil
      · cases hnew
      · rename_i json hfile
        obtain ⟨tasks, hencode, hd⟩ := h.saved json (hx json hfile)
        cases hdecode : Codec.decode (τ := List LocalTask) json with
        | error e =>
          rw [hdecode] at hnew
          cases hnew
        | ok tasks' =>
          rw [hdecode] at hnew
          cases hnew
          exact (distinct_congr (hread tasks json tasks' hencode hdecode)).2 hd

theorem State.Tidy.step {s : State} {xs : List Event} {x : Event} (h : s.Tidy xs) (hread : UrlsReadBack)
    (hx : s.Legal xs x) : s.Tidy (xs ++ [x]) := by
  have hq := h.step_queue hread hx
  refine ⟨?_, ?_⟩
  · rw [after_concat]
    exact hq
  · intro json hs
    rcases saved_concat hs with hs | hs
    · exact h.saved json hs
    · exact ⟨_, hs.encode, hq⟩

/-- On every run of operations and reopenings, whatever fails in between, no two tasks of the queue have one
URL. -/
theorem distinct_urls (hread : UrlsReadBack) (deviceId teamId : Uuid) (xs : List Event)
    (hlegal : ∀ before x after, xs = before ++ x :: after → (State.fresh deviceId teamId).Legal before x) :
    ((State.fresh deviceId teamId).after xs).queue.tasks.Pairwise fun t u => t.url ≠ u.url := by
  have htidy : (State.fresh deviceId teamId).Tidy xs := by
    refine prefix_induction (P := (State.fresh deviceId teamId).Tidy) ⟨.nil, ?_⟩ ?_ xs [] (List.append_nil xs).symm
    · rintro json ⟨before, x, after, he, -⟩
      simp at he
    · intro before x after he ih
      exact ih.step hread (hlegal before x after he)
  exact htidy.queue

end LocalQueue

namespace Sample
open LocalQueue

def newTask : LocalTask := .new 7 0 "u" 10 1

def newTaskJson : String :=
  "[\n  \x7b\n    \"id\": \"00000000-0000-0000-0000-000000000007\",\n" ++
  "    \"team_id\": \"00000000-0000-0000-0000-00000000000a\",\n    \"url\": \"u\",\n    \"status\": \"New\",\n" ++
  "    \"claimed_by\": null,\n    \"claimed_at\": null,\n    \"progress\": 0.0,\n    \"local_path\": null,\n" ++
  "    \"file_size\": null,\n    \"created_by\": \"00000000-0000-0000-0000-000000000001\",\n" ++
  "    \"created_at\": \"1970-01-01T00:00:00Z\",\n    \"version\": 1\n  \x7d\n]"

/-- `serde_json` on two lists. -/
scoped instance taskCodec : Codec (List LocalTask) where
  encode tasks :=
    if tasks = [] then .ok "[]" else if tasks = [newTask] then .ok newTaskJson else .error "another list"
  decode json :=
    if json = "[]" then .ok [] else if json = newTaskJson then .ok [newTask] else .error "another text"

theorem urlsReadBack : UrlsReadBack := by
  intro tasks json tasks' he hd
  simp only [Codec.encode] at he
  split at he
  · rename_i h
    cases he
    simp only [Codec.decode, if_true] at hd
    cases hd
    rw [h]
  split at he
  · rename_i h
    cases he
    have hd : (if newTaskJson = "[]" then _ else if newTaskJson = newTaskJson then _ else _ : Except String _) =
      .ok tasks' := hd
    rw [if_neg (by decide), if_pos rfl] at hd
    cases hd
    rw [h]
  · cases he

def working : Io := ⟨none, .done⟩

def full : Io := ⟨none, .failed "No space left on device (os error 28)" (some "")⟩

/-- A task is added and saved, a directory cannot be created, and the queue is opened again. -/
def reopened : List Event :=
  [.call (.addTask "u" 7 0) working, .call (.updateProgress 7 0) ⟨some "Permission denied (os error 13)", .done⟩,
    .reopen 1 10 .done]

theorem distinct_urls_reopened :
    ((State.fresh 1 10).after reopened).queue.tasks.Pairwise fun t u => t.url ≠ u.url := by
  refine distinct_urls urlsReadBack 1 10 reopened ?_
  rintro before x after h
  rcases before with _ | ⟨a, _ | ⟨b, _ | ⟨c, before⟩⟩⟩
  · cases h
    trivial
  · cases h
    trivial
  · cases h
    intro json hjson
    exact ⟨[], _, _, rfl, _, _, some newTask, rfl, rfl, hjson⟩
  · have := congrArg List.length h
    simp [reopened] at this

end Sample

end XVideoDownloader
