import XVideoDownloader.AuthMessage
import XVideoDownloader.TaskJson
import Mathlib.Logic.Equiv.List

/-!
# Opening the queue again

A successful operation leaves the text of the whole queue in the file. The encoder writes every progress and the
decoder reads only the finite ones, so the queue can be opened again exactly as long as every stored progress is
finite (`reloads_iff`): one infinity or NaN and all tasks are out of reach.
-/

namespace XVideoDownloader
open Lib

namespace LocalTask
variable [SerdeJson] [AuthDeps] [ChronoDeps] {t : LocalTask} {tasks : List LocalTask}

/-- Whatever is read is in range, and its progress is finite. -/
theorem of_deserialize (hlaw : SerdeJson.Lawful) {o : Object SerdeJson.Number} (h : Record.deserialize o = some t) :
    t.InRange ∧ IsFinite t.progress := by
  rw [Record.deserialize] at h
  obtain ⟨id, -, h⟩ := Option.bind_eq_some_iff.1 h
  obtain ⟨teamId, -, h⟩ := Option.bind_eq_some_iff.1 h
  obtain ⟨url, -, h⟩ := Option.bind_eq_some_iff.1 h
  obtain ⟨status, -, h⟩ := Option.bind_eq_some_iff.1 h
  obtain ⟨claimedBy, -, h⟩ := Option.bind_eq_some_iff.1 h
  obtain ⟨claimedAt, -, h⟩ := Option.bind_eq_some_iff.1 h
  obtain ⟨progress, hprogress, h⟩ := Option.bind_eq_some_iff.1 h
  obtain ⟨localPath, -, h⟩ := Option.bind_eq_some_iff.1 h
  obtain ⟨fileSize, hsize, h⟩ := Option.bind_eq_some_iff.1 h
  obtain ⟨createdBy, -, h⟩ := Option.bind_eq_some_iff.1 h
  obtain ⟨createdAt, -, h⟩ := Option.bind_eq_some_iff.1 h
  obtain ⟨version, hversion, h⟩ := Option.bind_eq_some_iff.1 h
  cases h
  obtain ⟨p, hp⟩ := JsonField.read_of_required hprogress
  obtain ⟨v, hv⟩ := JsonField.read_of_required hversion
  refine ⟨⟨?_, ?_⟩, ?_⟩
  · intro n hn
    obtain ⟨s, hs⟩ := JsonField.read_of_optional hsize n hn
    cases s with
    | number k => exact hlaw.lt_of_toU64 hs
    | _ => cases hs
  · cases v with
    | number k => exact hlaw.lt_of_toU64 hv
    | _ => cases hv
  · cases p with
    | number k => exact hlaw.isFinite_of_toF64 hp
    | _ => cases hp

theorem of_file (hlaw : SerdeJson.Lawful) {file : Option String} (h : file.elim (.ok []) Codec.decode = .ok tasks) :
    ∀ t ∈ tasks, t.InRange ∧ IsFinite t.progress := by
  intro t ht
  rcases file with _ | json
  · cases h
    cases ht
  · obtain ⟨o, ho⟩ := Record.deserialize_of_decode h ht
    exact of_deserialize hlaw ho

/-- The task with the progress that its decimal text stands for. -/
def rounded (t : LocalTask) : LocalTask :=
  { t with progress := (SerdeJson.toF64 (SerdeJson.ofF64 t.progress)).getD 0 }

end LocalTask

namespace LocalQueue

section
variable {q q' : LocalQueue} {t : LocalTask} {o : Op}

/-- What an operation makes of one task. -/
def Op.Makes (q : LocalQueue) (t : LocalTask) : Op → Prop
  | addTask url id now => t = .new id now url q.teamId q.deviceId
  | claimTask _ now =>
      ∃ u ∈ q.tasks, t = { u with status := .claimed, claimedBy := some q.deviceId, claimedAt := some now }
  | updateProgress _ progress => ∃ u ∈ q.tasks, t = { u with progress := progress }
  | markComplete _ localPath fileSize =>
      ∃ u ∈ q.tasks, t = { u with status := .complete, localPath := some localPath, fileSize := some fileSize }
  | updateStatusToQueued _ => ∃ u ∈ q.tasks, t = { u with status := .queued }
  | syncFromServer tasks => t ∈ tasks

theorem mem_modifyTask {taskId : Uuid} {f : LocalTask → Except String LocalTask} (h : q.modifyTask taskId f = .ok q')
    (ht : t ∈ q'.tasks) : t ∈ q.tasks ∨ ∃ u ∈ q.tasks, f u = .ok t := by
  rcases modifyTask_cases q taskId with ⟨-, he⟩ | ⟨before, task, after, -, htasks, he⟩
  · rw [he] at h
    cases h
  · rw [he] at h
    cases hf : f task with
    | error e => simp [hf, Except.map] at h
    | ok task' =>
      simp only [hf, Except.map, Except.ok.injEq] at h
      subst h
      rw [htasks]
      rcases List.mem_append.1 ht with ht | ht
      · exact .inl (List.mem_append_left _ ht)
      · rcases List.mem_cons.1 ht with rfl | ht
        · exact .inr ⟨task, by simp, hf⟩
        · exact .inl (by simp [ht])

theorem mem_foldl_pushUnlessKnown {news tasks : List LocalTask} :
    t ∈ news.foldl pushUnlessKnown tasks → t ∈ tasks ∨ t ∈ news := by
  induction news generalizing tasks with
  | nil => exact .inl
  | cons u news ih =>
    intro h
    rcases ih h with h | h
    · unfold pushUnlessKnown at h
      split at h
      · exact .inl h
      · rcases List.mem_append.1 h with h | h
        · exact .inl h
        · exact .inr (by simp [List.mem_singleton.1 h])
    · exact .inr (List.mem_cons_of_mem u h)

/-- Every task after an operation is one from before, or what the operation makes. -/
theorem Op.mem_edit (h : o.edit q = .ok q') (ht : t ∈ q'.tasks) : t ∈ q.tasks ∨ o.Makes q t := by
  cases o with
  | addTask url id now =>
    rw [edit, pushTask] at h
    split at h
    · cases h
    · cases h
      rcases List.mem_append.1 ht with ht | ht
      · exact .inl ht
      · exact .inr (List.mem_singleton.1 ht)
  | claimTask taskId now =>
    rcases mem_modifyTask h ht with ht | ⟨u, hu, hf⟩
    · exact .inl ht
    · split at hf
      · cases hf
      · exact .inr ⟨u, hu, (Except.ok.inj hf).symm⟩
  | syncFromServer tasks =>
    cases h
    rcases mem_foldl_pushUnlessKnown ht with ht | ht
    · exact .inr ht
    · exact .inl (List.mem_filter.1 ht).1
  | _ =>
    rcases mem_modifyTask h ht with ht | ⟨u, hu, ⟨⟩⟩
    · exact .inl ht
    · exact .inr ⟨u, hu, rfl⟩

/-- The arguments are of their Rust types: sizes and versions are `u64`s. -/
def Op.InRange : Op → Prop
  | markComplete _ _ fileSize => fileSize < UInt64.size
  | syncFromServer tasks => ∀ t ∈ tasks, t.InRange
  | _ => True

/-- No progress that the operation stores is an infinity or a NaN. -/
def Op.StoresFinite : Op → Prop
  | updateProgress _ progress => IsFinite progress
  | syncFromServer tasks => ∀ t ∈ tasks, IsFinite t.progress
  | _ => True

theorem Op.inRange_edit (ho : o.InRange) (hq : ∀ t ∈ q.tasks, t.InRange) (h : o.edit q = .ok q') :
    ∀ t ∈ q'.tasks, t.InRange := by
  intro t ht
  rcases mem_edit h ht with ht | hm
  · exact hq t ht
  cases o with
  | addTask url id now =>
    cases hm
    refine ⟨by simp [LocalTask.new], ?_⟩
    show 1 < UInt64.size
    decide
  | markComplete taskId localPath fileSize =>
    obtain ⟨u, hu, rfl⟩ := hm
    refine ⟨?_, (hq u hu).version⟩
    rintro n ⟨⟩
    exact ho
  | syncFromServer tasks => exact ho t hm
  | _ =>
    obtain ⟨u, hu, rfl⟩ := hm
    exact ⟨(hq u hu).fileSize, (hq u hu).version⟩

theorem Op.isFinite_edit (ho : o.StoresFinite) (hq : ∀ t ∈ q.tasks, IsFinite t.progress) (h : o.edit q = .ok q') :
    ∀ t ∈ q'.tasks, IsFinite t.progress := by
  intro t ht
  rcases mem_edit h ht with ht | hm
  · exact hq t ht
  cases o with
  | addTask url id now =>
    cases hm
    show IsFinite 0
    decide
  | updateProgress taskId progress =>
    obtain ⟨u, -, rfl⟩ := hm
    exact ho
  | syncFromServer tasks => exact ho t hm
  | _ =>
    obtain ⟨u, hu, rfl⟩ := hm
    exact hq u hu

theorem subset_foldl_pushUnlessKnown (news tasks : List LocalTask) : tasks ⊆ news.foldl pushUnlessKnown tasks := by
  induction news generalizing tasks with
  | nil => exact fun _ h => h
  | cons u news ih =>
    refine fun t ht => ih _ ?_
    unfold pushUnlessKnown
    split
    · exact ht
    · exact List.mem_append_left _ ht

/-- Every progress that an operation stores is in the queue after it. -/
theorem Op.storesFinite_of_edit (h : o.edit q = .ok q') (hq : ∀ t ∈ q'.tasks, IsFinite t.progress) :
    o.StoresFinite := by
  cases o with
  | updateProgress taskId progress =>
    rcases modifyTask_cases q taskId with ⟨-, he⟩ | ⟨before, task, after, -, -, he⟩
    · rw [edit, he] at h
      cases h
    · rw [edit, he] at h
      cases h
      exact hq { task with progress := progress } (by simp)
  | syncFromServer tasks =>
    cases h
    exact fun t ht => hq t (subset_foldl_pushUnlessKnown _ _ ht)
  | _ => trivial

end

/-! ### Runs -/

section
variable [SerdeJson] [AuthDeps] [ChronoDeps] {q q' : LocalQueue} {s : State} {x : Event} {xs : List Event}

/-- The task is as it was, or with the progress that the decimal text of its progress stands for. -/
def SameUpToRounding (t t' : LocalTask) : Prop :=
  t' = t ∨ ∃ x, SerdeJson.toF64 (SerdeJson.ofF64 t.progress) = some x ∧ t' = { t with progress := x }

/-- Opening the directory again succeeds, and gives the same tasks in the same order. -/
def State.Reloads (s : State) : Prop :=
  ∀ deviceId teamId, ∃ q, LocalQueue.new deviceId teamId .done s.file = .ok q ∧
    List.Forall₂ SameUpToRounding s.queue.tasks q.tasks

/-- The operation returns `Ok`, or the reopening does. -/
def State.Succeeds (s : State) : Event → Prop
  | .call o io => ∃ a, (o.run io s.queue s.file).1 = .ok a
  | .reopen deviceId teamId read => read = .done ∧ ∃ q, LocalQueue.new deviceId teamId read s.file = .ok q

theorem new_done (deviceId teamId : Uuid) (file : Option String) :
    LocalQueue.new deviceId teamId .done file =
      (file.elim (.ok []) Codec.decode).map fun tasks => ⟨tasks, teamId, deviceId⟩ := by
  cases file <;> rfl

theorem tasks_of_new {deviceId teamId : Uuid} {file : Option String}
    (h : LocalQueue.new deviceId teamId .done file = .ok q) : file.elim (.ok []) Codec.decode = .ok q.tasks := by
  rw [new_done] at h
  cases hd : (file.elim (.ok []) Codec.decode : Except String (List LocalTask)) with
  | error e => simp [hd, Except.map] at h
  | ok tasks =>
    simp only [hd, Except.map, Except.ok.injEq] at h
    rw [← h]

/-- What the file holds: the tasks as they were read from it, or the text of the tasks. -/
def State.InFile (s : State) : Prop :=
  s.file.elim (.ok []) Codec.decode = .ok s.queue.tasks ∨
    ∃ json, Codec.encode s.queue.tasks = .ok json ∧ s.file = some json

theorem State.inFile_step (hx : s.Succeeds x) : (s.step x).InFile := by
  cases x with
  | call o io =>
    obtain ⟨a, ha⟩ := hx
    obtain ⟨q', json, -, hencode, hrun⟩ := Op.run_ok ha
    rw [step, hrun]
    exact .inr ⟨json, hencode, rfl⟩
  | reopen deviceId teamId read =>
    obtain ⟨rfl, q, hq⟩ := hx
    rw [step_reopen_ok hq]
    exact .inl (tasks_of_new hq)

/-- What every task that is read from a file has, and every task after the operation, all have after a success. -/
theorem State.forall_step {P : LocalTask → Prop}
    (hread : ∀ {file : Option String} {tasks : List LocalTask}, file.elim (.ok []) Codec.decode = .ok tasks →
      ∀ t ∈ tasks, P t)
    (hx : s.Succeeds x) (hedit : ∀ o io q', x = .call o io → o.edit s.queue = .ok q' → ∀ t ∈ q'.tasks, P t) :
    ∀ t ∈ (s.step x).queue.tasks, P t := by
  cases x with
  | call o io =>
    obtain ⟨a, ha⟩ := hx
    obtain ⟨q', json, he, -, hrun⟩ := Op.run_ok ha
    rw [step, hrun]
    exact hedit o io q' rfl he
  | reopen deviceId teamId read =>
    obtain ⟨rfl, q, hq⟩ := hx
    rw [step_reopen_ok hq]
    exact hread (tasks_of_new hq)

theorem State.inRange_step (hlaw : SerdeJson.Lawful) (hs : ∀ t ∈ s.queue.tasks, t.InRange) (hx : s.Succeeds x)
    (hr : ∀ o io, x = .call o io → o.InRange) : ∀ t ∈ (s.step x).queue.tasks, t.InRange :=
  forall_step (fun h t ht => (LocalTask.of_file hlaw h t ht).1) hx
    fun o io _ hcall he => Op.inRange_edit (hr o io hcall) hs he

theorem State.isFinite_step (hlaw : SerdeJson.Lawful) (hs : ∀ t ∈ s.queue.tasks, IsFinite t.progress)
    (hx : s.Succeeds x) (hf : ∀ o io, x = .call o io → o.StoresFinite) :
    ∀ t ∈ (s.step x).queue.tasks, IsFinite t.progress :=
  forall_step (fun h t ht => (LocalTask.of_file hlaw h t ht).2) hx
    fun o io _ hcall he => Op.isFinite_edit (hf o io hcall) hs he

/-- With the file as it is after a success, the queue can be opened again when every progress is finite. -/
theorem State.reloads_of_finite (hlaw : SerdeJson.Lawful) (htexts : LocalTask.TextsReadBack) (hs : s.InFile)
    (hr : ∀ t ∈ s.queue.tasks, t.InRange) (hf : ∀ t ∈ s.queue.tasks, IsFinite t.progress) : s.Reloads := by
  intro deviceId teamId
  rw [new_done]
  rcases hs with hs | ⟨json, hencode, hfile⟩
  · rw [hs]
    exact ⟨_, rfl, List.forall₂_same.2 fun t _ => .inl rfl⟩
  · have hrounded : ∀ t ∈ s.queue.tasks, ∃ x, SerdeJson.toF64 (SerdeJson.ofF64 t.progress) = some x ∧
        t.rounded = { t with progress := x } := by
      intro t ht
      obtain ⟨x, hx⟩ := hlaw.toF64_ofF64 t.progress (hf t ht)
      exact ⟨x, hx, by rw [LocalTask.rounded, hx, Option.getD_some]⟩
    have hread : Codec.decode json = .ok (s.queue.tasks.map LocalTask.rounded) := by
      refine (Record.decode_iff hlaw hencode).2 (List.forall₂_map_right_iff.2 (List.forall₂_same.2 fun t ht => ?_))
      obtain ⟨o, ho⟩ := Record.serialize_of_encode hencode ht
      exact ⟨o, ho, (LocalTask.rereads_iff hlaw htexts (hr t ht) ho).2 ⟨hf t ht, hrounded t ht⟩⟩
    rw [hfile, Option.elim_some, hread]
    exact ⟨_, rfl, List.forall₂_map_right_iff.2 (List.forall₂_same.2 fun t ht => .inr (hrounded t ht))⟩

theorem State.finite_of_reloads (hlaw : SerdeJson.Lawful) (htexts : LocalTask.TextsReadBack) {json : String}
    (hencode : Codec.encode s.queue.tasks = .ok json) (hfile : s.file = some json) (hr : ∀ t ∈ s.queue.tasks, t.InRange)
    (h : s.Reloads) : ∀ t ∈ s.queue.tasks, IsFinite t.progress := by
  intro t ht
  obtain ⟨q, hq, -⟩ := h s.queue.deviceId s.queue.teamId
  have hread := tasks_of_new hq
  rw [hfile, Option.elim_some, Record.decode_iff hlaw hencode] at hread
  obtain ⟨t', o, ho, ht'⟩ := exists_of_forall₂ hread ht
  exact ((LocalTask.rereads_iff hlaw htexts (hr t ht) ho).1 ht').1

variable {deviceId teamId : Uuid} {file : Option String}

/-- What the induction over a run carries, whatever progress is stored. -/
theorem State.after_inFile (hlaw : SerdeJson.Lawful) (hopen : LocalQueue.new deviceId teamId .done file = .ok q)
    (hok : ∀ before x after, xs = before ++ x :: after → ((State.mk q file).after before).Succeeds x)
    (hr : ∀ o io, .call o io ∈ xs → o.InRange) :
    ∀ before after, xs = before ++ after → ((State.mk q file).after before).InFile ∧
      ∀ t ∈ ((State.mk q file).after before).queue.tasks, t.InRange := by
  refine prefix_induction (P := fun before => ((State.mk q file).after before).InFile ∧
    ∀ t ∈ ((State.mk q file).after before).queue.tasks, t.InRange) ?_ ?_
  · exact ⟨.inl (tasks_of_new hopen), fun t ht => (LocalTask.of_file hlaw (tasks_of_new hopen) t ht).1⟩
  · intro before x after he ih
    have hx := hok before x after he
    rw [after_concat]
    exact ⟨inFile_step hx, inRange_step hlaw ih.2 hx fun o io hcall => hr o io (by simp [he, hcall])⟩

theorem State.after_isFinite (hlaw : SerdeJson.Lawful) (hopen : LocalQueue.new deviceId teamId .done file = .ok q)
    (hok : ∀ before x after, xs = before ++ x :: after → ((State.mk q file).after before).Succeeds x)
    (hf : ∀ o io, .call o io ∈ xs → o.StoresFinite) :
    ∀ before after, xs = before ++ after → ∀ t ∈ ((State.mk q file).after before).queue.tasks, IsFinite t.progress := by
  refine prefix_induction
    (P := fun before => ∀ t ∈ ((State.mk q file).after before).queue.tasks, IsFinite t.progress) ?_ ?_
  · exact fun t ht => (LocalTask.of_file hlaw (tasks_of_new hopen) t ht).2
  · intro before x after he ih
    rw [after_concat]
    exact isFinite_step hlaw ih (hok before x after he) fun o io hcall => hf o io (by simp [he, hcall])

/-- After every moment of a run of successes the queue can be opened again with the same tasks, exactly when no
operation stores a progress that is not finite. -/
theorem reloads_iff (hlaw : SerdeJson.Lawful) (htexts : LocalTask.TextsReadBack)
    (hopen : LocalQueue.new deviceId teamId .done file = .ok q) (xs : List Event)
    (hok : ∀ before x after, xs = before ++ x :: after → ((State.mk q file).after before).Succeeds x)
    (hr : ∀ o io, .call o io ∈ xs → o.InRange) :
    (∀ before after, xs = before ++ after → ((State.mk q file).after before).Reloads) ↔
      ∀ o io, .call o io ∈ xs → o.StoresFinite := by
  have hstate := State.after_inFile hlaw hopen hok hr
  constructor
  · intro h o io hmem
    obtain ⟨before, after, rfl⟩ := List.append_of_mem hmem
    obtain ⟨a, ha⟩ := hok before _ after rfl
    obtain ⟨q', json, hedit, hencode, hrun⟩ := Op.run_ok ha
    have hnext : (State.mk q file).after (before ++ [.call o io]) = ⟨q', some json⟩ := by
      rw [State.after_concat, State.step, hrun]
    have hsplit : before ++ .call o io :: after = (before ++ [.call o io]) ++ after := by simp
    have hreloads := h _ _ hsplit
    have hrange := (hstate _ _ hsplit).2
    rw [hnext] at hreloads hrange
    exact Op.storesFinite_of_edit hedit (State.finite_of_reloads hlaw htexts hencode rfl hrange hreloads)
  · intro hf before after he
    obtain ⟨hfile, hrange⟩ := hstate before after he
    exact State.reloads_of_finite hlaw htexts hfile hrange (State.after_isFinite hlaw hopen hok hf before after he)

end

end LocalQueue

namespace Sample
open LocalQueue

scoped instance encodableString : Encodable String :=
  .ofLeftInverse (fun s => s.toList.map Char.toNat) (fun l => .ofList (l.map Char.ofNat)) fun s => by
    simp [Function.comp_def]

/-- The texts of a table, and of any other value a row of ones. -/
def tableText {α : Type} [Encodable α] [DecidableEq α] (table : List (α × String)) (a : α) : String :=
  match table.find? fun e => e.1 = a with
  | some e => e.2
  | none => .ofList (.replicate (Encodable.encode a) '1')

def tableParse {α : Type} [Encodable α] (table : List (α × String)) (text : String) : Option α :=
  match table.find? fun e => e.2 = text with
  | some e => some e.1
  | none => Encodable.decode text.length

theorem tableParse_tableText {α : Type} [Encodable α] [DecidableEq α] {table : List (α × String)}
    (hdistinct : ∀ e ∈ table, table.find? (fun f => f.2 = e.2) = some e)
    (hones : ∀ e ∈ table, ∃ c ∈ e.2.toList, c ≠ '1') (a : α) : tableParse table (tableText table a) = some a := by
  unfold tableText tableParse
  cases h : table.find? fun e => e.1 = a with
  | some e =>
    have he := List.find?_some h
    simp only [hdistinct e (List.mem_of_find?_eq_some h), Option.some.injEq]
    simpa using he
  | none =>
    have hnone : table.find? (fun e => e.2 = String.ofList (.replicate (Encodable.encode a) '1')) = none := by
      refine List.find?_eq_none.2 fun e he heq => ?_
      obtain ⟨c, hc, hne⟩ := hones e he
      rw [of_decide_eq_true heq, String.toList_ofList] at hc
      exact hne (List.eq_of_mem_replicate hc)
    simp only [hnone, String.length_ofList, List.length_replicate, Encodable.encodek]

def scalarCode : Scalar (ℕ ⊕ ℕ) → Option ((ℕ ⊕ ℕ) ⊕ String)
  | .null => none
  | .number n => some (.inl n)
  | .string s => some (.inr s)

def ofScalarCode : Option ((ℕ ⊕ ℕ) ⊕ String) → Scalar (ℕ ⊕ ℕ)
  | none => .null
  | some (.inl n) => .number n
  | some (.inr s) => .string s

scoped instance encodableScalar : Encodable (Scalar (ℕ ⊕ ℕ)) :=
  .ofLeftInverse scalarCode ofScalarCode fun s => by cases s <;> rfl

scoped instance chrono : ChronoDeps where
  toRfc3339 := tableText [(0, "1970-01-01T00:00:00Z")]
  parseFromRfc3339 := tableParse [(0, "1970-01-01T00:00:00Z")]

/-- The object of a new task with some progress, whose number is its bits. -/
def newTaskObject (progress : Scalar (ℕ ⊕ ℕ)) : Object (ℕ ⊕ ℕ) := [
  ("id", .string "00000000-0000-0000-0000-000000000007"), ("team_id", .string "00000000-0000-0000-0000-00000000000a"),
  ("url", .string "u"), ("status", .string "New"), ("claimed_by", .null), ("claimed_at", .null), ("progress", progress),
  ("local_path", .null), ("file_size", .null), ("created_by", .string "00000000-0000-0000-0000-000000000001"),
  ("created_at", .string "1970-01-01T00:00:00Z"), ("version", .number (.inr 1))]

def newTaskText (progress : String) : String :=
  "[" ++ "\n  \x7b\n    \"id\": \"00000000-0000-0000-0000-000000000007\",\n" ++
  "    \"team_id\": \"00000000-0000-0000-0000-00000000000a\",\n    \"url\": \"u\",\n    \"status\": \"New\",\n" ++
  "    \"claimed_by\": null,\n    \"claimed_at\": null,\n    \"progress\": " ++ progress ++ ",\n" ++
  "    \"local_path\": null,\n    \"file_size\": null,\n" ++
  "    \"created_by\": \"00000000-0000-0000-0000-000000000001\",\n" ++
  "    \"created_at\": \"1970-01-01T00:00:00Z\",\n    \"version\": 1\n  \x7d\n]"

/-- The bits of 0.5 and of a NaN. -/
def half : F64 := 0x3FE0000000000000

def nan : F64 := 0x7FF8000000000000

def arrayTexts : List (List (Object (ℕ ⊕ ℕ)) × String) := [
  ([newTaskObject (.number (.inl 0))], newTaskText "0.0"),
  ([newTaskObject (.number (.inl half.toNat))], newTaskText "0.5"),
  ([newTaskObject .null], newTaskText "null")]

theorem bracket_mem_newTaskText (progress : String) : '[' ∈ (newTaskText progress).toList := by
  have hfirst : '[' ∈ "[".toList := by decide
  simp only [newTaskText, String.toList_append, List.mem_append, hfirst, true_or]

theorem not_ones_arrayTexts : ∀ e ∈ arrayTexts, ∃ c ∈ e.2.toList, c ≠ '1' := by
  simp only [arrayTexts, List.forall_mem_cons]
  exact ⟨⟨'[', bracket_mem_newTaskText _, by decide⟩, ⟨'[', bracket_mem_newTaskText _, by decide⟩,
    ⟨'[', bracket_mem_newTaskText _, by decide⟩, by simp⟩

scoped instance serdeJson : SerdeJson where
  Number := ℕ ⊕ ℕ
  toStringPretty := tableText arrayTexts
  fromStr text := (tableParse arrayTexts text).elim (.error "expected value at line 1 column 1") .ok
  dataError _ := "invalid type: null, expected f64 at line 9 column 20"
  ofF64 x := .inl x.toNat
  toF64
    | .inl n => if IsFinite (.ofNat 64 n) then some (.ofNat 64 n) else none
    | .inr _ => none
  ofU64 := .inr
  toU64
    | .inl _ => none
    | .inr n => if n < UInt64.size then some n else none

theorem serdeJson_lawful : SerdeJson.Lawful where
  fromStr_toStringPretty objects := by
    show (tableParse arrayTexts (tableText arrayTexts objects)).elim _ _ = _
    rw [tableParse_tableText (by decide +kernel) not_ones_arrayTexts]
    rfl
  toU64_ofU64 n h := if_pos h
  lt_of_toU64 {n m} h := by
    rcases n with n | n
    · cases h
    · have h : (if n < UInt64.size then some n else none) = some m := h
      split at h <;> cases h
      assumption
  toF64_ofF64 x h := by
    refine ⟨x, ?_⟩
    show (if IsFinite (.ofNat 64 x.toNat) then some (.ofNat 64 x.toNat) else none) = some x
    rw [BitVec.ofNat_toNat, BitVec.setWidth_eq, if_pos h]
  isFinite_of_toF64 {n x} h := by
    rcases n with n | n
    · have h : (if IsFinite (.ofNat 64 n) then some (.ofNat 64 n) else none) = some x := h
      split at h <;> cases h
      assumption
    · cases h

theorem textsReadBack : LocalTask.TextsReadBack where
  uuid := parseStr_uuidText
  dateTime := tableParse_tableText (by decide) fun e he => ⟨'Z', by simp [List.mem_singleton.1 he], by decide⟩

/-- A task is added, and its progress set. -/
def progressed (progress : F64) : List LocalQueue.Event :=
  [.call (.addTask "u" 7 0) working, .call (.updateProgress 7 progress) working]

theorem progressed_succeeds (progress : F64) (before : List LocalQueue.Event) (x : LocalQueue.Event)
    (after : List LocalQueue.Event) (h : progressed progress = before ++ x :: after) :
    ((State.fresh 1 10).after before).Succeeds x := by
  rcases before with _ | ⟨a, _ | ⟨b, before⟩⟩
  · cases h
    exact ⟨_, rfl⟩
  · cases h
    exact ⟨_, rfl⟩
  · have := congrArg List.length h
    simp [progressed] at this

theorem reloads_progressed : ((State.fresh 1 10).after (progressed half)).Reloads := by
  have hopen : LocalQueue.new 1 10 .done none = .ok ⟨[], 10, 1⟩ := rfl
  refine (reloads_iff serdeJson_lawful textsReadBack hopen (progressed half) (progressed_succeeds half) ?_).2 ?_ _ []
    (List.append_nil _).symm
  · intro o io h
    simp only [progressed, List.mem_cons, Event.call.injEq, List.not_mem_nil, or_false] at h
    rcases h with ⟨rfl, rfl⟩ | ⟨rfl, rfl⟩ <;> trivial
  · intro o io h
    simp only [progressed, List.mem_cons, Event.call.injEq, List.not_mem_nil, or_false] at h
    rcases h with ⟨rfl, rfl⟩ | ⟨rfl, rfl⟩
    · trivial
    · show IsFinite half
      decide

theorem decode_nullText : (Codec.decode (newTaskText "null") : Except String (List LocalTask)) =
    .error "invalid type: null, expected f64 at line 9 column 20" := by
  have hparse : tableParse arrayTexts (newTaskText "null") = some [newTaskObject .null] := by decide +kernel
  have hfrom : SerdeJson.fromStr (newTaskText "null") = .ok [newTaskObject .null] := by
    show (tableParse arrayTexts (newTaskText "null")).elim _ _ = _
    rw [hparse]
    rfl
  have hnone : [newTaskObject .null].mapM (@Record.deserialize _ LocalTask _) = none := by decide +kernel
  exact Record.decode_of_none hfrom hnone

/-- With a NaN for a progress, both calls succeed and the queue cannot be opened again. -/
theorem not_reloads_progressed : (∀ before x after, progressed nan = before ++ x :: after →
      ((State.fresh 1 10).after before).Succeeds x) ∧
    LocalQueue.new 1 10 .done ((State.fresh 1 10).after (progressed nan)).file =
      .error "invalid type: null, expected f64 at line 9 column 20" := by
  have hfile : ((State.fresh 1 10).after (progressed nan)).file = some (newTaskText "null") := by decide +kernel
  refine ⟨progressed_succeeds nan, ?_⟩
  rw [hfile, new_done, Option.elim_some, decode_nullText]
  rfl

end Sample
end XVideoDownloader
