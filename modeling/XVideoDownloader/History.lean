import XVideoDownloader.LocalQueue

/-!
# Download history and bookmarks (`history.rs`)

As in the queue, every operation changes the lists first and saves them last. `failed_op_unchanged_iff` says for both
when an operation that fails has changed nothing: when it was refused before the change, when there was nothing to
change, and when it was not the save that failed.
-/

namespace XVideoDownloader
open Lib

structure HistoryEntry where
  id : Uuid
  url : String
  title : Option String
  filePath : Option Path
  fileSize : Option Nat
  downloadedAt : Time
  durationSecs : Option F64
  deriving DecidableEq

structure BookmarkEntry where
  id : Uuid
  url : String
  title : Option String
  addedAt : Time
  note : Option String
  deriving DecidableEq

structure History where
  entries : List HistoryEntry
  bookmarks : List BookmarkEntry
  deriving DecidableEq

namespace History

/-- The contents of `history.json` and of `bookmarks.json`. -/
structure Files where
  history : Option String
  bookmarks : Option String

/-- What the file system answers to `save`. -/
structure Io where
  /-- The error of `create_dir_all`. -/
  createDir : Option String
  writeHistory : FileWrite
  writeBookmarks : FileWrite

section
variable [Codec (List HistoryEntry)] [Codec (List BookmarkEntry)]

def save (io : Io) (h : History) (files : Files) : Except String Unit × Files :=
  match io.createDir with
  | some e => (.error e, files)
  | none =>
    match Codec.encode h.entries with
    | .error e => (.error e, files)
    | .ok json =>
      match io.writeHistory.run json with
      | (.error e, file) => (.error e, { files with history := file })
      | (.ok (), file) =>
        match Codec.encode h.bookmarks with
        | .error e => (.error e, { files with history := file })
        | .ok json => ((io.writeBookmarks.run json).1, ⟨file, (io.writeBookmarks.run json).2⟩)

end

inductive Op
  | addEntry (url : String) (title : Option String) (filePath : Option Path) (fileSize : Option Nat)
      (durationSecs : Option F64) (id : Uuid) (now : Time)
  | clear
  | addBookmark (url : String) (title note : Option String) (id : Uuid) (now : Time)

/-- What an operation does before its `save`. -/
def Op.edit : Op → History → Except String History
  | addEntry url title filePath fileSize durationSecs id now, h =>
    .ok { h with entries := ⟨id, url, title, filePath, fileSize, now, durationSecs⟩ :: h.entries }
  | clear, h => .ok { h with entries := [] }
  | addBookmark url title note id now, h =>
    if h.bookmarks.any fun b => b.url = url then .error "URL 已存在"
    else .ok { h with bookmarks := h.bookmarks ++ [⟨id, url, title, now, note⟩] }

/-- The result of an operation, and the history and its files after it. -/
def Op.run [Codec (List HistoryEntry)] [Codec (List BookmarkEntry)] (o : Op) (io : Io) (h : History)
    (files : Files) : Except String Unit × History × Files :=
  commit o.edit (save io) h files

/-- The operation checks, and refuses, before it changes anything. -/
def Op.Refused (h : History) : Op → Prop
  | addBookmark url .. => ∃ b ∈ h.bookmarks, b.url = url
  | _ => False

/-- There is nothing to change. -/
def Op.Idle (h : History) : Op → Prop
  | clear => h.entries = []
  | _ => False

variable {h : History} {o : Op}

theorem Op.edit_error : (∃ e, o.edit h = .error e) ↔ o.Refused h := by
  cases o with
  | addEntry =>
    refine ⟨?_, False.elim⟩
    rintro ⟨e, ⟨⟩⟩
  | clear =>
    refine ⟨?_, False.elim⟩
    rintro ⟨e, ⟨⟩⟩
  | addBookmark url title note id now =>
    show _ ↔ ∃ b ∈ h.bookmarks, b.url = url
    by_cases hd : (h.bookmarks.any fun b => b.url = url) = true
    · rw [edit, if_pos hd]
      exact ⟨fun _ => by simpa using hd, fun _ => ⟨_, rfl⟩⟩
    · rw [edit, if_neg hd]
      refine ⟨?_, fun hd' => absurd (by simpa using hd') hd⟩
      rintro ⟨e, ⟨⟩⟩

theorem Op.edit_idle : o.edit h = .ok h ↔ o.Idle h := by
  cases o with
  | addEntry =>
    refine ⟨fun he => ?_, False.elim⟩
    have := congrArg (fun h => h.entries.length) (Except.ok.inj he)
    simp at this
  | clear =>
    constructor
    · intro he
      exact (congrArg History.entries (Except.ok.inj he)).symm
    · intro he
      have he : h.entries = [] := he
      rw [edit, ← he]
  | addBookmark url title note id now =>
    refine ⟨fun he => ?_, False.elim⟩
    by_cases hd : (h.bookmarks.any fun b => b.url = url) = true
    · rw [edit, if_pos hd] at he
      cases he
    · rw [edit, if_neg hd] at he
      have := congrArg (fun h => h.bookmarks.length) (Except.ok.inj he)
      simp at this

/-- Nothing fails in the save of `h`. -/
def Saves [Codec (List HistoryEntry)] [Codec (List BookmarkEntry)] (io : Io) (h : History) : Prop :=
  io.createDir = none ∧ (∃ json, Codec.encode h.entries = .ok json) ∧ io.writeHistory = .done ∧
    (∃ json, Codec.encode h.bookmarks = .ok json) ∧ io.writeBookmarks = .done

theorem save_eq_ok [Codec (List HistoryEntry)] [Codec (List BookmarkEntry)] (io : Io) (files : Files) :
    (h.save io files).1 = .ok () ↔ h.Saves io := by
  obtain ⟨createDir, writeHistory, writeBookmarks⟩ := io
  cases hc : createDir <;> cases he : Codec.encode h.entries <;> cases hw : writeHistory <;>
    cases hb : Codec.encode h.bookmarks <;> cases hw' : writeBookmarks <;>
    simp [save, Saves, he, hb, FileWrite.run]

end History

/-! ### Failing operations of both -/

namespace LocalQueue
variable {q : LocalQueue} {o : Op}

/-- The operation checks, and refuses, before it changes anything. -/
def Op.Refused (q : LocalQueue) : Op → Prop
  | addTask url .. => ∃ t ∈ q.tasks, t.url = url
  | claimTask taskId _ => ∀ t, q.getTask taskId = some t → t.status ≠ .queued
  | updateProgress taskId _ => q.getTask taskId = none
  | markComplete taskId .. => q.getTask taskId = none
  | updateStatusToQueued taskId => q.getTask taskId = none
  | syncFromServer _ => False

/-- There is nothing to change: what the operation stores is stored already. -/
def Op.Idle (q : LocalQueue) : Op → Prop
  | addTask .. => False
  | claimTask .. => False
  | updateProgress taskId progress => ∃ t, q.getTask taskId = some t ∧ t.progress = progress
  | markComplete taskId localPath fileSize => ∃ t, q.getTask taskId = some t ∧ t.status = .complete ∧
      t.localPath = some localPath ∧ t.fileSize = some fileSize
  | updateStatusToQueued taskId => ∃ t, q.getTask taskId = some t ∧ t.status = .queued
  | syncFromServer tasks => ∃ news, q.tasks = tasks ++ news ∧ Distinct news ∧
      ∀ t ∈ news, t.status = .new ∧ ∀ u ∈ tasks, u.url ≠ t.url

/-- Nothing fails in the save of `q`. -/
def Saves [Codec (List LocalTask)] (io : Io) (q : LocalQueue) : Prop :=
  (∃ json, Codec.encode q.tasks = .ok json) ∧ io.createDir = none ∧ io.write = .done

theorem save_eq_ok [Codec (List LocalTask)] (io : Io) (file : Option String) :
    (q.save io file).1 = .ok () ↔ q.Saves io := by
  obtain ⟨createDir, write⟩ := io
  cases he : Codec.encode q.tasks <;> cases hc : createDir <;> cases hw : write <;>
    simp [save, Saves, he, FileWrite.run]

/-- An edit of one task is refused where there is no such task or the edit of the task is. -/
theorem modifyTask_error {taskId : Uuid} {f : LocalTask → Except String LocalTask} :
    (∃ e, q.modifyTask taskId f = .error e) ↔
      ∀ t, q.getTask taskId = some t → ∃ e, f t = .error e := by
  rcases modifyTask_cases q taskId with ⟨hnone, hf⟩ | ⟨before, task, after, hsome, -, hf⟩
  · rw [hnone, hf]
    refine ⟨?_, fun _ => ⟨_, rfl⟩⟩
    rintro - t ⟨⟩
  · rw [hsome, hf]
    constructor
    · rintro ⟨e, he⟩ t ht
      cases ht
      cases hft : f task with
      | error e' => exact ⟨e', rfl⟩
      | ok task' =>
        rw [hft] at he
        cases he
    · intro h
      obtain ⟨e, he⟩ := h task rfl
      exact ⟨e, by rw [he]; rfl⟩

/-- It changes nothing where the edit of the task changes nothing. -/
theorem modifyTask_idle {taskId : Uuid} {f : LocalTask → Except String LocalTask} :
    q.modifyTask taskId f = .ok q ↔ ∃ t, q.getTask taskId = some t ∧ f t = .ok t := by
  rcases modifyTask_cases q taskId with ⟨hnone, hf⟩ | ⟨before, task, after, hsome, htasks, hf⟩
  · rw [hnone, hf]
    constructor
    · intro h
      cases h
    · rintro ⟨t, h, -⟩
      cases h
  · rw [hsome, hf]
    constructor
    · intro h
      refine ⟨task, rfl, ?_⟩
      cases hft : f task with
      | error e =>
        rw [hft] at h
        cases h
      | ok task' =>
        rw [hft] at h
        have heq := congrArg LocalQueue.tasks (Except.ok.inj h)
        rw [htasks] at heq
        rw [(List.cons.inj (List.append_cancel_left heq)).1]
    · rintro ⟨t, ht, hft⟩
      cases ht
      rw [hft]
      show Except.ok { q with tasks := before ++ task :: after } = Except.ok q
      rw [← htasks]

/-- What the merge adds to the server's tasks: new tasks with URLs of their own. -/
theorem foldl_push_eq_append (tasks news : List LocalTask) :
    ∃ added, news.foldl pushUnlessKnown tasks = tasks ++ added ∧ Distinct added ∧
      ∀ t ∈ added, t ∈ news ∧ ∀ u ∈ tasks, u.url ≠ t.url := by
  induction news generalizing tasks with
  | nil => exact ⟨[], (List.append_nil _).symm, .nil, fun t ht => by cases ht⟩
  | cons task news ih =>
    by_cases hd : (tasks.any fun t => t.url = task.url) = true
    · obtain ⟨added, he, hdist, hadded⟩ := ih tasks
      refine ⟨added, ?_, hdist, fun t ht => ⟨List.mem_cons_of_mem _ (hadded t ht).1, (hadded t ht).2⟩⟩
      rw [List.foldl_cons, pushUnlessKnown, if_pos hd, he]
    · obtain ⟨added, he, hdist, hadded⟩ := ih (tasks ++ [task])
      have hnot : ∀ u ∈ tasks, u.url ≠ task.url := by simpa using hd
      refine ⟨task :: added, ?_, List.pairwise_cons.2 ⟨fun t ht => (hadded t ht).2 task (by simp), hdist⟩, ?_⟩
      · rw [List.foldl_cons, pushUnlessKnown, if_neg hd, he, List.append_assoc]
        rfl
      · intro t ht
        rcases List.mem_cons.1 ht with rfl | ht
        · exact ⟨List.mem_cons_self, hnot⟩
        · exact ⟨List.mem_cons_of_mem _ (hadded t ht).1, fun u hu => (hadded t ht).2 u (by simp [hu])⟩

theorem foldl_push_of_subset {tasks news : List LocalTask} (h : news ⊆ tasks) :
    news.foldl pushUnlessKnown tasks = tasks := by
  induction news with
  | nil => rfl
  | cons task news ih =>
    obtain ⟨htask, hnews⟩ := List.cons_subset.1 h
    rw [List.foldl_cons, pushUnlessKnown, if_pos (by simpa using ⟨task, htask, rfl⟩), ih hnews]

theorem foldl_push_of_distinct {tasks news : List LocalTask} (hd : Distinct news)
    (h : ∀ t ∈ news, ∀ u ∈ tasks, u.url ≠ t.url) :
    news.foldl pushUnlessKnown tasks = tasks ++ news := by
  induction news generalizing tasks with
  | nil => exact (List.append_nil _).symm
  | cons task news ih =>
    obtain ⟨htask, hd⟩ := List.pairwise_cons.1 hd
    rw [List.foldl_cons, pushUnlessKnown, if_neg (by simpa using h task List.mem_cons_self), ih hd, List.append_assoc]
    · rfl
    · intro t ht u hu
      rcases List.mem_append.1 hu with hu | hu
      · exact h t (List.mem_cons_of_mem _ ht) u hu
      · rw [List.mem_singleton.1 hu]
        exact htask t ht

theorem merge_idle {tasks current : List LocalTask} :
    merge tasks current = current ↔ ∃ news, current = tasks ++ news ∧ Distinct news ∧
      ∀ t ∈ news, t.status = .new ∧ ∀ u ∈ tasks, u.url ≠ t.url := by
  constructor
  · intro h
    obtain ⟨news, he, hd, hnews⟩ := foldl_push_eq_append tasks (current.filter fun t => t.status = .new)
    refine ⟨news, h.symm.trans he, hd, fun t ht => ⟨?_, (hnews t ht).2⟩⟩
    simpa using (List.mem_filter.1 (hnews t ht).1).2
  · rintro ⟨news, rfl, hd, hnews⟩
    have hfilter : news.filter (fun t => t.status = .new) = news :=
      List.filter_eq_self.2 fun t ht => decide_eq_true (hnews t ht).1
    rw [merge, List.filter_append, List.foldl_append, hfilter, foldl_push_of_subset List.filter_sublist.subset,
      foldl_push_of_distinct hd fun t ht => (hnews t ht).2]

theorem Op.edit_error : (∃ e, o.edit q = .error e) ↔ o.Refused q := by
  cases o with
  | addTask url id now =>
    show _ ↔ ∃ t ∈ q.tasks, t.url = url
    by_cases hd : (q.tasks.any fun t => t.url = url) = true
    · rw [edit, pushTask, LocalTask.new, if_pos hd]
      exact ⟨fun _ => by simpa using hd, fun _ => ⟨_, rfl⟩⟩
    · rw [edit, pushTask, LocalTask.new, if_neg hd]
      refine ⟨?_, fun hd' => absurd (by simpa using hd') hd⟩
      rintro ⟨e, ⟨⟩⟩
  | claimTask taskId now =>
    refine modifyTask_error.trans (forall₂_congr fun t _ => ?_)
    by_cases hs : t.status = .queued <;> simp [hs]
  | updateProgress | markComplete | updateStatusToQueued =>
    refine modifyTask_error.trans ?_
    simp [Refused, Option.eq_none_iff_forall_ne_some]
  | syncFromServer =>
    refine ⟨?_, False.elim⟩
    rintro ⟨e, ⟨⟩⟩

theorem Op.edit_idle : o.edit q = .ok q ↔ o.Idle q := by
  cases o with
  | addTask url id now =>
    refine ⟨fun he => ?_, False.elim⟩
    by_cases hd : (q.tasks.any fun t => t.url = url) = true
    · rw [edit, pushTask, LocalTask.new, if_pos hd] at he
      cases he
    · rw [edit, pushTask, LocalTask.new, if_neg hd] at he
      have := congrArg (fun q => q.tasks.length) (Except.ok.inj he)
      simp at this
  | claimTask taskId now =>
    refine ⟨fun he => ?_, False.elim⟩
    obtain ⟨t, -, ht⟩ := modifyTask_idle.1 he
    by_cases hs : t.status = .queued
    · rw [if_neg (by simpa using hs)] at ht
      have := congrArg LocalTask.status (Except.ok.inj ht)
      rw [hs] at this
      cases this
    · rw [if_pos hs] at ht
      cases ht
  | updateProgress taskId progress =>
    refine modifyTask_idle.trans (exists_congr fun t => and_congr_right fun _ => ?_)
    cases t
    simp [eq_comm]
  | markComplete taskId localPath fileSize =>
    refine modifyTask_idle.trans (exists_congr fun t => and_congr_right fun _ => ?_)
    cases t
    simp [eq_comm]
  | updateStatusToQueued taskId =>
    refine modifyTask_idle.trans (exists_congr fun t => and_congr_right fun _ => ?_)
    cases t
    simp [eq_comm]
  | syncFromServer tasks =>
    refine Iff.trans ?_ merge_idle
    constructor
    · intro h
      exact congrArg LocalQueue.tasks (Except.ok.inj h)
    · intro h
      show Except.ok { q with tasks := merge tasks q.tasks } = Except.ok q
      rw [h]

end LocalQueue

/-- An operation of a queue or of a history that fails has changed nothing in memory exactly if it is refused by its
own check, or there is nothing to change, or nothing fails in its save. -/
theorem failed_op_unchanged_iff [Codec (List LocalTask)] [Codec (List HistoryEntry)] [Codec (List BookmarkEntry)] :
    (∀ (o : LocalQueue.Op) (io : LocalQueue.Io) (q : LocalQueue) (file : Option String),
      LeavesNoTrace q (o.run io q file) ↔
        o.Refused q ∨ o.Idle q ∨ ∀ q', o.edit q = .ok q' → q'.Saves io) ∧
    ∀ (o : History.Op) (io : History.Io) (h : History) (files : History.Files),
      LeavesNoTrace h (o.run io h files) ↔
        o.Refused h ∨ o.Idle h ∨ ∀ h', o.edit h = .ok h' → h'.Saves io := by
  constructor
  · intro o io q file
    rw [← LocalQueue.Op.edit_error, ← LocalQueue.Op.edit_idle]
    simp only [← LocalQueue.save_eq_ok io file]
    exact leavesNoTrace_map.trans leavesNoTrace_commit
  · intro o io h files
    rw [← History.Op.edit_error, ← History.Op.edit_idle]
    simp only [← History.save_eq_ok io files]
    exact leavesNoTrace_commit

namespace Sample
open LocalQueue

/-- On a full disk `add_task` fails and keeps its task, so that the next try is refused as a duplicate. -/
theorem failed_add_kept :
    ((Op.addTask "u" 7 0).run full ⟨[], 10, 1⟩ none).1 = .error "No space left on device (os error 28)" ∧
      ¬ LeavesNoTrace ⟨[], 10, 1⟩ ((Op.addTask "u" 7 0).run full ⟨[], 10, 1⟩ none) ∧
      ((Op.addTask "u" 8 5).run working ((Op.addTask "u" 7 0).run full ⟨[], 10, 1⟩ none).2.1
        (some "")).1 = .error "URL 已存在" := by
  refine ⟨rfl, ?_, rfl⟩
  intro h
  have htasks := congrArg LocalQueue.tasks (h ⟨_, rfl⟩)
  cases htasks

end Sample

end XVideoDownloader
