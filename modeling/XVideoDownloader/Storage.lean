import XVideoDownloader.Tasks

/-!
# The columns of `tasks` (`server/db.rs`)

Below the rows of `Database` lie the columns: two writers encode a `Task` into SQLite values, and three readers,
which contain the same closure three times, decode it again. `Represents` says that the table holds the encodings
of a list of tasks; the writers keep it and the readers then select from that list, so that the tables of
`Database` are what reading gives. SQLite stores a value as it is bound.
-/

namespace XVideoDownloader
open Lib

/-- The text of the packages `uuid` and `chrono`. -/
class ColumnText where
  /-- `Uuid`'s `Display`. -/
  uuidText : Uuid → String
  /-- `Uuid::parse_str`. -/
  parseStr : String → Option Uuid
  toRfc3339 : Time → String
  parseFromRfc3339 : String → Option Time

namespace Storage
open ColumnText

inductive Value
  | null
  | integer (i : Int)
  | real (x : Rat)
  | text (s : String)
  deriving DecidableEq

inductive Column
  | id
  | teamId
  | url
  | status
  | claimedBy
  | claimedAt
  | progress
  | localPath
  | fileSize
  | createdBy
  | createdAt
  | version
  deriving DecidableEq

abbrev Row := Column → Value

/-- `id TEXT PRIMARY KEY`, `url TEXT NOT NULL UNIQUE`. -/
abbrev Row.Clash (a b : Row) : Prop := a .id = b .id ∨ a .url = b .url

abbrev TaskTable := Table Row Row.Clash

/-! ### Values -/

/-- `as i64` of a `u64`. -/
def asI64 (n : Nat) : Int := (BitVec.ofNat 64 n).toInt

/-- `as u64` of an `i64`. -/
def asU64 (i : Int) : Nat := (BitVec.ofInt 64 i).toNat

theorem asU64_asI64 {n : Nat} (h : n < UInt64.size) : asU64 (asI64 n) = n := by
  rw [asU64, asI64, BitVec.ofInt_toInt, BitVec.toNat_ofNat, Nat.mod_eq_of_lt h]

/-- `format!("{:?}", status)`. -/
def debugStatus : TaskStatus → String
  | .new => "New"
  | .queued => "Queued"
  | .claimed => "Claimed"
  | .complete => "Complete"
  | .failed => "Failed"

def parseStatus (s : String) : TaskStatus :=
  if s = "New" then .new
  else if s = "Queued" then .queued
  else if s = "Claimed" then .claimed
  else if s = "Complete" then .complete
  else if s = "Failed" then .failed
  else .new

@[simp] theorem parseStatus_debugStatus (status : TaskStatus) : parseStatus (debugStatus status) = status := by
  cases status <;> rfl

theorem debugStatus_eq_claimed {status : TaskStatus} : debugStatus status = "Claimed" ↔ status = .claimed := by
  cases status <;> decide

/-- An optional parameter: `None` is bound as `NULL`. -/
def bind {α : Type} (f : α → Value) : Option α → Value
  | some a => f a
  | none => .null

/-! ### Writers -/

section
variable [ColumnText]

/-- The columns of the `INSERT` and what is bound to `?1` to `?12`. -/
def insertColumns : List Column :=
  [.id, .teamId, .url, .status, .claimedBy, .claimedAt, .progress, .localPath, .fileSize, .createdBy, .createdAt,
    .version]

def insertParams (task : Task) (teamId : Uuid) : List Value :=
  [.text (uuidText task.id), .text (uuidText teamId), .text task.url, .text (debugStatus task.status),
    bind (fun id => .text (uuidText id)) task.claimedBy, bind (fun t => .text (toRfc3339 t)) task.claimedAt,
    .real task.progress, bind .text task.localPath, bind (fun n => .integer (asI64 n)) task.fileSize,
    .text (uuidText task.createdBy), .text (toRfc3339 task.createdAt), .integer (asI64 task.version)]

/-- The `SET` clause of the `UPDATE` and what is bound to `?1` to `?7`. -/
def updateColumns : List Column :=
  [.status, .claimedBy, .claimedAt, .progress, .localPath, .fileSize, .version]

def updateParams (task : Task) : List Value :=
  [.text (debugStatus task.status), bind (fun id => .text (uuidText id)) task.claimedBy,
    bind (fun t => .text (toRfc3339 t)) task.claimedAt, .real task.progress, bind .text task.localPath,
    bind (fun n => .integer (asI64 n)) task.fileSize, .integer (asI64 task.version)]

/-- The row after an assignment of `params` to `columns`. -/
def assign (columns : List Column) (params : List Value) (row : Row) : Row := fun c =>
  match (columns.zip params).find? fun x => x.1 = c with
  | some x => x.2
  | none => row c

/-- `create_task`: of the task's team only the argument is stored. `fail` is any other error of SQLite, and of
the `FOREIGN KEY` clause. -/
def createTask (fail : Option String) (t : TaskTable) (task : Task) (teamId : Uuid) : Except String Unit × TaskTable :=
  match fail with
  | some e => (.error e, t)
  | none =>
    match t.insert (assign insertColumns (insertParams task teamId) fun _ => .null) with
    | some t => (.ok (), t)
    | none => (.error "URL already exists", t)

theorem keepsKey_update (task : Task) : Table.KeepsKey Row.Clash (assign updateColumns (updateParams task)) :=
  fun _ _ => ⟨Iff.rfl, Iff.rfl⟩

/-- `UPDATE tasks SET … WHERE id = ?8`. -/
def updateTask (fail : Option String) (t : TaskTable) (task : Task) (_teamId : Uuid) : Except String Unit × TaskTable :=
  match fail with
  | some e => (.error e, t)
  | none =>
    (.ok (), t.modify (fun row => row .id = .text (uuidText task.id)) (assign updateColumns (updateParams task))
      (keepsKey_update task))

end

/-! ### Readers -/

def invalidColumnType (i : Nat) : String := "Invalid column type at index: " ++ toString i

/-- `row.get::<_, String>(i)`. -/
def getText (cols : List Value) (i : Nat) : Except String String :=
  match cols[i]? with
  | some (.text s) => .ok s
  | _ => .error (invalidColumnType i)

/-- `row.get::<_, i64>(i)`. -/
def getInteger (cols : List Value) (i : Nat) : Except String Int :=
  match cols[i]? with
  | some (.integer n) => .ok n
  | _ => .error (invalidColumnType i)

/-- `row.get::<_, f64>(i)`. -/
def getReal (cols : List Value) (i : Nat) : Except String Rat :=
  match cols[i]? with
  | some (.real x) => .ok x
  | some (.integer n) => .ok n
  | _ => .error (invalidColumnType i)

/-- `row.get::<_, Option<_>>(i)`. -/
def getOption {α : Type} (get : List Value → Nat → Except String α) (cols : List Value) (i : Nat) :
    Except String (Option α) :=
  match cols[i]? with
  | some .null => .ok none
  | _ => (get cols i).map some

section
variable [ColumnText]

def getUuid (cols : List Value) (i : Nat) : Except String Uuid :=
  match getText cols i with
  | .error e => .error e
  | .ok s =>
    match parseStr s with
    | some id => .ok id
    | none => .error "Invalid UUID in database"

/-- The code panics where the text is no timestamp. -/
def getTime (cols : List Value) (i : Nat) : Except String Time :=
  match getText cols i with
  | .error e => .error e
  | .ok s =>
    match parseFromRfc3339 s with
    | some t => .ok t
    | none => .error "unwrap of an Err value"

def getU64 (cols : List Value) (i : Nat) : Except String Nat := (getInteger cols i).map asU64

/-- The columns of each `SELECT`. -/
def selectColumns : List Column :=
  [.id, .teamId, .url, .status, .claimedBy, .claimedAt, .progress, .localPath, .fileSize, .createdBy, .createdAt,
    .version]

/-- The closure of `query_map`, the same in all three readers. -/
def readTask (cols : List Value) : Except String Task := do
  let status ← getText cols 3
  let id ← getUuid cols 0
  let teamId ← getUuid cols 1
  let url ← getText cols 2
  let claimedBy ← getOption getUuid cols 4
  let claimedAt ← getOption getTime cols 5
  let progress ← getReal cols 6
  let localPath ← getOption getText cols 7
  let fileSize ← getOption getU64 cols 8
  let createdBy ← getUuid cols 9
  let createdAt ← getTime cols 10
  let version ← getU64 cols 11
  return ⟨id, teamId, url, parseStatus status, claimedBy, claimedAt, progress, localPath, fileSize, createdBy,
    createdAt, version⟩

def select (t : TaskTable) (p : Row → Prop) [DecidablePred p] : Except String (List Task) :=
  (t.rows.filter fun row => p row).mapM fun row => readTask (selectColumns.map row)

def getTasksByTeam (t : TaskTable) (teamId : Uuid) : Except String (List Task) :=
  select t fun row => row .teamId = .text (uuidText teamId)

def getTasksByDevice (t : TaskTable) (deviceId : Uuid) : Except String (List Task) :=
  select t fun row => row .claimedBy = .text (uuidText deviceId)

def getClaimedTasks (t : TaskTable) (teamId : Uuid) : Except String (List Task) :=
  select t fun row => row .teamId = .text (uuidText teamId) ∧ row .status = .text "Claimed"

/-! ### The round trip -/

/-- The timestamps from the year 0 to the year 9999. -/
def InYears (t : Time) : Prop := -62167219200000000000 ≤ t ∧ t < 253402300800000000000

instance (t : Time) : Decidable (InYears t) := inferInstanceAs (Decidable (_ ∧ _))

/-- `uuid` and `chrono` read back what they write. -/
structure TextRoundTrip : Prop where
  uuid : ∀ id, parseStr (uuidText id) = some id
  time : ∀ t, InYears t → parseFromRfc3339 (toRfc3339 t) = some t

/-- The sizes and versions are `u64`, and the timestamps have years of four digits. -/
structure Storable (task : Task) : Prop where
  claimedAt : ∀ t, task.claimedAt = some t → InYears t
  createdAt : InYears task.createdAt
  fileSize : ∀ n, task.fileSize = some n → n < UInt64.size
  version : task.version < UInt64.size

def taskRow (task : Task) : Row := assign insertColumns (insertParams task task.teamId) fun _ => .null

variable {t t' : TaskTable} {task old : Task} {tasks : List Task} {teamId : Uuid}

theorem uuidText_inj (h : ∀ id, parseStr (uuidText id) = some id) {a b : Uuid} : uuidText a = uuidText b ↔ a = b := by
  refine ⟨fun he => ?_, congrArg uuidText⟩
  have hparse := congrArg parseStr he
  rwa [h, h, Option.some.injEq] at hparse

theorem TextRoundTrip.uuidText_inj (h : TextRoundTrip) {a b : Uuid} : uuidText a = uuidText b ↔ a = b :=
  Storage.uuidText_inj h.uuid

theorem selectColumns_taskRow (task : Task) : selectColumns.map (taskRow task) = insertParams task task.teamId := rfl

theorem assign_taskRow (r task : Task) :
    assign updateColumns (updateParams task) (taskRow r) = taskRow (r.overwrite task) := by
  funext c
  cases c <;> rfl

theorem getUuid_of_text (hrt : TextRoundTrip) {cols : List Value} {i : Nat} {id : Uuid}
    (h : cols[i]? = some (.text (uuidText id))) : getUuid cols i = .ok id := by
  simp only [getUuid, getText, h, hrt.uuid]

theorem getTime_of_text (hrt : TextRoundTrip) {cols : List Value} {i : Nat} {t : Time} (ht : InYears t)
    (h : cols[i]? = some (.text (toRfc3339 t))) : getTime cols i = .ok t := by
  simp only [getTime, getText, h, hrt.time t ht]

omit [ColumnText] in
theorem getU64_of_integer {cols : List Value} {i n : Nat} (hn : n < UInt64.size)
    (h : cols[i]? = some (.integer (asI64 n))) : getU64 cols i = .ok n := by
  simp only [getU64, getInteger, h, Except.map, asU64_asI64 hn]

omit [ColumnText] in
/-- An optional column is read back where its values are. -/
theorem getOption_bind {α : Type} {f : α → Value} {get : List Value → Nat → Except String α} {cols : List Value}
    {i : Nat} {o : Option α} (h : cols[i]? = some (bind f o)) (hf : ∀ a, f a ≠ .null)
    (hget : ∀ a, o = some a → cols[i]? = some (f a) → get cols i = .ok a) : getOption get cols i = .ok o := by
  cases o with
  | none => simp only [getOption, h, bind]
  | some a =>
    have h : cols[i]? = some (f a) := h
    have hget := hget a rfl h
    unfold getOption
    split
    · rename_i hnull
      rw [h] at hnull
      exact absurd (Option.some.inj hnull) (hf a)
    · rw [hget]
      rfl

/-- What the writers encode, the readers decode. -/
theorem readTask_taskRow (hrt : TextRoundTrip) (hs : Storable task) :
    readTask (selectColumns.map (taskRow task)) = .ok task := by
  rw [selectColumns_taskRow]
  have hid : getUuid (insertParams task task.teamId) 0 = .ok task.id := getUuid_of_text hrt rfl
  have hteam : getUuid (insertParams task task.teamId) 1 = .ok task.teamId := getUuid_of_text hrt rfl
  have hurl : getText (insertParams task task.teamId) 2 = .ok task.url := rfl
  have hstatus : getText (insertParams task task.teamId) 3 = .ok (debugStatus task.status) := rfl
  have hclaimedBy : getOption getUuid (insertParams task task.teamId) 4 = .ok task.claimedBy :=
    getOption_bind rfl (fun _ => by simp) fun _ _ h => getUuid_of_text hrt h
  have hclaimedAt : getOption getTime (insertParams task task.teamId) 5 = .ok task.claimedAt :=
    getOption_bind rfl (fun _ => by simp) fun t ht h => getTime_of_text hrt (hs.claimedAt t ht) h
  have hprogress : getReal (insertParams task task.teamId) 6 = .ok task.progress := rfl
  have hlocalPath : getOption getText (insertParams task task.teamId) 7 = .ok task.localPath :=
    getOption_bind rfl (fun _ => by simp) fun _ _ h => by simp only [getText, h]
  have hfileSize : getOption getU64 (insertParams task task.teamId) 8 = .ok task.fileSize :=
    getOption_bind rfl (fun _ => by simp) fun n hn h => getU64_of_integer (hs.fileSize n hn) h
  have hcreatedBy : getUuid (insertParams task task.teamId) 9 = .ok task.createdBy := getUuid_of_text hrt rfl
  have hcreatedAt : getTime (insertParams task task.teamId) 10 = .ok task.createdAt :=
    getTime_of_text hrt hs.createdAt rfl
  have hversion : getU64 (insertParams task task.teamId) 11 = .ok task.version := getU64_of_integer hs.version rfl
  simp only [readTask, hid, hteam, hurl, hstatus, hclaimedBy, hclaimedAt, hprogress, hlocalPath, hfileSize, hcreatedBy,
    hcreatedAt, hversion, Bind.bind, Except.bind, parseStatus_debugStatus]
  rfl

/-! ### What the table holds -/

/-- The rows of `t` are the encodings of `tasks`. -/
structure Represents (t : TaskTable) (tasks : List Task) : Prop where
  rows : t.rows = tasks.map taskRow
  storable : ∀ task ∈ tasks, Storable task

omit [ColumnText] in
theorem Storable.overwrite (ho : Storable old) (hs : Storable task) : Storable (old.overwrite task) :=
  ⟨hs.claimedAt, ho.createdAt, hs.fileSize, hs.version⟩

namespace Represents

theorem empty : Represents .empty [] := ⟨rfl, fun _ h => by cases h⟩

theorem createTask {fail : Option String} (h : Represents t tasks) (hs : Storable task)
    (hok : createTask fail t task teamId = (.ok (), t')) :
    Represents t' (tasks ++ [{ task with teamId := teamId }]) := by
  unfold Storage.createTask at hok
  split at hok
  · cases hok
  · split at hok
    · rename_i t'' hins
      cases hok
      refine ⟨?_, ?_⟩
      · rw [(Table.insert_eq_some.1 hins).2, h.rows, List.map_append]
        rfl
      · intro task' htask'
        rcases List.mem_append.1 htask' with ht | ht
        · exact h.storable task' ht
        · rw [List.mem_singleton.1 ht]
          exact ⟨hs.claimedAt, hs.createdAt, hs.fileSize, hs.version⟩
    · cases hok

theorem updateTask {fail : Option String} (hrt : TextRoundTrip) (h : Represents t tasks) (hs : Storable task)
    (hok : updateTask fail t task teamId = (.ok (), t')) :
    Represents t' (tasks.map fun r => if r.id = task.id then r.overwrite task else r) := by
  unfold Storage.updateTask at hok
  split at hok
  · cases hok
  · cases hok
    refine ⟨?_, ?_⟩
    · rw [Table.rows_modify, h.rows, List.map_map, List.map_map]
      refine List.map_congr_left fun r _ => ?_
      have hid : taskRow r .id = .text (uuidText task.id) ↔ r.id = task.id :=
        Value.text.injEq .. ▸ hrt.uuidText_inj
      by_cases he : r.id = task.id
      · simp only [Function.comp_apply, if_pos he, if_pos (hid.2 he), assign_taskRow]
      · simp only [Function.comp_apply, if_neg he, if_neg (mt hid.1 he)]
    · intro r' hr'
      obtain ⟨r, hr, rfl⟩ := List.mem_map.1 hr'
      split
      · exact (h.storable r hr).overwrite hs
      · exact h.storable r hr

/-- A `SELECT` gives the tasks that its `WHERE` clause selects. -/
theorem select (hrt : TextRoundTrip) (h : Represents t tasks) {p : Row → Prop} [DecidablePred p] {q : Task → Prop}
    [DecidablePred q] (hpq : ∀ task, p (taskRow task) ↔ q task) :
    select t p = .ok (tasks.filter fun task => q task) := by
  have hread : ∀ l : List Task, (∀ task ∈ l, Storable task) →
      (l.map taskRow).mapM (fun row => readTask (selectColumns.map row)) = .ok l := by
    intro l hl
    induction l with
    | nil => rfl
    | cons task l ih =>
      rw [List.map_cons, List.mapM_cons, readTask_taskRow hrt (hl task List.mem_cons_self),
        ih fun task' ht => hl task' (List.mem_cons_of_mem _ ht)]
      rfl
  have hfilter : (tasks.map taskRow).filter (fun row => p row) = (tasks.filter fun task => q task).map taskRow := by
    rw [List.filter_map]
    exact congrArg _ (List.filter_congr fun task _ => decide_eq_decide.2 (hpq task))
  rw [Storage.select, h.rows, hfilter]
  exact hread _ fun task ht => h.storable task (List.mem_filter.1 ht).1

theorem getTasksByTeam (hrt : TextRoundTrip) (h : Represents t tasks) (teamId : Uuid) :
    getTasksByTeam t teamId = .ok (tasks.filter fun task => task.teamId = teamId) :=
  h.select hrt fun _ => Value.text.injEq .. ▸ hrt.uuidText_inj

theorem getTasksByDevice (hrt : TextRoundTrip) (h : Represents t tasks) (deviceId : Uuid) :
    getTasksByDevice t deviceId = .ok (tasks.filter fun task => task.claimedBy = some deviceId) := by
  refine h.select hrt fun task => ?_
  show bind (fun id => .text (uuidText id)) task.claimedBy = .text (uuidText deviceId) ↔ _
  cases task.claimedBy with
  | none => simp [bind]
  | some id => simp [bind, hrt.uuidText_inj]

theorem getClaimedTasks (hrt : TextRoundTrip) (h : Represents t tasks) (teamId : Uuid) :
    getClaimedTasks t teamId = .ok (tasks.filter fun task => task.teamId = teamId ∧ task.status = .claimed) := by
  refine h.select hrt fun task => and_congr ?_ ?_
  · exact Value.text.injEq .. ▸ hrt.uuidText_inj
  · exact Value.text.injEq .. ▸ debugStatus_eq_claimed

/-! ### The rows of `Database` -/

theorem clash_taskRow (hrt : TextRoundTrip) {a b : Task} : Row.Clash (taskRow a) (taskRow b) ↔ Task.Clash a b := by
  refine or_congr ?_ ?_
  · exact Value.text.injEq .. ▸ hrt.uuidText_inj
  · exact Value.text.injEq .. ▸ Iff.rfl

theorem createTask_of_insert_none (h : t.insert (taskRow { task with teamId := teamId }) = none) :
    Storage.createTask none t task teamId = (.error "URL already exists", t) := by
  have h : t.insert (assign insertColumns (insertParams task teamId) fun _ => .null) = none := h
  simp only [Storage.createTask, h]

theorem createTask_of_insert_some (h : t.insert (taskRow { task with teamId := teamId }) = some t') :
    Storage.createTask none t task teamId = (.ok (), t') := by
  have h : t.insert (assign insertColumns (insertParams task teamId) fun _ => .null) = some t' := h
  simp only [Storage.createTask, h]

/-- On the columns `create_task` does what it does on the rows. -/
theorem refines_createTask (hrt : TextRoundTrip) {db : Database} (h : Represents t db.tasks.rows) (hs : Storable task)
    (hteam : db.referencesTeam teamId = true) :
    (Storage.createTask none t task teamId).1 = (db.createTask none task teamId).1 ∧
      Represents (Storage.createTask none t task teamId).2 (db.createTask none task teamId).2.tasks.rows := by
  have hclash : (∃ row ∈ t.rows, Row.Clash row (taskRow { task with teamId := teamId })) ↔
      ∃ r ∈ db.tasks.rows, Task.Clash r { task with teamId := teamId } := by
    rw [h.rows]
    simp only [List.mem_map, exists_exists_and_eq_and, clash_taskRow hrt]
  by_cases hc : ∃ r ∈ db.tasks.rows, Task.Clash r { task with teamId := teamId }
  · rw [createTask_of_insert_none (Table.insert_eq_none.2 (hclash.2 hc)), Database.createTask_of_clash hc]
    exact ⟨rfl, h⟩
  · have hcol : Storage.createTask none t task teamId = (.ok (), t.put (taskRow { task with teamId := teamId })) :=
      createTask_of_insert_some (Table.insert_eq_put fun row hrow hcl => hc (hclash.1 ⟨row, hrow, hcl⟩))
    rw [hcol, Database.createTask_of_noClash hc, if_pos hteam]
    refine ⟨rfl, ?_⟩
    show Represents _ (db.tasks.put { task with teamId := teamId }).rows
    rw [Table.rows_put_of_forall fun r hr hcl => hc ⟨r, hr, hcl⟩]
    exact h.createTask hs hcol

/-- So does `update_task`. -/
theorem refines_updateTask (hrt : TextRoundTrip) {db : Database} (h : Represents t db.tasks.rows) (hs : Storable task) :
    (Storage.updateTask none t task teamId).1 = (db.updateTask none task teamId).1 ∧
      Represents (Storage.updateTask none t task teamId).2 (db.updateTask none task teamId).2.tasks.rows := by
  have hcol : Storage.updateTask none t task teamId = (.ok (), (Storage.updateTask none t task teamId).2) := rfl
  exact ⟨rfl, h.updateTask hrt hs hcol⟩

/-- And the readers give the rows. -/
theorem refines_readers (hrt : TextRoundTrip) {db : Database} (h : Represents t db.tasks.rows) (teamId : Uuid) :
    Storage.getTasksByTeam t teamId = (db.getTasksByTeam none teamId).1 ∧
      Storage.getClaimedTasks t teamId = (db.getClaimedTasks none teamId).1 :=
  ⟨h.getTasksByTeam hrt teamId, h.getClaimedTasks hrt teamId⟩

end Represents

/-! ### Stored and returned -/

/-- The tables that the two writers can lead to with storable tasks, each call succeeding or failing. -/
inductive Written : TaskTable → Prop
  | empty : Written .empty
  | createTask {t : TaskTable} (fail : Option String) (task : Task) (teamId : Uuid) (h : Written t)
      (hs : Storable task) : Written (createTask fail t task teamId).2
  | updateTask {t : TaskTable} (fail : Option String) (task : Task) (teamId : Uuid) (h : Written t)
      (hs : Storable task) : Written (updateTask fail t task teamId).2

/-- The readers return the task, the last one exactly where it is claimed. -/
structure Returned (t : TaskTable) (task : Task) : Prop where
  byTeam : ∃ l, getTasksByTeam t task.teamId = .ok l ∧ task ∈ l
  byDevice : ∀ deviceId, task.claimedBy = some deviceId → ∃ l, getTasksByDevice t deviceId = .ok l ∧ task ∈ l
  claimed : ∃ l, getClaimedTasks t task.teamId = .ok l ∧ (task ∈ l ↔ task.status = .claimed)

theorem createTask_fst_or (fail : Option String) (t : TaskTable) (task : Task) (teamId : Uuid) :
    (createTask fail t task teamId).1 = .ok () ∨ (createTask fail t task teamId).2 = t := by
  unfold createTask
  split
  · exact Or.inr rfl
  · split
    · exact Or.inl rfl
    · exact Or.inr rfl

theorem Written.represents (hrt : TextRoundTrip) (h : Written t) : ∃ tasks, Represents t tasks := by
  induction h with
  | empty => exact ⟨[], .empty⟩
  | @createTask t fail task teamId _ hs ih =>
    obtain ⟨tasks, ih⟩ := ih
    rcases createTask_fst_or fail t task teamId with hok | heq
    · have hok : Storage.createTask fail t task teamId = (.ok (), (Storage.createTask fail t task teamId).2) :=
        Prod.ext hok rfl
      exact ⟨_, ih.createTask hs hok⟩
    · rw [heq]
      exact ⟨tasks, ih⟩
  | @updateTask t fail task teamId _ hs ih =>
    obtain ⟨tasks, ih⟩ := ih
    cases fail with
    | some e => exact ⟨tasks, ih⟩
    | none =>
      have hok : Storage.updateTask none t task teamId = (.ok (), (Storage.updateTask none t task teamId).2) := rfl
      exact ⟨_, ih.updateTask hrt hs hok⟩

theorem Represents.returned (hrt : TextRoundTrip) (h : Represents t tasks) (hmem : task ∈ tasks) : Returned t task where
  byTeam := ⟨_, h.getTasksByTeam hrt task.teamId, List.mem_filter.2 ⟨hmem, decide_eq_true rfl⟩⟩
  byDevice := fun deviceId hd => ⟨_, h.getTasksByDevice hrt deviceId, List.mem_filter.2 ⟨hmem, decide_eq_true hd⟩⟩
  claimed := ⟨_, h.getClaimedTasks hrt task.teamId, by simp [hmem]⟩

/-- A stored task comes back unchanged: after `create_task` (for the team it was created for) and after
`update_task` on a row with the same identity. -/
theorem returned_of_stored (hrt : TextRoundTrip) (ht : Written t) (hs : Storable task) :
    (∀ fail teamId t', createTask fail t task teamId = (.ok (), t') → Returned t' { task with teamId := teamId }) ∧
      ∀ fail teamId t' old l, getTasksByTeam t task.teamId = .ok l → old ∈ l → old.SameIdentity task →
        updateTask fail t task teamId = (.ok (), t') → Returned t' task := by
  obtain ⟨tasks, h⟩ := ht.represents hrt
  constructor
  · intro fail teamId t' hok
    exact (h.createTask hs hok).returned hrt (by simp)
  · intro fail teamId t' old l hl hold hid hok
    refine (h.updateTask hrt hs hok).returned hrt (List.mem_map.2 ⟨old, ?_, ?_⟩)
    · rw [h.getTasksByTeam hrt] at hl
      cases hl
      exact (List.mem_filter.1 hold).1
    · rw [if_pos hid.id, Task.overwrite_eq hid]

end

end Storage

namespace Sample
open Storage

/-- Texts of three ids and of one time as the packages write them, and others that only read back. -/
scoped instance columnText : ColumnText where
  uuidText id :=
    if id = 1 then "00000000-0000-0000-0000-000000000001"
    else if id = 7 then "00000000-0000-0000-0000-000000000007"
    else if id = 10 then "00000000-0000-0000-0000-00000000000a"
    else String.ofList ('u' :: List.replicate id.toNat 'u')
  parseStr s :=
    if s = "00000000-0000-0000-0000-000000000001" then some 1
    else if s = "00000000-0000-0000-0000-000000000007" then some 7
    else if s = "00000000-0000-0000-0000-00000000000a" then some 10
    else some (BitVec.ofNat 128 s.toList.tail.length)
  toRfc3339 t :=
    if t = 0 then "1970-01-01T00:00:00+00:00"
    else if t < 0 then String.ofList ('b' :: List.replicate t.natAbs 'b')
    else String.ofList ('a' :: List.replicate t.natAbs 'a')
  parseFromRfc3339 s :=
    if s = "1970-01-01T00:00:00+00:00" then some 0
    else if s.toList.head? = some 'b' then some (-s.toList.tail.length)
    else some s.toList.tail.length

theorem columnText_roundTrip : TextRoundTrip := by
  constructor
  · intro id
    by_cases h1 : id = 1
    · subst h1
      rfl
    by_cases h7 : id = 7
    · subst h7
      rfl
    by_cases h10 : id = 10
    · subst h10
      rfl
    have hne : ∀ s : String, s.toList.head? ≠ some 'u' → String.ofList ('u' :: List.replicate id.toNat 'u') ≠ s := by
      rintro s hs rfl
      simp at hs
    simp only [ColumnText.uuidText, if_neg h1, if_neg h7, if_neg h10]
    simp only [ColumnText.parseStr, if_neg (hne "00000000-0000-0000-0000-000000000001" (by decide)),
      if_neg (hne "00000000-0000-0000-0000-000000000007" (by decide)),
      if_neg (hne "00000000-0000-0000-0000-00000000000a" (by decide))]
    rw [String.toList_ofList, List.tail_cons, List.length_replicate]
    exact congrArg some (BitVec.eq_of_toNat_eq ((BitVec.toNat_ofNat ..).trans (Nat.mod_eq_of_lt (BitVec.isLt id))))
  · intro t _
    have hne : ∀ c n, c ≠ '1' → String.ofList (c :: List.replicate n c) ≠ "1970-01-01T00:00:00+00:00" := by
      intro c n hc h
      have := congrArg (fun s => s.toList.head?) h
      simp at this
      exact hc this
    by_cases h0 : t = 0
    · subst h0
      rfl
    by_cases hneg : t < 0
    · simp only [ColumnText.toRfc3339, if_neg h0, if_pos hneg]
      simp only [ColumnText.parseFromRfc3339, if_neg (hne 'b' _ (by decide)), String.toList_ofList, List.head?_cons,
        if_true, List.tail_cons, List.length_replicate]
      exact congrArg some (by rw [Int.ofNat_natAbs_of_nonpos (Int.le_of_lt hneg), Int.neg_neg])
    · simp only [ColumnText.toRfc3339, if_neg h0, if_neg hneg]
      simp only [ColumnText.parseFromRfc3339, if_neg (hne 'a' _ (by decide)), String.toList_ofList, List.head?_cons,
        List.tail_cons, List.length_replicate]
      rw [if_neg (by decide)]
      exact congrArg some (Int.natAbs_of_nonneg (Int.not_lt.1 hneg))

def claimedTask : Task where
  id := 7
  teamId := 10
  url := "u"
  status := .claimed
  claimedBy := some 1
  claimedAt := some 0
  progress := 1 / 2
  localPath := none
  fileSize := some 18446744073709551615
  createdBy := 1
  createdAt := 0
  version := 2

theorem claimedTask_storable : Storable claimedTask := by
  refine ⟨?_, by decide, ?_, by decide⟩
  · rintro t ⟨⟩
    decide
  · rintro n ⟨⟩
    decide

theorem claimedTask_returned : Returned (createTask none .empty claimedTask 10).2 claimedTask :=
  (returned_of_stored columnText_roundTrip .empty claimedTask_storable).1 none 10 _ rfl

end Sample
end XVideoDownloader
