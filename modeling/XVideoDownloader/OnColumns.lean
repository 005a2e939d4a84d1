import XVideoDownloader.Bounds
import XVideoDownloader.Lib.Simulation

/-!
# The server on its columns (`server/handler.rs`, `server/db.rs`)

`StoredServer` is the server with the tables of columns in place of the rows of `Database`. The same handlers in the
same order make the same calls on it, get the same answers and send the same messages (`runs_on_columns`).
-/

namespace XVideoDownloader
open Lib Storage

structure StoredServer where
  db : Db
  sessions : Table Session fun a b => a.key = b.key
  hashRing : HashRing
  sent : List (SessionKey × ServerMessage)

namespace StoredServer

def new (foreignKeys : Bool) : StoredServer := ⟨.new foreignKeys, .empty, HashRing.new, []⟩

def onDb {α : Type} (t : StoredServer) (r : α × Db) : α × StoredServer := (r.1, { t with db := r.2 })

/-- What an operation does that the database has no part in. -/
def beside {α : Type} (t : StoredServer) (f : Server → α × Server) : α × StoredServer :=
  let r := f ⟨.new t.db.foreignKeys, t.sessions, t.hashRing, t.sent⟩
  (r.1, ⟨t.db, r.2.sessions, r.2.hashRing, r.2.sent⟩)

variable [ColumnText] [UuidError] [DefaultHasher]

def act : (o : Op) → Env → StoredServer → o.Ans × StoredServer
  | .createTeam name, e, t => t.onDb (t.db.createTeam e.fail e.uuid e.code e.now name)
  | .getTeamByCode code, e, t => t.onDb (t.db.getTeamByCode e.fail code)
  | .registerDevice device, e, t => t.onDb (t.db.registerDevice e.fail device)
  | .updateDeviceHeartbeat id, e, t => t.onDb (t.db.updateDeviceHeartbeat e.fail e.now id)
  | .setDeviceOffline id, e, t => t.onDb (t.db.setDeviceOffline e.fail id)
  | .getDevice id, e, t => t.onDb (t.db.getDevice e.fail id)
  | .getAllTeamIds, e, t => t.onDb (t.db.getAllTeamIds e.fail)
  | .createTask task teamId, e, t => t.onDb (t.db.createTask e.fail task teamId)
  | .updateTask task teamId, e, t => t.onDb (t.db.updateTask e.fail task teamId)
  | .getTasksByTeam teamId, e, t => t.onDb (t.db.getTasksByTeam e.fail teamId)
  | .getClaimedTasks teamId, e, t => t.onDb (t.db.getClaimedTasks e.fail teamId)
  | .releaseTask id, e, t => t.onDb (t.db.releaseTask e.fail id)
  | o, e, t => t.beside (Server.act o e)

abbrev run [AuthDeps] (t : StoredServer) (as : List (Step Job Env)) : Pool Op.Ans Job StoredServer :=
  Pool.run Job.code act ⟨t, []⟩ as

end StoredServer

/-- The columns hold the rows of the server, everything else is the same, and what was sent is within the bound. -/
structure StoredServer.Holds [ColumnText] (n : Nat) (s : Server) (t : StoredServer) : Prop where
  db : Db.Represents n t.db s.db
  sessions : t.sessions = s.sessions
  hashRing : t.hashRing = s.hashRing
  sent : t.sent = s.sent
  within : ∀ p ∈ s.sent, p.2.Within n

namespace StoredServer.Holds
section
variable [ColumnText] {n : Nat} {s : Server} {t : StoredServer} {α : Type}

theorem new (foreignKeys : Bool) : Holds 0 (.new foreignKeys) (.new foreignKeys) :=
  ⟨.new foreignKeys, rfl, rfl, rfl, fun _ h => absurd h List.not_mem_nil⟩

theorem succ (h : Holds n s t) : Holds (n + 1) s t :=
  ⟨h.db.succ, h.sessions, h.hashRing, h.sent, fun p hp => (h.within p hp).succ⟩

/-- A call of the database. -/
theorem onDb (h : Holds n s t) {r : Except String α × Db} {r' : Except String α × Database}
    (hm : Db.Matches (n + 1) r r') : (t.onDb r).1 = (s.onDb r').1 ∧ Holds (n + 1) (s.onDb r').2 (t.onDb r).2 :=
  ⟨hm.1, hm.2, h.sessions, h.hashRing, h.sent, h.succ.within⟩

/-- Any other operation: it neither reads nor changes the tables. -/
theorem beside (h : Holds n s t) {f : Server → α × Server}
    (hf : ∀ db, f { s with db := db } = ((f s).1, { (f s).2 with db := db })) (hdb : (f s).2.db = s.db)
    (hsent : ∀ p ∈ (f s).2.sent, p.2.Within (n + 1)) :
    (t.beside f).1 = (f s).1 ∧ Holds (n + 1) (f s).2 (t.beside f).2 := by
  have hserver : f ⟨.new t.db.foreignKeys, t.sessions, t.hashRing, t.sent⟩ =
      ((f s).1, { (f s).2 with db := .new t.db.foreignKeys }) := by
    rw [h.sessions, h.hashRing, h.sent]
    exact hf _
  rw [StoredServer.beside, hserver]
  exact ⟨rfl, hdb ▸ h.db.succ, rfl, rfl, rfl, hsent⟩

theorem within_post (h : Holds n s t) {m : ServerMessage} (hm : m.Within (n + 1)) (p : Session → Bool) :
    ∀ x ∈ (s.post p m).sent, x.2.Within (n + 1) := by
  intro x hx
  rcases List.mem_append.1 hx with hx | hx
  · exact h.succ.within x hx
  · obtain ⟨y, -, rfl⟩ := List.mem_map.1 hx
    exact hm

omit [ColumnText] in
theorem within_createTeam {db : Database} {fail : Option String} {id : Uuid} {code name : String} {now : Time}
    (hnow : InYears now) : AnsWithin (n + 1) ⟨.createTeam name, (db.createTeam fail id code now name).1⟩ := by
  unfold Database.createTeam Database.execute
  cases fail with
  | some e => trivial
  | none =>
    cases hins : db.teams.insert ⟨id, name, code, now⟩ with
    | some teams =>
      simp only [hins]
      exact hnow
    | none => simp only [hins, AnsWithin]

theorem within_getTeamByCode (h : Holds n s t) {fail : Option String} {code : String} :
    AnsWithin (n + 1) ⟨.getTeamByCode code, (s.db.getTeamByCode fail code).1⟩ := by
  cases fail with
  | some e => trivial
  | none =>
    show AnsWithin (n + 1) ⟨.getTeamByCode code, .ok (s.db.teams.rows.find? fun t => t.inviteCode = code)⟩
    cases hfind : s.db.teams.rows.find? fun t => t.inviteCode = code with
    | none => trivial
    | some team => exact h.db.teams.ok team (List.mem_of_find?_eq_some hfind)

theorem within_getTasksByTeam (h : Holds n s t) {fail : Option String} {teamId : Uuid} :
    AnsWithin (n + 1) ⟨.getTasksByTeam teamId, (s.db.getTasksByTeam fail teamId).1⟩ := by
  cases fail with
  | some e => trivial
  | none => exact fun r hr => (h.db.tasks.ok r (List.mem_filter.1 hr).1).succ

end

section
variable [ColumnText] [UuidError] [DefaultHasher] {n : Nat} {s : Server} {t : StoredServer}

/-- One call: the same answer on the columns as on the rows, and within the next bound. -/
theorem act (hrt : TextRoundTrip) (h : Holds n s t) (hn : n + 2 < 9223372036854775808) {hist : Hist} {o : Op}
    (hk : Keeps hist o) (hhist : ∀ c ∈ hist, AnsWithin n c) {e : Env} (hnow : InYears e.now) :
    Agrees (AnsWithin (n + 1)) (Holds (n + 1)) o (Server.act o e s) (StoredServer.act o e t) := by
  have ho := hk n hhist
  have hbeside := h.beside (f := Server.act o e)
  cases o with
  | newV4 | getSession | getOwner | setTeam | evictDevice | insertSession | updateSession | removeSession
  | removeDevice =>
    obtain ⟨hans, hstate⟩ := hbeside (fun _ => rfl) rfl h.succ.within
    exact ⟨hans, trivial, hstate⟩
  | now =>
    obtain ⟨hans, hstate⟩ := hbeside (fun _ => rfl) rfl h.succ.within
    exact ⟨hans, hnow, hstate⟩
  | sendToDevice deviceId m | broadcastToTeam teamId m =>
    obtain ⟨hans, hstate⟩ := hbeside (fun _ => rfl) rfl (h.within_post ho _)
    exact ⟨hans, trivial, hstate⟩
  | sendError key message =>
    obtain ⟨hans, hstate⟩ := hbeside (fun _ => rfl) rfl (h.within_post (m := .error message) trivial _)
    exact ⟨hans, trivial, hstate⟩
  | createTeam name =>
    obtain ⟨hans, hstate⟩ := h.onDb (h.db.createTeam hrt e.fail e.uuid e.code hnow name)
    exact ⟨hans, within_createTeam hnow, hstate⟩
  | getTeamByCode code =>
    obtain ⟨hans, hstate⟩ := h.onDb (h.db.getTeamByCode hrt e.fail code)
    exact ⟨hans, h.within_getTeamByCode, hstate⟩
  | getTasksByTeam teamId =>
    obtain ⟨hans, hstate⟩ := h.onDb (h.db.getTasksByTeam hrt hn e.fail teamId)
    exact ⟨hans, h.within_getTasksByTeam, hstate⟩
  | getClaimedTasks teamId =>
    obtain ⟨hans, hstate⟩ := h.onDb (h.db.getClaimedTasks hrt hn e.fail teamId)
    exact ⟨hans, trivial, hstate⟩
  | getDevice deviceId =>
    obtain ⟨hans, hstate⟩ := h.onDb (h.db.getDevice hrt e.fail deviceId)
    exact ⟨hans, trivial, hstate⟩
  | getAllTeamIds =>
    obtain ⟨hans, hstate⟩ := h.onDb (h.db.getAllTeamIds hrt e.fail)
    exact ⟨hans, trivial, hstate⟩
  | registerDevice device =>
    obtain ⟨hans, hstate⟩ := h.onDb (h.db.registerDevice hrt e.fail ho)
    exact ⟨hans, trivial, hstate⟩
  | updateDeviceHeartbeat deviceId =>
    obtain ⟨hans, hstate⟩ := h.onDb (h.db.updateDeviceHeartbeat hrt e.fail hnow deviceId)
    exact ⟨hans, trivial, hstate⟩
  | setDeviceOffline deviceId =>
    obtain ⟨hans, hstate⟩ := h.onDb (h.db.setDeviceOffline hrt e.fail deviceId)
    exact ⟨hans, trivial, hstate⟩
  | createTask task teamId =>
    obtain ⟨hans, hstate⟩ := h.onDb (h.db.createTask hrt e.fail ho teamId)
    exact ⟨hans, trivial, hstate⟩
  | updateTask task teamId =>
    obtain ⟨hans, hstate⟩ := h.onDb (h.db.updateTask hrt e.fail ho teamId)
    exact ⟨hans, trivial, hstate⟩
  | releaseTask taskId =>
    obtain ⟨hans, hstate⟩ := h.onDb (h.db.releaseTask hrt hn e.fail taskId)
    exact ⟨hans, trivial, hstate⟩

end
end StoredServer.Holds

namespace StoredServer
variable [ColumnText] [UuidError] [AuthDeps] [DefaultHasher] {n : Nat} {s : Server} {t : StoredServer}

theorem simulates (hrt : TextRoundTrip) (h : Holds n s t) (as : List (Step Job Env)) (hlen : n + as.length + 2 < 2 ^ 63)
    (hjobs : ∀ j, .spawn j ∈ as → j.Fits) (hclock : ∀ i e, .resume i e ∈ as → InYears e.now) :
    Simulates (fun _ => Keeps) (AnsWithin (n + as.length)) (Holds (n + as.length)) (s.run as) (t.run as) := by
  refine Simulates.run (N := 2 ^ 63 - 2) (fun j hj => code_keeps hj) (fun _ _ => AnsWithin.succ) (fun _ _ _ => Holds.succ)
    (fun m s t _ hist o e hm hst hk hhist hnow => ?_) as (by omega) hjobs hclock (.init h)
  exact hst.act hrt (by omega) hk hhist hnow

/-- What every handler has been answered, and so what it does, is the same on the columns as on the rows, and so are
the sessions and what was sent to them; the columns hold the rows throughout. -/
theorem runs_on_columns (hrt : TextRoundTrip) (h : Holds n s t) (as : List (Step Job Env))
    (hlen : n + as.length + 2 < 2 ^ 63) (hjobs : ∀ j, .spawn j ∈ as → j.Fits)
    (hclock : ∀ i e, .resume i e ∈ as → InYears e.now) :
    (t.run as).threads = (s.run as).threads ∧ (t.run as).state.sessions = (s.run as).state.sessions ∧
      (t.run as).state.sent = (s.run as).state.sent ∧
      Db.Represents (n + as.length) (t.run as).state.db (s.run as).state.db := by
  have hsim := simulates hrt h as hlen hjobs hclock
  exact ⟨hsim.threads, hsim.state.sessions, hsim.state.sent, hsim.state.db⟩

end StoredServer

namespace Sample
open StoredServer

scoped instance uuidError : UuidError := ⟨id⟩

/-- Device 1 connects, creates a team and adds a task. -/
def addSteps : List (Step Job Env) :=
  let e : Env := ⟨7, "CODE", 0, none⟩
  [.spawn (.connect 101 firstMsg)] ++ List.replicate 3 (.resume 0 e) ++ [.spawn (.text 101 (.createTeam "T"))] ++
    List.replicate 7 (.resume 1 e) ++ [.spawn (.text 101 (.addTask "u"))] ++ List.replicate 7 (.resume 2 e)

theorem fits_addSteps (j : Job) (hj : .spawn j ∈ addSteps) : j.Fits := by
  have hj : j = .connect 101 firstMsg ∨ j = .text 101 (.createTeam "T") ∨ j = .text 101 (.addTask "u") := by
    simpa [addSteps] using hj
  rcases hj with rfl | rfl | rfl <;> trivial

theorem clock_addSteps (i : Nat) (e : Env) (he : .resume i e ∈ addSteps) : InYears e.now := by
  have he : e = ⟨7, "CODE", 0, none⟩ := by
    simp [addSteps] at he
    tauto
  rw [he]
  decide

theorem runs_on_columns_addSteps :
    ((StoredServer.new true).run addSteps).state.sent =
      [(101, .teamCreated ⟨7, "T", "CODE", 0⟩),
        (101, .taskAdded { Task.new 7 0 "u" 7 1 with status := .queued })] :=
  (runs_on_columns columnText_roundTrip (Holds.new true) addSteps (by decide) fits_addSteps clock_addSteps).2.2.1.trans
    (by decide +kernel)

end Sample
end XVideoDownloader
