import XVideoDownloader.Tasks

/-!
# Consistent task rows

A row is consistent when its status, its claimant and its file agree. `Stores.consistent` is the reason
that they stay so: a handler stores a changed copy of a row it has read, and a copy of a consistent row
is consistent, however old it is. So the invariant is carried by what the handlers have read
(`Grounded`), not only by the table.
-/

namespace XVideoDownloader
open Lib

structure Task.Consistent (r : Task) : Prop where
  status : r.status = .queued ∨ r.status = .claimed ∨ r.status = .complete
  claimedBy : r.claimedBy = none ↔ r.status = .queued
  claimedAt : r.claimedAt = none ↔ r.status = .queued
  file : r.status = .complete → r.localPath ≠ none ∧ r.fileSize ≠ none

namespace Task.Consistent

theorem released {r : Task} : r.released.Consistent :=
  ⟨.inl rfl, by simp [Task.released], by simp [Task.released], by simp [Task.released]⟩

theorem overwrite {r task : Task} (h : task.Consistent) : (r.overwrite task).Consistent :=
  ⟨h.status, h.claimedBy, h.claimedAt, h.file⟩

theorem of_claimedBy {r : Task} {deviceId : Uuid} (h : r.Consistent) (hc : r.claimedBy = some deviceId) :
    r.status ≠ .queued ∧ r.claimedAt ≠ none := by
  have hs : r.status ≠ .queued := fun hs => by simp [h.claimedBy.2 hs] at hc
  exact ⟨hs, fun ha => hs (h.claimedAt.1 ha)⟩

end Task.Consistent

def Server.Consistent (s : Server) : Prop := ∀ r ∈ s.tasks, r.Consistent

theorem Server.Consistent.of_empty {s : Server} (hs : s.tasks = []) : s.Consistent :=
  fun r hr => by simp [hs] at hr

section
variable [DefaultHasher] {R : Server → Server → Prop} {s : Server} {j : Job} {h : Hist} {task : Task}
  {teamId : Uuid}

theorem Read.consistent (hr : Read h teamId task)
    (hh : Answered Server.act Server.Consistent R s h) : task.Consistent := by
  obtain ⟨s₀, hI, -, ht, -⟩ := hr.past hh
  exact hI task ht

/-- What is stored is consistent and not queued: only a release queues a task again. -/
theorem Stores.consistent (hs : Stores j h task teamId)
    (hh : Answered Server.act Server.Consistent R s h) : task.Consistent ∧ task.status ≠ .queued := by
  cases hs with
  | assign => exact ⟨⟨.inr (.inl rfl), by simp, by simp, by simp⟩, by simp⟩
  | claim _ hr =>
    exact ⟨⟨.inr (.inl rfl), by simp, by simp, by simp⟩, by simp⟩
  | progress _ hr hc =>
    have ht := hr.consistent hh
    exact ⟨⟨ht.status, ht.claimedBy, ht.claimedAt, ht.file⟩, (ht.of_claimedBy hc).1⟩
  | complete _ hr hc =>
    have ht := (hr.consistent hh).of_claimedBy hc
    exact ⟨⟨.inr (.inr rfl), by simp [hc], by simp [ht.2], by simp⟩, by simp⟩

variable [AuthDeps]

theorem Server.Consistent.step {o : Op} {e : Env} (hI : s.Consistent) (ha : Allowed j h o)
    (hh : Answered Server.act Server.Consistent R s h) : (s.act o e).2.Consistent := by
  intro r' hr'
  rcases act_tasks_backward hr' with ⟨r, hr, hstep⟩ | ⟨task, teamId, rfl, -, rfl⟩
  · cases hstep with
    | same => exact hI _ hr
    | update ho hf hid =>
      subst ho
      exact (Stores.consistent ha hh).1.overwrite
    | release ho hf => exact .released
  · obtain ⟨key, url, deviceId, id, now, -, -, -, rfl⟩ := ha
    exact ⟨.inl rfl, by simp [Task.new], by simp [Task.new], by simp⟩

theorem Server.Consistent.next {S : Sys} {a : Step Job Env} {x : Issue Op.Ans Job Env}
    (hS : Grounded Server.act Allowed Server.Consistent (fun _ _ => True) S) (hx : S.issued a = some x) :
    (S.state.act x.op x.env).2.Consistent :=
  hS.inv.step (hS.allowed hx).1 (hS.allowed hx).2

theorem Server.Consistent.grounded (hI : s.Consistent) {as : List (Step Job Env)} {y : Event}
    (hy : y ∈ s.trace as) :
    Grounded Server.act Allowed Server.Consistent (fun _ _ => True) y.1 :=
  Grounded.of_mem_trace (fun _ _ => True) code_wp (fun _ => trivial) (fun _ _ _ _ _ => trivial)
    (fun _ _ _ hS _ hx => ⟨next hS hx, trivial⟩) (.init hI) (fun _ _ => trivial) hy

theorem Server.Consistent.run (hI : s.Consistent) (as : List (Step Job Env)) :
    (s.run as).state.Consistent :=
  Pool.run_keeps (K := Server.Consistent) as (fun _ hy _ hx _ => next (hI.grounded hy) hx) hI

theorem Server.Consistent.handleAll (hI : s.Consistent) (xs : List (Job × Stream' Env)) :
    (s.handleAll xs).Consistent := by
  obtain ⟨as, h⟩ := s.run_eq_handleAll xs
  rw [← h]
  exact hI.run as

/-- From an empty table, whatever the hash ring holds and in whatever order the handlers and sweeps take
their steps, every stored row is consistent. -/
theorem consistent_run (s : Server) (hs : s.tasks = []) (as : List (Step Job Env)) :
    ∀ r ∈ (s.run as).state.tasks, r.Consistent :=
  (Server.Consistent.of_empty hs).run as

end

/-! ### Two devices of one team -/

namespace Sample

/-- A server with one team, both of its devices connected, and no task. -/
def server : Server where
  db := { Database.new true with
    teams := Table.empty.put ⟨10, "team", "code", 0⟩
    devices := Table.empty.put ⟨0, 10, "team", none, none, 0, true⟩ }
  sessions := (Table.empty.put ⟨101, 1, 10⟩).put ⟨102, 2, 10⟩
  hashRing := HashRing.new
  sent := []

/-- The handler `i` makes its next `n` calls at the time `now`. -/
def resume (i n : Nat) (now : Time) : List (Step Job Env) :=
  List.replicate n (.resume i ⟨7, "", now, none⟩)

def claimInTurn : List (Step Job Env) :=
  [.spawn (.text 101 (.addTask "u"))] ++ resume 0 6 0 ++ [.spawn (.text 101 (.claimTask 7))] ++
    resume 1 5 1 ++ [.spawn (.text 102 (.claimTask 7))] ++ resume 2 5 2

theorem consistent_run_claimInTurn :
    (server.run claimInTurn).state.tasks.map (·.claimedBy) = [some 1] ∧
      ∀ r ∈ (server.run claimInTurn).state.tasks, r.Consistent :=
  ⟨by decide +kernel, consistent_run server rfl claimInTurn⟩

end Sample

end XVideoDownloader
