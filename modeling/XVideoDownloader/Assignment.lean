import XVideoDownloader.Lifecycle

/-!
# The automatic assignment of new tasks

`handle_add_task` asks the hash ring for an owner. `Assigned` says which owner that should be. But no handler
ever puts a device on the ring, so the ring of every reachable server is empty (`Server.handleAll_hashRing`)
and no task is assigned to anybody.
-/

namespace XVideoDownloader
open Lib MessageHandler

/-- The connection `key` has sent `LeaveTeam`. -/
def SentLeave (xs : List (Job × Stream' Env)) (key : SessionKey) : Prop :=
  ∃ x ∈ xs, ∃ deviceId, x.1 = .text key (.leaveTeam deviceId)

/-- After the jobs `xs` have led to `s`, the device has a connected session in the team that has not left. -/
def Eligible (xs : List (Job × Stream' Env)) (s : Server) (teamId deviceId : Uuid) : Prop :=
  ∃ x ∈ s.sessions.rows, x.deviceId = deviceId ∧ x.teamId = teamId ∧ ¬ SentLeave xs x.key

/-- Clockwise from `h`, the hash `a` comes no later than `b`. -/
def Clockwise (h a b : Nat) : Prop := h ≤ a ∧ (h ≤ b → a ≤ b) ∨ a < h ∧ b < h ∧ a ≤ b

section
variable [DefaultHasher]

/-- The task is claimed by the first eligible device of its team, clockwise from the hash of its URL. -/
def Assigned (xs : List (Job × Stream' Env)) (s : Server) (task : Task) : Prop :=
  task.status = .claimed ∧ ∃ deviceId, task.claimedBy = some deviceId ∧
    Eligible xs s task.teamId deviceId ∧ ∀ d, Eligible xs s task.teamId d →
      Clockwise (DefaultHasher.hashUrl task.url) (DefaultHasher.hashDevice deviceId)
        (DefaultHasher.hashDevice d)

/-! ### The ring -/

theorem HashRing.removeDevice_new (deviceId : Uuid) : HashRing.new.removeDevice deviceId = HashRing.new := rfl

theorem HashRing.getOwner_new (url : String) : HashRing.new.getOwner url = none := rfl

/-- No operation puts a device on an empty ring. -/
theorem Server.act_hashRing {o : Op} {e : Env} {s : Server} (h : s.hashRing = HashRing.new) :
    (s.act o e).2.hashRing = HashRing.new := by
  cases o with
  | removeDevice deviceId =>
    show s.hashRing.removeDevice deviceId = _
    rw [h, HashRing.removeDevice_new]
  | _ => exact h

variable [AuthDeps]

theorem Server.handle_hashRing {s : Server} (h : s.hashRing = HashRing.new) (x : Job × Stream' Env) :
    (s.handle x).hashRing = HashRing.new := by
  refine (code_wp x.1).exec (J := fun s : Server => s.hashRing = HashRing.new) ?_ x.2 h
  intro _ _ _ _ _ hs
  exact act_hashRing hs

theorem Server.handleAll_hashRing {s : Server} (h : s.hashRing = HashRing.new)
    (xs : List (Job × Stream' Env)) : (s.handleAll xs).hashRing = HashRing.new := by
  induction xs generalizing s with
  | nil => exact h
  | cons x xs ih => exact ih (handle_hashRing h x)

/-! ### The tasks that are added -/

omit [AuthDeps] in
theorem Change.addTask_of_new {s : Server} {key : SessionKey} {url : String} {ω : Stream' Env} {k : Kind}
    {old : Option Task} {new : Task} (hr : s.hashRing = HashRing.new)
    (h : Change s (.text key (.addTask url), ω) k old new) :
    old = none ∧ new.status = .queued ∧ new.claimedBy = none := by
  cases h with
  | insertQueued => exact ⟨rfl, rfl, rfl⟩
  | insertClaimed _ ho =>
    rw [hr, HashRing.getOwner_new] at ho
    cases ho

/-- On every server that connections and messages can lead to, the task that an `AddTask` adds to a team with
an eligible device is stored as queued, claimed by nobody: it is never the eligible device that comes first
on the ring. -/
theorem never_assigned (foreignKeys : Bool) (xs : List (Job × Stream' Env)) (key : SessionKey) (url : String)
    (ω : Stream' Env) :
    let s := (Server.new foreignKeys).handleAll xs
    ∀ new ∈ (s.handle (.text key (.addTask url), ω)).tasks, new ∉ s.tasks →
      (∃ deviceId, Eligible xs s new.teamId deviceId) →
        new.status = .queued ∧ new.claimedBy = none ∧ ¬ Assigned xs s new := by
  intro s new hnew hold _
  have hring : s.hashRing = HashRing.new := Server.handleAll_hashRing rfl xs
  have hI : s.Consistent := (Server.Consistent.of_empty rfl).handleAll xs
  have hqueued : new.status = .queued ∧ new.claimedBy = none := by
    rcases (handle_changes hI _).backward new hnew with ⟨r, hr, rfl | ⟨k, hc⟩⟩ | ⟨-, k, hc⟩
    · exact absurd hr hold
    · exact (hc.addTask_of_new hring).2
    · exact (hc.addTask_of_new hring).2
  refine ⟨hqueued.1, hqueued.2, ?_⟩
  rintro ⟨-, deviceId, hc, -⟩
  rw [hqueued.2] at hc
  cases hc

end

namespace Sample

/-- Device 1 connects and creates a team. -/
def oneMember : List (Job × Stream' Env) :=
  [(.connect 101 firstMsg, always 0 "" 1000), (.text 101 (.createTeam "a"), always 10 "code" 1000)]

theorem oneMember_state :
    ((Server.new true).handleAll oneMember).sessions.rows = [⟨101, 1, 10⟩] ∧
      ((Server.new true).handleAll oneMember).tasks = [] ∧
      (((Server.new true).handleAll oneMember).handle
        (.text 101 (.addTask "u"), always 7 "" 1000)).tasks.map (·.teamId) = [10] := by
  rw [oneMember, handleAll_connect]
  decide +kernel

theorem eligible_oneMember : Eligible oneMember ((Server.new true).handleAll oneMember) 10 1 := by
  refine ⟨⟨101, 1, 10⟩, by simp [oneMember_state.1], rfl, rfl, ?_⟩
  rintro ⟨x, hx, deviceId, h⟩
  rcases List.mem_pair.1 hx with rfl | rfl <;> cases h

theorem never_assigned_oneMember :
    ∀ new ∈ (((Server.new true).handleAll oneMember).handle (.text 101 (.addTask "u"), always 7 "" 1000)).tasks,
      new.claimedBy = none := by
  intro new hnew
  have hteam : new.teamId = 10 := by
    have hmem := List.mem_map_of_mem (f := fun r : Task => r.teamId) hnew
    rw [oneMember_state.2.2] at hmem
    exact List.mem_singleton.1 hmem
  exact (never_assigned true oneMember 101 "u" (always 7 "" 1000) new hnew (by simp [oneMember_state.2.1])
    (hteam ▸ ⟨1, eligible_oneMember⟩)).2.1

/-- The team's only device is connected and has not left, and the new task is not assigned to it. -/
theorem not_assigned_oneMember :
    Eligible oneMember ((Server.new true).handleAll oneMember) 10 1 ∧
      ∃ new, (((Server.new true).handleAll oneMember).handle
          (.text 101 (.addTask "u"), always 7 "" 1000)).tasks = [new] ∧ new.teamId = 10 ∧
        ¬ Assigned oneMember ((Server.new true).handleAll oneMember) new := by
  refine ⟨eligible_oneMember, { Task.new 7 1000000000000 "u" 10 1 with status := .queued }, ?_, rfl, ?_⟩
  · rw [oneMember, handleAll_connect]
    decide +kernel
  · rintro ⟨h, -⟩
    cases h

end Sample

end XVideoDownloader
