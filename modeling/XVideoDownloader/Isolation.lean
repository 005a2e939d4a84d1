import XVideoDownloader.Consistent

/-!
# Teams write only their own tasks

`update_task` takes a team and does not use it. What keeps a handler inside its team is where its rows come
from: they were read with `get_tasks_by_team`, or inserted by the handler itself, for the team of its
session, and no statement ever changes the team of a row.
-/

namespace XVideoDownloader
open Lib

/-- Every row of `s` is still there in `s'`, with its identity. -/
def Persists (s s' : Server) : Prop := ∀ r ∈ s.tasks, ∃ r' ∈ s'.tasks, r.SameIdentity r'

namespace Persists

theorem refl (s : Server) : Persists s s := fun r hr => ⟨r, hr, .refl r⟩

theorem trans (a b c : Server) (h : Persists a b) (h' : Persists b c) : Persists a c := by
  intro r hr
  obtain ⟨r₁, hr₁, h₁⟩ := h r hr
  obtain ⟨r₂, hr₂, h₂⟩ := h' r₁ hr₁
  exact ⟨r₂, hr₂, h₁.trans h₂⟩

theorem teamId_eq {s₀ s : Server} (h : Persists s₀ s) {q r : Task} (hq : q ∈ s₀.tasks) (hr : r ∈ s.tasks)
    (hid : q.id = r.id) : q.teamId = r.teamId := by
  obtain ⟨r', hr', hs⟩ := h q hq
  rw [Server.eq_of_id hr hr' (hid.symm.trans hs.id), hs.teamId]

variable [DefaultHasher]

theorem act (o : Op) (e : Env) (s : Server) : Persists s (s.act o e).2 := fun r hr => by
  obtain ⟨r', hr', h⟩ := act_tasks_forward (o := o) (e := e) hr
  exact ⟨r', hr', h.sameIdentity⟩

variable [AuthDeps]

theorem grounded {s : Server} {as : List (Step Job Env)} {y : Event} (hy : y ∈ s.trace as) :
    Grounded Server.act Allowed (fun _ => True) Persists y.1 :=
  Grounded.of_mem_trace (fun _ _ => True) code_wp refl trans (fun _ _ _ _ _ _ => ⟨trivial, act _ _ _⟩)
    (.init trivial) (fun _ _ => trivial) hy

end Persists

def Job.isMessage : Job → Bool
  | text .. => true
  | _ => false

theorem Job.isMessage_iff {j : Job} : j.isMessage ↔ ∃ key msg, j = .text key msg := by
  cases j <;> simp [isMessage]

def Server.foreign (s : Server) (teamId : Uuid) : List Task := s.tasks.filter fun r => r.teamId ≠ teamId

section
variable [DefaultHasher] {s : Server} {h : Hist} {j : Job}

theorem Stores.teamId_eq {task r : Task} {teamId : Uuid} (hs : Stores j h task teamId)
    (hh : Answered Server.act (fun _ => True) Persists s h) (hr : r ∈ s.tasks) (hid : task.id = r.id) :
    (∃ deviceId, who h = some (deviceId, teamId)) ∧ r.teamId = teamId := by
  have past : ∀ {deviceId : Uuid} {q : Task}, who h = some (deviceId, teamId) → Read h teamId q →
      q.id = r.id → (∃ deviceId, who h = some (deviceId, teamId)) ∧ r.teamId = teamId := by
    intro deviceId q hw hq hqid
    obtain ⟨s₀, -, hR, hq₀, hteam, -⟩ := hq.past hh
    exact ⟨⟨deviceId, hw⟩, (hR.teamId_eq hq₀ hr hqid).symm.trans hteam⟩
  cases hs with
  | assign hw _ hc =>
    obtain ⟨e, s₀, -, ha, hR⟩ := hh _ hc
    exact ⟨⟨_, hw⟩, (hR.teamId_eq (Database.createTask_eq_ok ha.symm) hr hid).symm⟩
  | claim hw hq => exact past hw hq hid
  | progress hw hq => exact past hw hq hid
  | complete hw hq => exact past hw hq hid

variable [AuthDeps]

/-- The step lemma: a call of a handler that acts for no other team leaves the rows of the other teams
alone. -/
theorem foreign_step {key : SessionKey} {msg : ClientMessage} {teamId : Uuid} {o : Op} {e : Env}
    (ha : Allowed (.text key msg) h o) (hh : Answered Server.act (fun _ => True) Persists s h)
    (hw : ∀ p ∈ who h, p.2 = teamId) : (s.act o e).2.foreign teamId = s.foreign teamId := by
  unfold Server.foreign
  rcases act_tasks o e s with hs | ⟨task, teamId', rfl, -, -, hs⟩ | ⟨task, teamId', rfl, -, hs⟩ |
    ⟨id, rfl, -, -⟩
  · rw [hs]
  · obtain ⟨_, _, _, _, _, -, hw', -⟩ := ha
    obtain rfl := hw _ hw'
    simp [hs]
  · rw [hs, List.filter_map]
    -- the row that is written belongs to the team, so no other row changes
    have hmem : ∀ r ∈ s.tasks, r.id = task.id → r.teamId = teamId := fun r hr hid => by
      obtain ⟨⟨_, hw'⟩, hteam⟩ := Stores.teamId_eq ha hh hr hid.symm
      exact hteam.trans (hw _ hw')
    have hkeep : ((fun r : Task => decide (r.teamId ≠ teamId)) ∘ fun r : Task =>
        if r.id = task.id then r.overwrite task else r) = fun r => decide (r.teamId ≠ teamId) := by
      funext r
      simp only [Function.comp]
      split <;> rfl
    rw [hkeep]
    refine (List.map_congr_left fun r hr => ?_).trans (List.map_id _)
    obtain ⟨hr, hne⟩ := List.mem_filter.1 hr
    rw [decide_eq_true_eq] at hne
    exact if_neg fun hid => hne (hmem r hr hid)
  · cases ha.1

/-- Whatever runs, no row is deleted or changes its identity; a step of a message handler that acts for
team `A` leaves the rows of the other teams as they are; and so does a run of such handlers. -/
theorem team_isolation (s : Server) (as : List (Step Job Env)) :
    Persists s (s.run as).state ∧
      (∀ y ∈ s.trace as, ∀ x ∈ y.1.issued y.2, ∀ deviceId A, x.job.isMessage →
        who x.hist = some (deviceId, A) →
          (y.1.step Job.code Server.act y.2).state.foreign A = y.1.state.foreign A) ∧
      ∀ A, (∀ y ∈ s.trace as, ∀ x ∈ y.1.issued y.2, x.job.isMessage ∧ ∀ p ∈ who x.hist, p.2 = A) →
        (s.run as).state.foreign A = s.foreign A := by
  have hcall : ∀ y ∈ s.trace as, ∀ x ∈ y.1.issued y.2, ∀ A, x.job.isMessage →
      (∀ p ∈ who x.hist, p.2 = A) → (y.1.state.act x.op x.env).2.foreign A = y.1.state.foreign A := by
    intro y hy x hx A hj hw
    obtain ⟨key, msg, hj⟩ := Job.isMessage_iff.1 hj
    obtain ⟨ha, hh⟩ := (Persists.grounded hy).allowed hx
    exact foreign_step (hj ▸ ha) hh hw
  refine ⟨?_, fun y hy x hx deviceId A hj hw => ?_, fun A hA => ?_⟩
  · exact Pool.run_keeps (K := Persists s) as
      (fun y _ x _ h => Persists.trans _ _ _ h (Persists.act _ _ _)) (Persists.refl s)
  · rcases Pool.step_state Job.code Server.act y.1 y.2 with ⟨hn, -⟩ | ⟨x', hx', hst⟩
    · simp [hn] at hx
    · obtain rfl : x = x' := Option.some.inj (hx.symm.trans hx')
      rw [hst]
      exact hcall y hy x hx A hj (by simp [hw])
  · refine Pool.run_keeps (K := fun s' : Server => s'.foreign A = s.foreign A) as
      (fun y hy x hx h => ?_) rfl
    obtain ⟨hj, hw⟩ := hA y hy x hx
    exact (hcall y hy x hx A hj hw).trans h

end

namespace Sample

def foreignTask : Task := { Task.new 8 0 "v" 20 3 with status := .queued }

def serverOfTwoTeams : Server :=
  { server with db := { server.db with
      teams := server.db.teams.put ⟨20, "other", "edoc", 0⟩
      tasks := Table.empty.put foreignTask } }

theorem team_isolation_serverOfTwoTeams :
    (serverOfTwoTeams.run claimInTurn).state.tasks.map (·.status) = [.queued, .claimed] ∧
      (serverOfTwoTeams.run claimInTurn).state.foreign 10 = [foreignTask] :=
  ⟨by decide +kernel, (team_isolation serverOfTwoTeams claimInTurn).2.2 10 (by decide +kernel)⟩

end Sample

end XVideoDownloader
