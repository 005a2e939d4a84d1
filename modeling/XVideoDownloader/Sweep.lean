import XVideoDownloader.Consistent
import XVideoDownloader.AuthMessage

/-!
# The timeout sweep

`Swept` says what a sweep can do to the table whatever fails: some overdue tasks of the teams it goes
through are released, each once. When nothing fails it misses none of them (`exec_checkAllTaskTimeouts`).
But the teams it goes through are those of the `devices` table, so it is complete exactly when every
overdue task belongs to one of these.
-/

namespace XVideoDownloader
open Lib MessageHandler

/-- Claimed at least five minutes before `now`, and unfinished. -/
def Task.Overdue (now : Time) (r : Task) : Prop :=
  r.status = .claimed ∧ (∃ claimedAt ∈ r.claimedAt, 300000000000 ≤ now - claimedAt) ∧ r.progress < 1

instance (now : Time) (r : Task) : Decidable (r.Overdue now) :=
  inferInstanceAs (Decidable (_ ∧ (∃ claimedAt ∈ r.claimedAt, _) ∧ _))

theorem Task.not_overdue_released (now : Time) (r : Task) : ¬ r.released.Overdue now := by
  simp [Overdue, released]

/-- What a sweep that goes through `teams` and reads the clock of `ω` can make of a row. -/
def Task.SweepStep (ω : Stream' Env) (teams : List Uuid) (r r' : Task) : Prop :=
  r' = r ∨ r.teamId ∈ teams ∧ (∃ n, r.Overdue (ω.get n).now) ∧ r' = r.released

structure Swept (ω : Stream' Env) (teams : List Uuid) (s s' : Server) : Prop where
  forward : ∀ r ∈ s.tasks, ∃ r' ∈ s'.tasks, r.SweepStep ω teams r'
  backward : ∀ r' ∈ s'.tasks, ∃ r ∈ s.tasks, r.SweepStep ω teams r'

namespace Swept
variable {ω : Stream' Env} {teams : List Uuid} {s s' s'' : Server}

theorem of_tasks_eq (h : s'.tasks = s.tasks) : Swept ω teams s s' :=
  ⟨fun r hr => ⟨r, h ▸ hr, .inl rfl⟩, fun r hr => ⟨r, h ▸ hr, .inl rfl⟩⟩

theorem stepTrans {r r' r'' : Task} (h : r.SweepStep ω teams r') (h' : r'.SweepStep ω teams r'') :
    r.SweepStep ω teams r'' := by
  rcases h' with rfl | ⟨ht, ⟨n, ho⟩, rfl⟩
  · exact h
  · rcases h with rfl | ⟨-, -, rfl⟩
    · exact .inr ⟨ht, ⟨n, ho⟩, rfl⟩
    · exact absurd ho (Task.not_overdue_released _ _)

theorem trans (h : Swept ω teams s s') (h' : Swept ω teams s' s'') : Swept ω teams s s'' := by
  constructor
  · intro r hr
    obtain ⟨r', hr', h₁⟩ := h.forward r hr
    obtain ⟨r'', hr'', h₂⟩ := h'.forward r' hr'
    exact ⟨r'', hr'', stepTrans h₁ h₂⟩
  · intro r'' hr''
    obtain ⟨r', hr', h₂⟩ := h'.backward r'' hr''
    obtain ⟨r, hr, h₁⟩ := h.backward r' hr'
    exact ⟨r, hr, stepTrans h₁ h₂⟩

theorem of_release {q : Task} {n : Nat} (hq : q ∈ s.tasks) (hteam : q.teamId ∈ teams)
    (ho : q.Overdue (ω.get n).now)
    (hs : s'.tasks = s.tasks.map fun r => if r.id = q.id then r.released else r) :
    Swept ω teams s s' := by
  have hstep : ∀ r ∈ s.tasks, r.SweepStep ω teams (if r.id = q.id then r.released else r) := by
    intro r hr
    split
    · obtain rfl := Server.eq_of_id hr hq ‹_›
      exact .inr ⟨hteam, ⟨n, ho⟩, rfl⟩
    · exact .inl rfl
  obtain ⟨hforward, hbackward⟩ := exists_of_map hs hstep
  exact ⟨hforward, hbackward⟩

theorem of_drop {m : Nat} (h : Swept (ω.drop m) teams s s') : Swept ω teams s s' := by
  have hstep : ∀ r r' : Task, r.SweepStep (ω.drop m) teams r' → r.SweepStep ω teams r' := by
    rintro r r' (rfl | ⟨ht, ⟨n, ho⟩, rfl⟩)
    · exact .inl rfl
    · exact .inr ⟨ht, ⟨n + m, by rwa [Stream'.get_drop, Nat.add_comm] at ho⟩, rfl⟩
  exact ⟨fun r hr => (h.forward r hr).imp fun _ h => ⟨h.1, hstep _ _ h.2⟩,
    fun r hr => (h.backward r hr).imp fun _ h => ⟨h.1, hstep _ _ h.2⟩⟩

theorem mem_of_overdue (h : Swept ω teams s s') {r : Task} {now : Time} (hr : r ∈ s'.tasks)
    (ho : r.Overdue now) : r ∈ s.tasks := by
  obtain ⟨q, hq, rfl | ⟨-, -, rfl⟩⟩ := h.backward r hr
  · exact hq
  · exact absurd ho (Task.not_overdue_released _ _)

theorem mem_of_foreign (h : Swept ω teams s s') {r : Task} (hr : r ∈ s.tasks) (ht : r.teamId ∉ teams) :
    r ∈ s'.tasks := by
  obtain ⟨r', hr', rfl | ⟨ht', -⟩⟩ := h.forward r hr
  · exact hr'
  · exact absurd ht' ht

end Swept

def Calm (now : Time) (ω : Stream' Env) : Prop := ∀ n, (ω.get n).now = now ∧ (ω.get n).fail = none

theorem Calm.drop {now : Time} {ω : Stream' Env} (h : Calm now ω) (m : Nat) : Calm now (ω.drop m) :=
  fun n => by rw [Stream'.get_drop]; exact h _

theorem Calm.head_drop {now : Time} {ω : Stream' Env} (h : Calm now ω) (m : Nat) :
    (ω.drop m).head.now = now ∧ (ω.drop m).head.fail = none := by
  rw [Stream'.head_drop]
  exact h m

section
variable [DefaultHasher]

theorem exec_releaseOverdue (teamId : Uuid) (now : Time) (task : Task) (ω : Stream' Env) (s : Server) :
    ((releaseOverdue teamId now task).exec Server.act ω s).2.2.tasks =
      if ((∃ claimedAt ∈ task.claimedAt, 300000000000 ≤ now - claimedAt) ∧ task.progress < 1) ∧
          ω.head.fail = none then
        s.tasks.map fun r => if r.id = task.id then r.released else r
      else s.tasks := by
  unfold releaseOverdue
  cases hc : task.claimedAt with
  | none => simp
  | some claimedAt =>
    simp only [five_le_numMinutes]
    by_cases ho : 300000000000 ≤ now - claimedAt ∧ task.progress < 1
    · simp only [ho, and_self, if_true, call, Prog.exec_bind, Prog.exec_op]
      calc _ = (s.act (.releaseTask task.id) ω.head).2.tasks := by split <;> rfl
        _ = _ := by rw [Server.tasks_releaseTask]; simp [ho.1]
    · simp [ho]

/-- The rows `rest` of team `teamId` that the rounds still to come go through. -/
structure ToSweep (ω : Stream' Env) (teams : List Uuid) (teamId : Uuid) (s : Server) (rest : List Task)
    (ω' : Stream' Env) (s' : Server) : Prop where
  suffix : ∃ m, ω' = ω.drop m
  swept : Swept ω teams s s'
  distinct : rest.Pairwise fun q r => q.id ≠ r.id
  stored : ∀ q ∈ rest, q ∈ s'.tasks ∧ q.teamId = teamId ∧ q.status = .claimed
  complete : ∀ now, Calm now ω → ∀ r ∈ s'.tasks, r.Overdue now → r.teamId = teamId → r ∈ rest

theorem ToSweep.step {ω ω' : Stream' Env} {teams : List Uuid} {teamId : Uuid} {s s' : Server} {q : Task}
    {rest : List Task} {n : Nat} (ht : teamId ∈ teams) (h : ToSweep ω teams teamId s (q :: rest) ω' s') :
    ToSweep ω teams teamId s rest ((releaseOverdue teamId (ω.get n).now q).exec Server.act ω' s').2.1
      ((releaseOverdue teamId (ω.get n).now q).exec Server.act ω' s').2.2 := by
  obtain ⟨⟨m, rfl⟩, hsw, hdist, hst, hcomp⟩ := h
  obtain ⟨hne, hdist⟩ := List.pairwise_cons.1 hdist
  obtain ⟨hq, hteam, hcl⟩ := hst q List.mem_cons_self
  obtain ⟨k, hk⟩ := Prog.exec_drop Server.act (releaseOverdue teamId (ω.get n).now q) (ω.drop m) s'
  have hsuf : ∃ m', ((releaseOverdue teamId (ω.get n).now q).exec Server.act (ω.drop m) s').2.1 =
      ω.drop m' := ⟨m + k, by rw [hk, Stream'.drop_drop]⟩
  have htasks := exec_releaseOverdue teamId (ω.get n).now q (ω.drop m) s'
  split at htasks
  · rename_i hcond
    have hstep : Swept ω teams s' _ := Swept.of_release hq (hteam ▸ ht) ⟨hcl, hcond.1⟩ htasks
    refine ⟨hsuf, hsw.trans hstep, hdist, fun p hp => ⟨?_, (hst p (List.mem_cons_of_mem _ hp)).2⟩,
      fun now hω r hr ho hrt => ?_⟩
    · rw [htasks]
      exact List.mem_map.2 ⟨p, (hst p (List.mem_cons_of_mem _ hp)).1, if_neg (hne p hp).symm⟩
    · refine (List.mem_cons.1 (hcomp now hω r (hstep.mem_of_overdue hr ho) ho hrt)).resolve_left ?_
      rintro rfl
      rw [htasks] at hr
      obtain ⟨r₀, -, hr₀⟩ := List.mem_map.1 hr
      split at hr₀
      · exact Task.not_overdue_released now r₀ (hr₀ ▸ ho)
      · exact absurd (congrArg Task.id hr₀) ‹_›
  · rename_i hcond
    refine ⟨hsuf, hsw.trans (.of_tasks_eq htasks), hdist,
      fun p hp => ⟨htasks ▸ (hst p (List.mem_cons_of_mem _ hp)).1, (hst p (List.mem_cons_of_mem _ hp)).2⟩,
      fun now hω r hr ho hrt => ?_⟩
    refine (List.mem_cons.1 (hcomp now hω r (htasks ▸ hr) ho hrt)).resolve_left ?_
    rintro rfl
    exact hcond ⟨by rw [(hω n).1]; exact ho.2, (hω.head_drop m).2⟩

/-- One team of a sweep: what it does to the table, and that it misses no overdue task of the team when
nothing fails. -/
theorem exec_checkTaskTimeouts {teams : List Uuid} {teamId : Uuid} (ht : teamId ∈ teams) (ω : Stream' Env)
    (s : Server) :
    Swept ω teams s ((checkTaskTimeouts teamId).exec Server.act ω s).2.2 ∧
      ∀ now, Calm now ω → ∀ r ∈ ((checkTaskTimeouts teamId).exec Server.act ω s).2.2.tasks,
        r.Overdue now → r.teamId ≠ teamId := by
  simp only [checkTaskTimeouts, call, Prog.exec_bind, Prog.exec_op]
  cases hf : ω.head.fail with
  | some e =>
    have ha : Server.act (.getClaimedTasks teamId) ω.head s = (.error e, s) := by
      simp [Server.act, Server.onDb, Database.getClaimedTasks, Database.query, hf]
    rw [ha]
    exact ⟨.of_tasks_eq rfl, fun now hω => absurd ((hω 0).2.symm.trans hf) (by simp)⟩
  | none =>
    have ha : Server.act (.getClaimedTasks teamId) ω.head s =
        (.ok (s.tasks.filter fun r => r.teamId = teamId ∧ r.status = .claimed), s) := by
      simp [Server.act, Server.onDb, Database.getClaimedTasks, Database.query, hf, Server.tasks]
    rw [ha]
    simp only [Prog.exec_bind, Prog.exec_op]
    have hloop := Prog.exec_forM Server.act (ToSweep ω teams teamId s)
      (releaseOverdue teamId (ω.get 1).now) (fun q rest ω' s' h => ToSweep.step (n := 1) ht h)
      (s.tasks.filter fun r => r.teamId = teamId ∧ r.status = .claimed) ω.tail.tail s
      ⟨⟨2, rfl⟩, .of_tasks_eq rfl, (s.db.tasks.unique.imp fun h hid => h (.inl hid)).filter _,
        fun q hq => by simpa [and_assoc] using hq, fun now hω r hr ho hrt => by simp [hr, hrt, ho.1]⟩
    exact ⟨hloop.swept, fun now hω r hr ho hrt => List.not_mem_nil (hloop.complete now hω r hr ho hrt)⟩

theorem exec_checkAllTaskTimeouts (ω : Stream' Env) (s : Server) :
    ∃ teams, teams = (s.db.devices.rows.map (·.teamId)).dedup ∧
      Swept ω teams s (checkAllTaskTimeouts.exec Server.act ω s).2.2 ∧
      ∀ now, Calm now ω → ∀ r ∈ (checkAllTaskTimeouts.exec Server.act ω s).2.2.tasks, r.Overdue now →
        r.teamId ∉ teams := by
  refine ⟨_, rfl, ?_⟩
  simp only [checkAllTaskTimeouts, call, Prog.exec_bind, Prog.exec_op]
  cases hf : ω.head.fail with
  | some e =>
    have ha : Server.act .getAllTeamIds ω.head s = (.error e, s) := by
      simp [Server.act, Server.onDb, Database.getAllTeamIds, Database.query, hf]
    rw [ha]
    exact ⟨.of_tasks_eq rfl, fun now hω => absurd ((hω 0).2.symm.trans hf) (by simp)⟩
  | none =>
    have ha : Server.act .getAllTeamIds ω.head s =
        (.ok (s.db.devices.rows.map (·.teamId)).dedup, s) := by
      simp [Server.act, Server.onDb, Database.getAllTeamIds, Database.query, hf]
    rw [ha]
    generalize (s.db.devices.rows.map (·.teamId)).dedup = teams
    -- what is still overdue belongs to a team that the loop has not come to
    have hloop := Prog.exec_forM Server.act
      (fun rest ω' s' => (∃ m, ω' = ω.drop m) ∧ (∀ t ∈ rest, t ∈ teams) ∧ Swept ω teams s s' ∧
        ∀ now, Calm now ω → ∀ r ∈ s'.tasks, r.Overdue now → r.teamId ∈ teams → r.teamId ∈ rest)
      checkTaskTimeouts (fun t rest ω' s' h => ?_) teams ω.tail s
      ⟨⟨1, rfl⟩, fun _ h => h, .of_tasks_eq rfl, fun _ _ _ _ _ h => h⟩
    · exact ⟨hloop.2.2.1, fun now hω r hr ho ht => List.not_mem_nil (hloop.2.2.2 now hω r hr ho ht)⟩
    · obtain ⟨⟨m, rfl⟩, hsub, hsw, hcomp⟩ := h
      obtain ⟨k, hk⟩ := Prog.exec_drop Server.act (checkTaskTimeouts t) (ω.drop m) s'
      obtain ⟨hsw', hcomp'⟩ := exec_checkTaskTimeouts (hsub t List.mem_cons_self) (ω.drop m) s'
      refine ⟨⟨m + k, by rw [hk, Stream'.drop_drop]⟩, fun t' h => hsub t' (List.mem_cons_of_mem _ h),
        hsw.trans hsw'.of_drop, fun now hω r hr ho ht => ?_⟩
      have hne := hcomp' now (hω.drop m) r hr ho
      exact (List.mem_cons.1 (hcomp now hω r (hsw'.mem_of_overdue hr ho) ho ht)).resolve_left hne

/-- After a sweep at `now` in which nothing fails no overdue task is left, if and only if every overdue
task before it belongs to the team of some device row. -/
theorem sweep_complete_iff [AuthDeps] (s : Server) (now : Time) (ω : Stream' Env) (hω : Calm now ω) :
    (∀ r ∈ (s.handle (.sweep, ω)).tasks, ¬ r.Overdue now) ↔
      ∀ r ∈ s.tasks, r.Overdue now → ∃ d ∈ s.db.devices.rows, d.teamId = r.teamId := by
  obtain ⟨teams, rfl, hsw, hcomp⟩ := exec_checkAllTaskTimeouts ω s
  have hteams : ∀ t, t ∈ (s.db.devices.rows.map (·.teamId)).dedup ↔
      ∃ d ∈ s.db.devices.rows, d.teamId = t := fun t => by rw [List.mem_dedup, List.mem_map]
  constructor
  · intro h r hr ho
    rw [← hteams]
    by_contra ht
    exact h r (hsw.mem_of_foreign hr ht) ho
  · intro h r hr ho
    have hr₀ := hsw.mem_of_overdue hr ho
    exact hcomp now hω r hr ho ((hteams _).2 (h r hr₀ ho))

end

namespace Sample

def always (uuid : Uuid) (code : String) (t : Nat) : Stream' Env :=
  fun _ => ⟨uuid, code, t * 1000000000, none⟩

def claimedServer : Server :=
  server.handleAll [(.text 101 (.addTask "u"), always 7 "" 1000), (.text 101 (.claimTask 7), always 0 "" 1000)]

theorem sweep_complete_claimedServer :
    claimedServer.tasks.map (·.status) = [.claimed] ∧
      ∀ r ∈ (claimedServer.handle (.sweep, always 0 "" 1300)).tasks, ¬ r.Overdue 1300000000000 :=
  ⟨by decide +kernel, (sweep_complete_iff claimedServer 1300000000000 (always 0 "" 1300)
    fun _ => ⟨rfl, rfl⟩).2 (by decide +kernel)⟩

def connected : Server := { Server.new true with sessions := Table.empty.put ⟨101, 1, 0⟩ }

theorem handleAll_connect (xs : List (Job × Stream' Env)) :
    (Server.new true).handleAll ((.connect 101 firstMsg, always 0 "" 1000) :: xs) = connected.handleAll xs := by
  have h : (Server.new true).handle (.connect 101 firstMsg, always 0 "" 1000) = connected := by
    rw [Server.handle, Job.code, WsServer.handleConnection, authResult_firstMsg]
    decide +kernel
  rw [Server.handleAll, List.foldl_cons, h, Server.handleAll]

/-- Device 1 connects, creates two teams, and claims a task that it adds to the second one. -/
def secondTeam : List (Job × Stream' Env) :=
  [(.connect 101 firstMsg, always 0 "" 1000),
    (.text 101 (.createTeam "a"), always 10 "codeA" 1000), (.text 101 (.createTeam "b"), always 20 "codeB" 1000),
    (.text 101 (.addTask "u"), always 7 "" 1000), (.text 101 (.claimTask 7), always 0 "" 1000)]

theorem not_sweep_complete_secondTeam :
    ((Server.new true).handleAll secondTeam).db.devices.rows.map (·.teamId) = [10] ∧
      ¬ ∀ r ∈ (((Server.new true).handleAll secondTeam).handle (.sweep, always 0 "" 1300)).tasks,
        ¬ r.Overdue 1300000000000 := by
  rw [secondTeam, handleAll_connect]
  decide +kernel

end Sample

end XVideoDownloader
