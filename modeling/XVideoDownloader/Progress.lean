import XVideoDownloader.Conduct
import XVideoDownloader.Lib.Slices

/-!
# The range of the progress

`handle_update_progress` stores whatever number the claimant sends, before and after the task is complete. The
stored progress is in range as long as every report that is stored is (`Server.ReportInRange`).
-/

namespace XVideoDownloader
open Lib MessageHandler WsServer

/-- The progress is a share, and that of a complete task is 1. -/
def Task.ProgressInRange (r : Task) : Prop :=
  0 ≤ r.progress ∧ r.progress ≤ 1 ∧ (r.status = .complete → r.progress = 1)

instance (r : Task) : Decidable r.ProgressInRange := inferInstanceAs (Decidable (_ ∧ _))

theorem Task.progressInRange_zero {r : Task} (h : r.progress = 0) (hst : r.status ≠ .complete) :
    r.ProgressInRange := by
  rw [ProgressInRange, h]
  exact ⟨by decide, by decide, fun hc => absurd hc hst⟩

theorem Task.progressInRange_one {r : Task} (h : r.progress = 1) : r.ProgressInRange := by
  rw [ProgressInRange, h]
  exact ⟨by decide, by decide, fun _ => rfl⟩

def Server.ProgressInRange (s : Server) : Prop := ∀ r ∈ s.tasks, r.ProgressInRange

instance (s : Server) : Decidable s.ProgressInRange := inferInstanceAs (Decidable (∀ r ∈ s.tasks, _))

/-- The message is a report on the stored task `r` from its claimant. -/
def Task.ReportedBy (r : Task) (session : Session) (taskId : Uuid) : Prop :=
  r.id = taskId ∧ r.teamId = session.teamId ∧ r.claimedBy = some session.deviceId

instance (r : Task) (session : Session) (taskId : Uuid) : Decidable (r.ReportedBy session taskId) :=
  inferInstanceAs (Decidable (_ ∧ _))

/-- A report that is going to be stored, as neither reading the task nor writing it fails, is in range: a number
from 0 to 1, and 1 if the task is complete. -/
def Server.ReportInRange (s : Server) (x : Job × Stream' Env) : Prop :=
  ∀ key taskId progress, x.1 = .text key (.updateProgress taskId progress) →
    (x.2.get 1).fail = none → (x.2.get 2).fail = none →
      ∀ session, s.session key = some session → ∀ r ∈ s.tasks, r.ReportedBy session taskId →
        0 ≤ progress ∧ progress ≤ 1 ∧ (r.status = .complete → progress = 1)

section
variable [DefaultHasher] [AuthDeps] {s : Server} {key : SessionKey} {session : Session}

/-- A job that reads the session and then reports on a task changes the row it finds ready, and no other. -/
theorem tasks_of_reports {x : Job × Stream' Env} {teamId taskId : Uuid} {ready : Task → Prop} [DecidablePred ready]
    {new : Task → Task} {message : Task → ServerMessage} {e₀ e e' : Env} {l : Calls}
    (hcalls : s.calls x = ⟨s, .getSession key, e₀⟩ :: l) (hr : Reports s teamId taskId ready new message e e' l)
    (hnew : ∀ r : Task, r.SameIdentity (new r)) :
    (s.handle x).tasks =
      if e.fail = none ∧ e'.fail = none then
        s.tasks.map fun r => if r.id = taskId ∧ r.teamId = teamId ∧ ready r then new r else r
      else s.tasks := by
  rcases hr with ⟨q, hq, hid, hteam, hready, hf, hrep⟩ | ⟨hidle, hno⟩
  · -- the row that is overwritten is the row found
    have hmap : (s.tasks.map fun r => if r.id = (new q).id then r.overwrite (new q) else r) =
        s.tasks.map fun r => if r.id = taskId ∧ r.teamId = teamId ∧ ready r then new r else r := by
      refine List.map_congr_left fun r hr => ?_
      by_cases hrq : r.id = (new q).id
      · obtain rfl := Server.eq_of_id hr hq (hrq.trans (hnew q).id.symm)
        rw [if_pos hrq, if_pos ⟨hid, hteam, hready⟩, Task.overwrite_eq (hnew r)]
      · rw [if_neg hrq, if_neg fun h => hrq ((h.1.trans hid.symm).trans (hnew q).id)]
    rw [Server.handle_eq_last, hcalls]
    cases hrep with
    | failed hl hf' =>
      rw [if_neg fun h => hf' h.2, Calls.last_cons_append_cons, Calls.last_singleton, Server.tasks_updateTask,
        if_neg hf']
    | stored hl hf' =>
      rw [if_pos ⟨hf, hf'⟩, Calls.last_cons_append_cons, Calls.last_cons_cons, Calls.last_singleton]
      show (s.act (.updateTask (new q) teamId) e').2.tasks = _
      rw [Server.tasks_updateTask, if_pos hf', hmap]
  · have hread : Calls.Idle s [⟨s, .getSession key, e₀⟩] := .of_reads (.single s rfl e₀)
    have hsame : (s.handle x).tasks = s.tasks := Server.tasks_of_idle (hcalls ▸ hread.append hidle)
    rw [hsame]
    split
    · rename_i hf
      refine ((List.map_congr_left fun r hr => ?_).trans (List.map_id _)).symm
      rw [if_neg fun h => hno hf.1 r hr h.1 h.2.1 h.2.2]
      rfl
    · rfl

/-- A message on a connection without a session changes nothing. -/
theorem Server.tasks_of_no_session {msg : ClientMessage} {p : Session → M Unit}
    (hp : (Job.text key msg).code = do if let some session ← call (.getSession key) then p session)
    (hs : s.session key = none) (ω : Stream' Env) : (s.handle (.text key msg, ω)).tasks = s.tasks := by
  rw [Server.handle_eq_last, s.calls_text hp ω, hs]
  rfl

theorem Server.handle_updateProgress (hs : s.session key = some session) (taskId : Uuid) (progress : Rat)
    (ω : Stream' Env) :
    (s.handle (.text key (.updateProgress taskId progress), ω)).tasks =
      if (ω.get 1).fail = none ∧ (ω.get 2).fail = none then
        s.tasks.map fun r =>
          if r.ReportedBy session taskId then { r with progress := progress, version := r.version + 1 } else r
      else s.tasks :=
  tasks_of_reports
    (Server.calls_text_some (p := fun x => handleUpdateProgress x.deviceId x.teamId taskId progress) rfl hs ω)
    (calls_handleUpdateProgress s session.deviceId session.teamId taskId progress ω.tail)
    fun _ => ⟨rfl, rfl, rfl, rfl, rfl⟩

omit [AuthDeps] in
/-- Every change but a report leaves its row in range. -/
theorem Change.progressInRange {x : Job × Stream' Env} {k : Kind} {old : Option Task} {new : Task}
    (h : Change s x k old new) (hold : ∀ r, old = some r → r.ProgressInRange)
    (hx : ∀ key taskId progress, x.1 ≠ .text key (.updateProgress taskId progress)) : new.ProgressInRange := by
  cases h with
  | insertQueued => exact Task.progressInRange_zero rfl (by simp)
  | insertClaimed => exact Task.progressInRange_zero rfl (by simp)
  | claim =>
    obtain ⟨h0, h1, -⟩ := hold _ rfl
    exact ⟨h0, h1, fun h => by cases h⟩
  | progress => exact absurd rfl (hx _ _ _)
  | complete => exact Task.progressInRange_one rfl
  | release => exact Task.progressInRange_zero rfl (by simp [Task.released])

/-- One job: in range before, in range after exactly if the report, where the job is one, was. -/
theorem handle_progressInRange (hI : s.Consistent) (h : s.ProgressInRange) (x : Job × Stream' Env) :
    (s.handle x).ProgressInRange ↔ s.ReportInRange x := by
  obtain ⟨j, ω⟩ := x
  by_cases hj : ∃ key taskId progress, j = .text key (.updateProgress taskId progress)
  · obtain ⟨key, taskId, progress, rfl⟩ := hj
    cases hs : s.session key with
    | none =>
      have hsame : (s.handle (.text key (.updateProgress taskId progress), ω)).tasks = s.tasks :=
        Server.tasks_of_no_session (p := fun x => handleUpdateProgress x.deviceId x.teamId taskId progress) rfl hs ω
      refine ⟨?_, fun _ r hr => h r (hsame ▸ hr)⟩
      rintro - key' taskId' progress' ⟨⟩ - - session hsession
      cases hs.symm.trans hsession
    | some session =>
      have htasks := Server.handle_updateProgress hs taskId progress ω
      constructor
      · rintro hafter key' taskId' progress' ⟨⟩ hf hf' session' hsession r hr hby
        cases hs.symm.trans hsession
        rw [if_pos ⟨hf, hf'⟩] at htasks
        refine hafter { r with progress := progress, version := r.version + 1 } ?_
        rw [htasks]
        exact List.mem_map.2 ⟨r, hr, if_pos hby⟩
      · intro hreport r' hr'
        rw [htasks] at hr'
        split at hr'
        · rename_i hf
          obtain ⟨r, hr, rfl⟩ := List.mem_map.1 hr'
          split
          · exact hreport key taskId progress rfl hf.1 hf.2 session hs r hr ‹_›
          · exact h r hr
        · exact h r' hr'
  · have hj' : ∀ key taskId progress, j ≠ .text key (.updateProgress taskId progress) :=
      fun key taskId progress he => hj ⟨key, taskId, progress, he⟩
    refine ⟨fun _ key taskId progress he => absurd he (hj' key taskId progress), fun _ r' hr' => ?_⟩
    rcases (handle_changes hI (j, ω)).backward r' hr' with ⟨r, hr, rfl | ⟨k, hc⟩⟩ | ⟨-, k, hc⟩
    · exact h r' hr
    · refine hc.progressInRange ?_ hj'
      rintro r ⟨⟩
      exact h r hr
    · refine hc.progressInRange ?_ hj'
      rintro r ⟨⟩

/-- From an empty table, jobs handled one at a time: the progress is in range in every state that is reached
exactly if every report that is stored is in range. -/
theorem progress_in_range_iff (s : Server) (hs : s.tasks = []) (xs : List (Job × Stream' Env)) :
    (∀ as bs, xs = as ++ bs → (s.handleAll as).ProgressInRange) ↔
      ∀ as x bs, xs = as ++ x :: bs → (s.handleAll as).ReportInRange x := by
  constructor
  · rintro h as x bs rfl
    have hI := (Server.Consistent.of_empty hs).handleAll as
    have hafter := h (as ++ [x]) bs (by simp)
    rw [show s.handleAll (as ++ [x]) = (s.handleAll as).handle x by simp [Server.handleAll]] at hafter
    exact (handle_progressInRange hI (h as (x :: bs) rfl) x).1 hafter
  · intro h
    refine prefix_induction (P := fun as => (s.handleAll as).ProgressInRange) ?_ ?_
    · intro r hr
      have hr : r ∈ s.tasks := hr
      rw [hs] at hr
      cases hr
    · intro as x bs he hbefore
      have hI := (Server.Consistent.of_empty hs).handleAll as
      rw [show s.handleAll (as ++ [x]) = (s.handleAll as).handle x by simp [Server.handleAll]]
      exact (handle_progressInRange hI hbefore x).2 (h as x bs he)

end

namespace Sample

def addedAndClaimed : List (Job × Stream' Env) :=
  [(.text 101 (.addTask "u"), always 7 "" 1000), (.text 101 (.claimTask 7), always 0 "" 1000)]

def halfWay : Job × Stream' Env := (.text 101 (.updateProgress 7 (1 / 2)), always 0 "" 1000)

theorem progress_in_range_halfWay : (server.handleAll (addedAndClaimed ++ [halfWay])).ProgressInRange := by
  refine (progress_in_range_iff server rfl (addedAndClaimed ++ [halfWay])).2 ?_ _ [] (List.append_nil _).symm
  intro as x bs h
  rcases as with _ | ⟨a, _ | ⟨b, _ | ⟨c, as⟩⟩⟩
  · cases h
    rintro key taskId progress ⟨⟩
  · cases h
    rintro key taskId progress ⟨⟩
  · cases h
    rintro key taskId progress ⟨⟩ - - session - r hr -
    have hopen : ∀ r ∈ (server.handleAll addedAndClaimed).tasks, r.status ≠ .complete := by decide +kernel
    exact ⟨by decide +kernel, by decide +kernel, fun hc => absurd hc (hopen r hr)⟩
  · have := congrArg List.length h
    simp [addedAndClaimed] at this

/-- The claimant reports a progress of 3/2, and later a complete task that is half done. -/
theorem progress_out_of_range :
    ¬ (server.handleAll (addedAndClaimed ++ [(.text 101 (.updateProgress 7 (3 / 2)), always 0 "" 1000)])).ProgressInRange ∧
      ¬ (server.handleAll (addedAndClaimed ++ [(.text 101 (.taskComplete 7 "/d/u.mp4" 9), always 0 "" 1000),
        halfWay])).ProgressInRange := by
  decide +kernel

end Sample

end XVideoDownloader
