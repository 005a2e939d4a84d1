import XVideoDownloader.Consistent

/-!
# Completed tasks

`CompletionsFinal` says that a completed task stays completed, for the same device. A write can undo a
completion because it is made from a row that was read before: a run has the property if a write meets a
completed row only when its handler has read it as completed, or completes it for the same device.
-/

namespace XVideoDownloader
open Lib

def CompletionsFinal [AuthDeps] [DefaultHasher] (s : Server) (as : List (Step Job Env)) : Prop :=
  ∀ as₁ as₂, as = as₁ ++ as₂ → ∀ r ∈ (s.run as₁).state.tasks, r.status = .complete →
    ∃ r' ∈ (s.run as).state.tasks, r'.id = r.id ∧ r'.status = .complete ∧ r'.claimedBy = r.claimedBy

def Job.Completes : Job → Bool
  | text _ (.taskComplete ..) => true
  | _ => false

/-- A complete row is written only by a handler that has read it as complete, or that completes it and has
read it with the same claimant. -/
def WriteKeepsCompletion (y : Event) : Prop :=
  ∀ x ∈ y.1.issued y.2, ∀ r ∈ y.1.state.tasks, written x = some r.id → r.status = .complete →
    ∃ q ∈ rowsRead x.hist, q.id = r.id ∧
      (q.status = .complete ∨ x.job.Completes ∧ q.claimedBy = r.claimedBy)

instance (y : Event) : Decidable (WriteKeepsCompletion y) :=
  inferInstanceAs (Decidable (∀ x ∈ y.1.issued y.2, _))

def KeepsComplete (s s' : Server) : Prop :=
  ∀ r ∈ s.tasks, r.status = .complete →
    ∃ r' ∈ s'.tasks, r'.id = r.id ∧ r'.status = .complete ∧ r'.claimedBy = r.claimedBy

namespace KeepsComplete

theorem refl (s : Server) : KeepsComplete s s := fun r hr hs => ⟨r, hr, rfl, hs, rfl⟩

theorem trans (a b c : Server) (h : KeepsComplete a b) (h' : KeepsComplete b c) : KeepsComplete a c := by
  intro r hr hs
  obtain ⟨r₁, hr₁, hid₁, hs₁, hc₁⟩ := h r hr hs
  obtain ⟨r₂, hr₂, hid₂, hs₂, hc₂⟩ := h' r₁ hr₁ hs₁
  exact ⟨r₂, hr₂, hid₂.trans hid₁, hs₂, hc₂.trans hc₁⟩

theorem claimedBy_eq {s₀ s : Server} (h : KeepsComplete s₀ s) {q r : Task} (hq : q ∈ s₀.tasks)
    (hs : q.status = .complete) (hr : r ∈ s.tasks) (hid : q.id = r.id) : q.claimedBy = r.claimedBy := by
  obtain ⟨r', hr', hid', -, hc⟩ := h q hq hs
  rw [← hc, Server.eq_of_id hr' hr (hid'.trans hid)]

variable [AuthDeps] [DefaultHasher]

theorem step {S : Sys} {a : Step Job Env} {x : Issue Op.Ans Job Env}
    (hS : Grounded Server.act Allowed (fun _ => True) KeepsComplete S)
    (hC : WriteKeepsCompletion (S, a)) (hx : S.issued a = some x) :
    KeepsComplete S.state (S.state.act x.op x.env).2 := by
  intro r hr hs
  obtain ⟨r', hr', hstep⟩ := act_tasks_forward (o := x.op) (e := x.env) hr
  refine ⟨r', hr', hstep.sameIdentity.id.symm, ?_⟩
  rcases hstep.eq_or_written with rfl | hw
  · exact ⟨hs, rfl⟩
  obtain ⟨q, hq, hid, hcond⟩ := hC x hx r hr hw hs
  obtain ⟨ha, hh⟩ := hS.allowed hx
  obtain ⟨hb, s₀, -, hR, hq₀⟩ := ha.builds hh (hid ▸ hw) hq
  obtain ⟨j, h, o, e⟩ := x
  dsimp only at hb hcond hstep
  cases hb with
  | claim hqs => simp [hqs, Job.Completes] at hcond
  | release hqs => simp [hqs, Job.Completes] at hcond
  | progress hc =>
    have hqs : q.status = .complete := by simpa [Job.Completes] using hcond
    have hcl := hR.claimedBy_eq hq₀ hqs hr hid
    cases hstep with
    | same => exact ⟨hs, rfl⟩
    | update ho => cases ho; exact ⟨hqs, hcl⟩
    | release ho => cases ho
  | complete hc =>
    have hcl : q.claimedBy = r.claimedBy :=
      hcond.elim (fun hqs => hR.claimedBy_eq hq₀ hqs hr hid) fun h => h.2
    cases hstep with
    | same => exact ⟨hs, rfl⟩
    | update ho => cases ho; exact ⟨rfl, hcl⟩
    | release ho => cases ho

end KeepsComplete

section
variable [AuthDeps] [DefaultHasher]

/-- In every run whose writes all meet the condition, completed tasks stay completed. -/
theorem completions_final (s : Server) (as : List (Step Job Env))
    (hC : ∀ y ∈ s.trace as, WriteKeepsCompletion y) : CompletionsFinal s as := by
  rintro as₁ as₂ rfl
  exact Grounded.run_from (fun S a => WriteKeepsCompletion (S, a)) code_wp KeepsComplete.refl
    KeepsComplete.trans (fun _ _ _ hS hCa hx => ⟨trivial, KeepsComplete.step hS hCa hx⟩) as₁ as₂
    (.init trivial) hC

end

namespace Sample

def completeInTime : List (Step Job Env) :=
  [.spawn (.text 101 (.addTask "u"))] ++ resume 0 6 0 ++ [.spawn (.text 101 (.claimTask 7))] ++
    resume 1 5 0 ++ [.spawn (.text 101 (.taskComplete 7 "/d/u.mp4" 9))] ++ resume 2 4 0 ++
    [.spawn .sweep] ++ resume 3 3 360000000000

theorem completions_final_completeInTime :
    (server.run completeInTime).state.tasks.map (·.status) = [.complete] ∧
      CompletionsFinal server completeInTime :=
  ⟨by decide +kernel, completions_final server completeInTime (by decide +kernel)⟩

/-- As before, but the sweep has read the claimed tasks when the completion is stored. -/
def completeDuringSweep : List (Step Job Env) :=
  [.spawn (.text 101 (.addTask "u"))] ++ resume 0 6 0 ++ [.spawn (.text 101 (.claimTask 7))] ++
    resume 1 5 0 ++ [.spawn .sweep] ++ resume 2 3 360000000000 ++
    [.spawn (.text 101 (.taskComplete 7 "/d/u.mp4" 9))] ++ resume 3 4 360000000000

theorem not_completions_final_completeDuringSweep :
    (server.run completeDuringSweep).state.tasks.map (·.status) = [.complete] ∧
      (server.run (completeDuringSweep ++ resume 2 2 360000000000)).state.tasks.map (·.status) = [.queued] ∧
      ¬ CompletionsFinal server (completeDuringSweep ++ resume 2 2 360000000000) := by
  refine ⟨by decide +kernel, by decide +kernel, fun h => ?_⟩
  have h' := h completeDuringSweep (resume 2 2 360000000000) rfl
  revert h'
  decide +kernel

end Sample

end XVideoDownloader
