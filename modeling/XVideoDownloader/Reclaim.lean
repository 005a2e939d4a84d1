import XVideoDownloader.LocalQueue

/-!
# Claiming a completed task again

`claim_task` looks at the status, and so a task that `mark_complete` has marked is refused. Every other operation
leaves the status of a marked task as it is, except `update_status_to_queued`, which sets `Queued` whatever the status
is: a completed task stays completed exactly as long as that is not called for it (`final_iff`).
-/

namespace XVideoDownloader
open Lib
namespace LocalQueue

variable {q q' : LocalQueue} {id taskId : Uuid} {t : LocalTask} {tasks tasks' : List LocalTask} {o : Op}
  {f : LocalTask → Except String LocalTask}

theorem find?_modifyFirst (hf : ∀ t t', f t = .ok t' → t'.id = t.id) (h : modifyFirst taskId f tasks = .ok tasks') :
    (∃ t t', tasks.find? (fun t => t.id = taskId) = some t ∧ f t = .ok t' ∧
      tasks'.find? (fun t => t.id = taskId) = some t') ∧
    ∀ id, id ≠ taskId → tasks'.find? (fun t => t.id = id) = tasks.find? (fun t => t.id = id) := by
  induction tasks generalizing tasks' with
  | nil => simp [modifyFirst] at h
  | cons u tasks ih =>
    rw [modifyFirst] at h
    by_cases hu : u.id = taskId
    · rw [if_pos hu] at h
      rcases hfu : f u with e | u'
      · simp [hfu, Except.map] at h
      · have hu' := hf u u' hfu
        simp only [hfu, Except.map, Except.ok.injEq] at h
        subst h
        refine ⟨⟨u, u', ?_, hfu, ?_⟩, fun id hid => ?_⟩
        · exact List.find?_cons_of_pos (by simpa using hu)
        · exact List.find?_cons_of_pos (by simpa [hu'] using hu)
        · rw [List.find?_cons_of_neg (by simpa [hu', hu] using Ne.symm hid),
            List.find?_cons_of_neg (by simpa [hu] using Ne.symm hid)]
    · rw [if_neg hu] at h
      rcases hm : modifyFirst taskId f tasks with e | tasks₁
      · simp [hm, Except.map] at h
      · simp only [hm, Except.map, Except.ok.injEq] at h
        subst h
        obtain ⟨⟨t, t', ht, hft, ht'⟩, hother⟩ := ih hm
        refine ⟨⟨t, t', ?_, hft, ?_⟩, fun id hid => ?_⟩
        · rw [List.find?_cons_of_neg (by simpa using hu), ht]
        · rw [List.find?_cons_of_neg (by simpa using hu), ht']
        · rw [List.find?_cons, List.find?_cons, hother id hid]

/-- A change of one task is seen at its id, and at no other id. -/
theorem getTask_modifyTask (hf : ∀ t t', f t = .ok t' → t'.id = t.id) (h : q.modifyTask taskId f = .ok q')
    (ht : q.getTask id = some t) :
    ∃ t', q'.getTask id = some t' ∧ (id = taskId ∧ f t = .ok t' ∨ id ≠ taskId ∧ t' = t) := by
  rw [modifyTask] at h
  rcases hm : modifyFirst taskId f q.tasks with e | tasks'
  · simp [hm, Except.map] at h
  simp only [hm, Except.map, Except.ok.injEq] at h
  subst h
  obtain ⟨⟨u, u', hu, hfu, hu'⟩, hother⟩ := find?_modifyFirst hf hm
  by_cases hid : id = taskId
  · subst hid
    cases hu.symm.trans ht
    exact ⟨u', hu', .inl ⟨rfl, hfu⟩⟩
  · exact ⟨t, (hother id hid).trans ht, .inr ⟨hid, rfl⟩⟩

/-- `get_task` finds a completed task. -/
def Completed (q : LocalQueue) (taskId : Uuid) : Prop := ∃ t, q.getTask taskId = some t ∧ t.status = .complete

/-- A change of one task that keeps it completed, where it is this one, keeps what `get_task` finds completed. -/
theorem Completed.modifyTask (hq : q.Completed id) (hf : ∀ t t', f t = .ok t' → t'.id = t.id)
    (hcomplete : ∀ t t', f t = .ok t' → id = taskId → t.status = .complete → t'.status = .complete)
    (h : q.modifyTask taskId f = .ok q') : q'.Completed id := by
  obtain ⟨t, ht, hstatus⟩ := hq
  obtain ⟨t', ht', ⟨hid, hft⟩ | ⟨-, rfl⟩⟩ := getTask_modifyTask hf h ht
  · exact ⟨t', ht', hcomplete t t' hft hid hstatus⟩
  · exact ⟨t', ht', hstatus⟩

theorem Completed.pushTask {task : LocalTask} (hq : q.Completed id) (h : q.pushTask task = .ok q') :
    q'.Completed id := by
  obtain ⟨t, ht, hstatus⟩ := hq
  rw [LocalQueue.pushTask] at h
  split at h
  · cases h
  · cases h
    refine ⟨t, ?_, hstatus⟩
    show List.find? _ (q.tasks ++ _) = some t
    rw [List.find?_append, show q.tasks.find? _ = some t from ht]
    rfl

/-- What an operation other than `sync_from_server` makes of a completed task: it stays completed, unless it is made
to wait again. -/
theorem Op.completed_edit (hsync : ∀ tasks, o ≠ .syncFromServer tasks) (hqueued : o ≠ .updateStatusToQueued taskId)
    (h : o.edit q = .ok q') (hq : q.Completed taskId) : q'.Completed taskId := by
  cases o with
  | addTask url id now => exact hq.pushTask h
  | claimTask id now => exact hq.modifyTask (by grind) (by grind) h
  | updateProgress id progress => exact hq.modifyTask (by grind) (by grind) h
  | markComplete id localPath fileSize => exact hq.modifyTask (by grind) (by grind) h
  | updateStatusToQueued id => exact hq.modifyTask (by grind) (fun _ _ _ hid _ => absurd (hid ▸ rfl) hqueued) h
  | syncFromServer tasks => exact absurd rfl (hsync tasks)

/-- The task that is marked is completed. -/
theorem completed_markComplete {localPath : Path} {fileSize : Nat}
    (h : (Op.markComplete taskId localPath fileSize).edit q = .ok q') : q'.Completed taskId := by
  rcases modifyTask_cases q taskId with ⟨-, he⟩ | ⟨-, t, -, ht, -, -⟩
  · rw [Op.edit, he] at h
    cases h
  · obtain ⟨t', ht', ⟨-, hf⟩ | ⟨hne, -⟩⟩ := getTask_modifyTask (by grind) h ht
    · cases hf
      exact ⟨_, ht', rfl⟩
    · exact absurd rfl hne

/-- A task that the queue knows waits again, whatever its status was. -/
theorem not_completed_updateStatusToQueued (hq : q.Completed taskId) :
    ∃ q', (Op.updateStatusToQueued taskId).edit q = .ok q' ∧ ¬ q'.Completed taskId := by
  obtain ⟨t, ht, -⟩ := hq
  rcases modifyTask_cases q taskId with ⟨hnone, -⟩ | ⟨before, u, after, -, -, he⟩
  · cases hnone.symm.trans ht
  · have hedit : (Op.updateStatusToQueued taskId).edit q = _ := he fun task => .ok { task with status := .queued }
    refine ⟨_, hedit, ?_⟩
    rintro ⟨t', ht', hstatus⟩
    obtain ⟨u', hu', ⟨-, hf⟩ | ⟨hne, -⟩⟩ := getTask_modifyTask (by grind) hedit ht
    · cases hu'.symm.trans ht'
      cases hf
      cases hstatus
    · exact hne rfl

theorem claimTask_completed (hq : q.Completed taskId) (now : Time) :
    (Op.claimTask taskId now).edit q = .error "任务不可认领" := by
  obtain ⟨t, ht, hstatus⟩ := hq
  rcases modifyTask_cases q taskId with ⟨hnone, -⟩ | ⟨before, u, after, hu, -, he⟩
  · cases hnone.symm.trans ht
  · cases hu.symm.trans ht
    rw [Op.edit, he]
    simp [hstatus, Except.map]

variable [Codec (List LocalTask)] {s : State}

/-- The task is completed, and claiming it at this moment fails. -/
structure State.Final (s : State) (taskId : Uuid) : Prop where
  complete : s.queue.Completed taskId
  refused : ∀ now io, ∃ e, ((Op.claimTask taskId now).run io s.queue s.file).1 = .error e

theorem State.final_of_completed (h : s.queue.Completed taskId) : s.Final taskId := by
  refine ⟨h, fun now io => ⟨"任务不可认领", ?_⟩⟩
  rw [Op.run, commit_of_error (claimTask_completed h now)]
  rfl

/-- A call of an operation other than `sync_from_server`. -/
def Event.IsLocal : Event → Prop
  | .call o _ => ∀ tasks, o ≠ .syncFromServer tasks
  | .reopen .. => False

/-- From a successful `mark_complete` on, in every sequence of operations that does not synchronise, whatever saves
fail: the task stays completed and cannot be claimed if and only if no `update_status_to_queued` is called for it. -/
theorem final_iff {localPath : Path} {fileSize : Nat} {io : Io} {a : Option LocalTask} {xs : List Event}
    (h : ((Op.markComplete taskId localPath fileSize).run io s.queue s.file).1 = .ok a)
    (hlocal : ∀ x ∈ xs, x.IsLocal) :
    (∀ before after, xs = before ++ after →
        ((s.step (.call (.markComplete taskId localPath fileSize) io)).after before).Final taskId) ↔
      ∀ x ∈ xs, ∀ io', x ≠ .call (.updateStatusToQueued taskId) io' := by
  have hmarked : (s.step (.call (.markComplete taskId localPath fileSize) io)).queue.Completed taskId := by
    obtain ⟨q', json, hedit, -, hrun⟩ := Op.run_ok h
    show Completed ((Op.markComplete taskId localPath fileSize).run io s.queue s.file).2.1 taskId
    rw [hrun]
    exact completed_markComplete hedit
  generalize s.step (.call (.markComplete taskId localPath fileSize) io) = s₁ at hmarked ⊢
  constructor
  · rintro hfinal _ hx io' rfl
    obtain ⟨before, after, rfl⟩ := List.append_of_mem hx
    have hbefore := (hfinal before _ rfl).complete
    have hafter := (hfinal (before ++ [.call (.updateStatusToQueued taskId) io']) after (by simp)).complete
    obtain ⟨q', hedit, hnot⟩ := not_completed_updateStatusToQueued hbefore
    -- the status is changed even where the save fails
    have hstep : ((s₁.after before).step (.call (.updateStatusToQueued taskId) io')).queue = q' := by
      show (commit _ _ _ _).2.1 = q'
      rw [commit_of_ok hedit]
    rw [State.after_concat, hstep] at hafter
    exact hnot hafter
  · intro hnot before after hxs
    refine State.final_of_completed
      (prefix_induction (P := fun before => (s₁.after before).queue.Completed taskId) hmarked ?_ before after hxs)
    rintro before x after rfl ih
    rw [State.after_concat]
    have hx : x ∈ before ++ x :: after := by simp
    rcases x with ⟨o, io'⟩ | ⟨deviceId, teamId, read⟩
    · refine commit_invariant (J := fun q : LocalQueue => q.Completed taskId) ih fun q' hedit => ?_
      exact o.completed_edit (hlocal _ hx) (fun ho => hnot _ hx io' (by rw [ho])) hedit ih
    · exact (hlocal _ hx).elim

end LocalQueue

namespace Sample
open LocalQueue

/-- The text of the one task of a queue, from its status on. -/
def oneTaskText (status claim file : String) : String :=
  "[\n  \x7b\n    \"id\": \"00000000-0000-0000-0000-000000000007\",\n" ++
  "    \"team_id\": \"00000000-0000-0000-0000-00000000000a\",\n    \"url\": \"u\",\n    \"status\": " ++ status ++
  ",\n" ++ claim ++ "    \"progress\": 0.0,\n" ++ file ++
  "    \"created_by\": \"00000000-0000-0000-0000-000000000001\",\n" ++
  "    \"created_at\": \"1970-01-01T00:00:00Z\",\n    \"version\": 1\n  \x7d\n]"

def completeTask : LocalTask := { newTask with status := .complete, localPath := some [0x2F, 0x76], fileSize := some 9 }

def requeuedTask : LocalTask := { completeTask with status := .queued }

def reclaimedTask : LocalTask :=
  { completeTask with status := .claimed, claimedBy := some 1, claimedAt := some 0 }

def unclaimedText : String := "    \"claimed_by\": null,\n    \"claimed_at\": null,\n"

def claimedText : String :=
  "    \"claimed_by\": \"00000000-0000-0000-0000-000000000001\",\n    \"claimed_at\": \"1970-01-01T00:00:00Z\",\n"

def localFileText : String := "    \"local_path\": \"/v\",\n    \"file_size\": 9,\n"

/-- The lists of the run, and what `serde_json` writes for them. -/
def reclaimTexts : List (List LocalTask × String) :=
  [([completeTask], oneTaskText "\"Complete\"" unclaimedText localFileText),
    ([requeuedTask], oneTaskText "\"Queued\"" unclaimedText localFileText),
    ([reclaimedTask], oneTaskText "\"Claimed\"" claimedText localFileText)]

abbrev reclaimCodec : Codec (List LocalTask) where
  encode tasks := ((reclaimTexts.find? fun e => e.1 = tasks).map (·.2)).elim (.error "another list") .ok
  decode json := ((reclaimTexts.find? fun e => e.2 = json).map (·.1)).elim (.error "another text") .ok

def waiting : State := ⟨⟨[newTask], 10, 1⟩, none⟩

def marked : State := @State.step reclaimCodec waiting (.call (.markComplete 7 [0x2F, 0x76] 9) working)

/-- The completed task is made to wait again. -/
def requeued : List Event := [.call (.updateProgress 7 0) working, .call (.updateStatusToQueued 7) working]

theorem not_final_requeued :
    (@Op.run reclaimCodec (.markComplete 7 [0x2F, 0x76] 9) working waiting.queue waiting.file).1 = .ok none ∧
      (∀ x ∈ requeued, x.IsLocal) ∧
      (@Op.run reclaimCodec (.claimTask 7 0) working (@State.after reclaimCodec marked requeued).queue
        (@State.after reclaimCodec marked requeued).file).1 = .ok none ∧
      ¬ @State.Final reclaimCodec (@State.after reclaimCodec marked requeued) 7 := by
  refine ⟨rfl, by simp [requeued, Event.IsLocal], rfl, ?_⟩
  rintro ⟨-, hrefused⟩
  obtain ⟨e, he⟩ := hrefused 0 working
  cases he

/-- Without that call it cannot be claimed again. -/
theorem final_iff_progressed :
    (∀ before after, [Event.call (.updateProgress 7 0) working] = before ++ after →
        @State.Final reclaimCodec (@State.after reclaimCodec marked before) 7) ↔
      ∀ x ∈ [Event.call (.updateProgress 7 0) working], ∀ io', x ≠ .call (.updateStatusToQueued 7) io' :=
  @final_iff 7 reclaimCodec waiting [0x2F, 0x76] 9 working none _ rfl (by simp [Event.IsLocal])

end Sample

end XVideoDownloader
