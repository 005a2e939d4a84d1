import XVideoDownloader.Consistent

/-!
# Exclusive claims

`handle_claim_task` reads the table, tests the status of what it has read and then stores: between the
two calls another claim may be stored. `ClaimsExclusive` is what claims should guarantee; a run has it if
every claim still finds its task queued when it is stored, for only a release makes a task queued again.
-/

namespace XVideoDownloader
open Lib

/-- The task and the device of the claim that the step stores, if it stores one. -/
def claimStored (y : Event) : Option (Uuid × Uuid) :=
  match y.1.issued y.2 with
  | some ⟨.text _ (.claimTask _), _, .updateTask task _, ⟨_, _, _, none⟩⟩ =>
    task.claimedBy.map fun deviceId => (task.id, deviceId)
  | _ => none

/-- What `handle_claim_task` tells the team. The message of `handle_add_task` to the one owner that the ring gives a URL
does not count. -/
def claimTold (y : Event) : Option (Uuid × Uuid) :=
  match y.1.issued y.2 with
  | some ⟨_, _, .broadcastToTeam _ (.taskClaimed taskId deviceId), _⟩ => some (taskId, deviceId)
  | _ => none

def taskReleased (y : Event) : Option Uuid :=
  match y.1.issued y.2 with
  | some ⟨_, _, .releaseTask id, ⟨_, _, _, none⟩⟩ => some id
  | _ => none

/-- Between two claims of one task there is a release of it, and so between the claims of two devices
that are both told that the task is theirs. -/
structure ClaimsExclusive (tr : List Event) : Prop where
  stored : ∀ id d d' l₁ x l₂ y l₃, tr = l₁ ++ x :: (l₂ ++ y :: l₃) → claimStored x = some (id, d) →
    claimStored y = some (id, d') → ∃ w ∈ l₂, taskReleased w = some id
  told : ∀ id d d' z z', z ∈ tr → z' ∈ tr → claimTold z = some (id, d) → claimTold z' = some (id, d') →
    d ≠ d' → ∃ l₁ x l₂ y l₃, tr = l₁ ++ x :: (l₂ ++ y :: l₃) ∧
      (claimStored x = some (id, d) ∧ claimStored y = some (id, d') ∨
        claimStored x = some (id, d') ∧ claimStored y = some (id, d)) ∧
      ∃ w ∈ l₂, taskReleased w = some id

/-- A claim that is stored still finds its task queued. -/
def ClaimMeetsQueued (y : Event) : Prop :=
  ∀ c ∈ claimStored y, (y.1.state.task? c.1).map (·.status) = some .queued

instance (y : Event) : Decidable (ClaimMeetsQueued y) :=
  inferInstanceAs (Decidable (∀ c ∈ claimStored y, _))

theorem claimStored_eq_some {y : Event} {id d : Uuid} (hy : claimStored y = some (id, d)) :
    ∃ x task teamId, y.1.issued y.2 = some x ∧ x.op = .updateTask task teamId ∧ x.env.fail = none ∧
      task.id = id ∧ task.claimedBy = some d := by
  unfold claimStored at hy
  split at hy
  · rename_i key id' h task teamId uuid code now hx
    obtain ⟨d', hd, he⟩ := Option.map_eq_some_iff.1 hy
    cases he
    exact ⟨_, task, teamId, hx, rfl, rfl, rfl, hd⟩
  · cases hy

section
variable [AuthDeps] [DefaultHasher] {s : Server} {as : List (Step Job Env)}

def Server.Taken (id : Uuid) (s : Server) : Prop := ∃ r ∈ s.tasks, r.id = id ∧ r.status ≠ .queued

theorem Server.Taken.step (hs : s.Consistent) {id : Uuid} {y : Event} (hy : y ∈ s.trace as)
    {x : Issue Op.Ans Job Env} (hx : y.1.issued y.2 = some x) (hn : taskReleased y ≠ some id)
    (h : y.1.state.Taken id) : (y.1.state.act x.op x.env).2.Taken id := by
  obtain ⟨r, hr, rfl, hq⟩ := h
  have hg := (hs.grounded hy).allowed hx
  obtain ⟨r', hr', hstep⟩ := act_tasks_forward (o := x.op) (e := x.env) hr
  refine ⟨r', hr', hstep.sameIdentity.id.symm, ?_⟩
  cases hstep with
  | same => exact hq
  | update ho hf hid =>
    rw [ho] at hg
    exact (Stores.consistent hg.1 hg.2).2
  | release ho hf =>
    obtain ⟨j, h, o, uuid, code, now, fail⟩ := x
    cases ho
    cases hf
    exact absurd (by simp [taskReleased, hx]) hn

theorem Server.Taken.of_claimStored {y : Event} {id d : Uuid} (hy : claimStored y = some (id, d))
    (hs : s.Consistent) (hmem : y ∈ s.trace as) (hq : ClaimMeetsQueued y) :
    (y.1.step Job.code Server.act y.2).state.Taken id := by
  obtain ⟨x, task, teamId, hx, ho, hf, rfl, hd⟩ := claimStored_eq_some hy
  have hg := (hs.grounded hmem).allowed hx
  rcases Pool.step_state Job.code Server.act y.1 y.2 with ⟨hn, -⟩ | ⟨x', hx', hst⟩
  · simp [hx] at hn
  obtain rfl : x = x' := Option.some.inj (hx.symm.trans hx')
  obtain ⟨r, hr, -⟩ := Option.map_eq_some_iff.1 (hq _ hy)
  obtain ⟨hr, hid⟩ := Server.task?_eq_some.1 hr
  rw [ho] at hst hg
  refine ⟨r.overwrite task, ?_, hid, (Stores.consistent hg.1 hg.2).2⟩
  rw [hst, Server.tasks_updateTask, if_pos hf]
  exact List.mem_map.2 ⟨r, hr, if_pos hid⟩

theorem claimTold_stored (hs : s.Consistent) {id d : Uuid} {z : Event} (hz : z ∈ s.trace as)
    (ht : claimTold z = some (id, d)) : ∃ y ∈ s.trace as, claimStored y = some (id, d) := by
  unfold claimTold at ht
  split at ht
  · rename_i j h teamId taskId deviceId e hx
    cases ht
    obtain ⟨key, task, teamId, rfl, hc, rfl, hd⟩ := ((hs.grounded hz).allowed hx).1
    obtain ⟨y, hy, ⟨j', h', o, uuid, code, now, fail⟩, hx', hj', hc'⟩ := Pool.hist_of_mem_trace hz hx hc
    cases hj'
    simp only [Sigma.mk.injEq] at hc'
    obtain ⟨rfl, hc'⟩ := hc'
    cases fail with
    | some m => cases eq_of_heq hc'
    | none => exact ⟨y, hy, by simp [claimStored, hx', hd]⟩
  · cases ht

/-- In every run in which each claim that is stored still finds its task queued, claims are exclusive. -/
theorem claims_exclusive (s : Server) (hs : s.Consistent) (as : List (Step Job Env))
    (hC : ∀ y ∈ s.trace as, ClaimMeetsQueued y) : ClaimsExclusive (s.trace as) := by
  have stored : ∀ id d d' l₁ x l₂ y l₃, s.trace as = l₁ ++ x :: (l₂ ++ y :: l₃) →
      claimStored x = some (id, d) → claimStored y = some (id, d') →
      ∃ w ∈ l₂, taskReleased w = some id := by
    intro id d d' l₁ x l₂ y l₃ htr hx hy
    by_contra hex
    have hno : ∀ w ∈ l₂, taskReleased w ≠ some id := fun w hw h => hex ⟨w, hw, h⟩
    have hmem : ∀ w, w = x ∨ w ∈ l₂ ∨ w = y → w ∈ s.trace as := by
      intro w hw
      rw [htr]
      rcases hw with rfl | hw | rfl <;> simp [*]
    obtain ⟨bs, hbs, hrun⟩ := Pool.trace_eq_between Job.code Server.act _ htr
    -- the task is taken from the first claim on, and so it is when the second is stored
    have htaken : y.1.state.Taken id := by
      rw [← hrun]
      refine Pool.run_keeps bs (fun w hw x' hx' h => ?_)
        (.of_claimStored hx hs (hmem x (.inl rfl)) (hC x (hmem x (.inl rfl))))
      rw [hbs] at hw
      exact h.step hs (hmem w (.inr (.inl hw))) hx' (hno w hw)
    obtain ⟨r, hr, hid, hq⟩ := htaken
    obtain ⟨r', hr', hq'⟩ := Option.map_eq_some_iff.1 (hC y (hmem y (.inr (.inr rfl))) _ hy)
    obtain ⟨hr', hid'⟩ := Server.task?_eq_some.1 hr'
    rw [Server.eq_of_id hr' hr (hid'.trans hid.symm)] at hq'
    exact hq hq'
  refine ⟨stored, fun id d d' z z' hz hz' ht ht' hne => ?_⟩
  obtain ⟨x, hx, hxs⟩ := claimTold_stored hs hz ht
  obtain ⟨y, hy, hys⟩ := claimTold_stored hs hz' ht'
  obtain ⟨l, r, hlr⟩ := List.append_of_mem hx
  rw [hlr] at hy
  rcases List.mem_append.1 hy with hy | hy
  · obtain ⟨l₁, l₂, rfl⟩ := List.append_of_mem hy
    have htr : s.trace as = l₁ ++ y :: (l₂ ++ x :: r) := by simp [hlr]
    exact ⟨l₁, y, l₂, x, r, htr, .inr ⟨hys, hxs⟩, stored id d' d l₁ y l₂ x r htr hys hxs⟩
  · rcases List.mem_cons.1 hy with rfl | hy
    · exact absurd (by simpa [hxs] using hys) hne
    · obtain ⟨l₁, l₂, rfl⟩ := List.append_of_mem hy
      exact ⟨l, x, l₁, y, l₂, hlr, .inl ⟨hxs, hys⟩, stored id d d' l x l₁ y l₂ hlr hxs hys⟩

end

namespace Sample

def claimAgain : List (Step Job Env) :=
  [.spawn (.text 101 (.addTask "u"))] ++ resume 0 6 0 ++ [.spawn (.text 101 (.claimTask 7))] ++
    resume 1 5 0 ++ [.spawn .sweep] ++ resume 2 5 300000000000 ++
    [.spawn (.text 102 (.claimTask 7))] ++ resume 3 5 300000000000

theorem claims_exclusive_claimAgain :
    (server.trace claimAgain).filterMap claimStored = [(7, 1), (7, 2)] ∧
      ClaimsExclusive (server.trace claimAgain) :=
  ⟨by decide +kernel,
    claims_exclusive server (fun _ h => absurd h List.not_mem_nil) claimAgain (by decide +kernel)⟩

/-- Both devices claim the task, and each reads the table before the other stores. -/
def claimAtOnce : List (Step Job Env) :=
  [.spawn (.text 101 (.addTask "u"))] ++ resume 0 6 0 ++
    [.spawn (.text 101 (.claimTask 7)), .spawn (.text 102 (.claimTask 7))] ++
    resume 1 2 0 ++ resume 2 2 0 ++ resume 1 3 0 ++ resume 2 3 0

theorem not_claims_exclusive_claimAtOnce :
    (server.trace claimAtOnce).filterMap claimStored = [(7, 1), (7, 2)] ∧
      (server.trace claimAtOnce).filterMap claimTold = [(7, 1), (7, 2)] ∧
      (server.trace claimAtOnce).filterMap taskReleased = [] ∧
      ¬ ClaimsExclusive (server.trace claimAtOnce) := by
  have hs : (server.trace claimAtOnce).filterMap claimStored = [(7, 1), (7, 2)] := by decide +kernel
  have hr : (server.trace claimAtOnce).filterMap taskReleased = [] := by decide +kernel
  refine ⟨hs, by decide +kernel, hr, fun h => ?_⟩
  obtain ⟨l₁, x, r, htr, -, hx, hr₁⟩ := List.filterMap_eq_cons_iff.1 hs
  obtain ⟨l₂, y, l₃, rfl, -, hy, -⟩ := List.filterMap_eq_cons_iff.1 hr₁
  obtain ⟨w, hw, hrel⟩ := h.stored 7 1 2 l₁ x l₂ y l₃ htr hx hy
  have hw' : w ∈ server.trace claimAtOnce := by rw [htr]; simp [hw]
  exact absurd (List.filterMap_eq_nil_iff.1 hr w hw') (by simp [hrel])

end Sample

end XVideoDownloader
