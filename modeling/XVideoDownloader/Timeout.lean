import XVideoDownloader.Lifecycle

/-!
# What the timeout measures

`check_task_timeouts` compares the clock with `claimed_at`, which is set when the task is claimed and by
nothing else. So a sweep that releases a task does so five minutes after the claim that the device holds
it by (`ClaimedSince`), however often the device has reported progress in between.
-/

namespace XVideoDownloader
open Lib

section
variable [AuthDeps] [DefaultHasher]

/-- Progress reports keep a task: the sweep `ω` after the jobs `xs` queues a claimed task again only if
every report that changed its row came five minutes before the sweep. -/
def KeptByReports (s : Server) (xs : List (Job × Stream' Env)) (ω : Stream' Env) : Prop :=
  ∀ id, ((s.handleAll xs).task? id).map (·.status) = some .claimed →
    (((s.handleAll xs).handle (.sweep, ω)).task? id).map (·.status) = some .queued →
    ∀ xs₁ x xs₂ key progress, xs = xs₁ ++ x :: xs₂ → x.1 = .text key (.updateProgress id progress) →
      ((s.handleAll xs₁).handle x).task? id ≠ (s.handleAll xs₁).task? id →
      ∀ m n, 300000000000 ≤ (ω.get m).now - (x.2.get n).now

/-- The job `x` between `xs₁` and `xs₂` makes `deviceId` the claimant of the task `id`, with its own
reading of the clock `claimedAt`, and the task is claimed so after every later job. -/
structure ClaimedSince (s : Server) (id deviceId : Uuid) (claimedAt : Time)
    (xs₁ : List (Job × Stream' Env)) (x : Job × Stream' Env) (xs₂ : List (Job × Stream' Env)) : Prop where
  made : ∃ k old new, Change (s.handleAll xs₁) x k old new ∧ (k = .claim ∨ k = .insertClaimed) ∧
    new.id = id ∧ new.claimedBy = some deviceId ∧ new.claimedAt = some claimedAt
  clock : ∃ n, claimedAt = (x.2.get n).now
  held : ∀ ys zs, xs₂ = ys ++ zs → ∃ q ∈ (s.handleAll (xs₁ ++ x :: ys)).tasks, q.id = id ∧
    q.status = .claimed ∧ q.claimedBy = some deviceId ∧ q.claimedAt = some claimedAt

variable {s : Server}

omit [AuthDeps] in
theorem Change.claimed_cases {x : Job × Stream' Env} {k : Kind} {old : Option Task} {new : Task}
    (h : Change s x k old new) (hnew : new.status = .claimed) :
    ((k = .claim ∨ k = .insertClaimed) ∧ ∃ deviceId n, new.claimedBy = some deviceId ∧
        new.claimedAt = some (x.2.get n).now) ∨
      ∃ q, old = some q ∧ q.status = .claimed ∧ new.claimedBy = q.claimedBy ∧
        new.claimedAt = q.claimedAt := by
  cases h with
  | insertQueued => cases hnew
  | insertClaimed => exact .inl ⟨.inr rfl, _, _, rfl, rfl⟩
  | claim => exact .inl ⟨.inl rfl, _, _, rfl, rfl⟩
  | progress => exact .inr ⟨_, rfl, hnew, rfl, rfl⟩
  | complete => cases hnew
  | release => cases hnew

theorem handleAll_concat (s : Server) (xs : List (Job × Stream' Env)) (x : Job × Stream' Env) :
    s.handleAll (xs ++ [x]) = (s.handleAll xs).handle x := by
  simp [Server.handleAll]

theorem ClaimedSince.extend {id deviceId : Uuid} {claimedAt : Time} {xs₁ xs₂ : List (Job × Stream' Env)}
    {x y : Job × Stream' Env} (h : ClaimedSince s id deviceId claimedAt xs₁ x xs₂) {q : Task}
    (hq : q ∈ (s.handleAll (xs₁ ++ x :: (xs₂ ++ [y]))).tasks) (hid : q.id = id)
    (hst : q.status = .claimed) (hby : q.claimedBy = some deviceId) (hat : q.claimedAt = some claimedAt) :
    ClaimedSince s id deviceId claimedAt xs₁ x (xs₂ ++ [y]) := by
  refine ⟨h.made, h.clock, fun ys zs hyz => ?_⟩
  rcases List.eq_nil_or_concat zs with rfl | ⟨zs', z, rfl⟩
  · rw [List.append_nil] at hyz
    subst hyz
    exact ⟨q, hq, hid, hst, hby, hat⟩
  · rw [List.concat_eq_append, ← List.append_assoc] at hyz
    exact h.held ys zs' (List.append_inj' hyz rfl).1

theorem claimedSince_handleAll (hs : s.tasks = []) (xs : List (Job × Stream' Env)) :
    ∀ r ∈ (s.handleAll xs).tasks, r.status = .claimed → ∃ deviceId claimedAt xs₁ x xs₂,
      r.claimedBy = some deviceId ∧ r.claimedAt = some claimedAt ∧ xs = xs₁ ++ x :: xs₂ ∧
        ClaimedSince s r.id deviceId claimedAt xs₁ x xs₂ := by
  induction xs using List.reverseRecOn with
  | nil => exact fun r hr => by simp [Server.handleAll, hs] at hr
  | append_singleton xs y ih =>
    intro r hr hst
    rw [handleAll_concat] at hr
    have hch := handle_changes ((Server.Consistent.of_empty hs).handleAll xs) y
    -- a claim that stands before the last job still does
    have keep : ∀ q ∈ (s.handleAll xs).tasks, q.id = r.id → q.status = .claimed →
        r.claimedBy = q.claimedBy → r.claimedAt = q.claimedAt → ∃ deviceId claimedAt xs₁ x xs₂,
          r.claimedBy = some deviceId ∧ r.claimedAt = some claimedAt ∧ xs ++ [y] = xs₁ ++ x :: xs₂ ∧
            ClaimedSince s r.id deviceId claimedAt xs₁ x xs₂ := by
      intro q hq hid hqs hby hat
      obtain ⟨d, c, xs₁, x, xs₂, hd, hc, rfl, hsince⟩ := ih q hq hqs
      rw [hd] at hby
      rw [hc] at hat
      refine ⟨d, c, xs₁, x, xs₂ ++ [y], hby, hat, by simp, (hid ▸ hsince).extend ?_ rfl hst hby hat⟩
      rwa [← List.cons_append, ← List.append_assoc, handleAll_concat]
    -- a claim that the last job makes stands at its end
    have make : ∀ k old, Change (s.handleAll xs) y k old r → (k = .claim ∨ k = .insertClaimed) →
        (∃ d n, r.claimedBy = some d ∧ r.claimedAt = some (y.2.get n).now) →
        ∃ deviceId claimedAt xs₁ x xs₂,
          r.claimedBy = some deviceId ∧ r.claimedAt = some claimedAt ∧ xs ++ [y] = xs₁ ++ x :: xs₂ ∧
            ClaimedSince s r.id deviceId claimedAt xs₁ x xs₂ := by
      rintro k old hc hk ⟨d, n, hd, hn⟩
      refine ⟨d, _, xs, y, [], hd, hn, rfl, ⟨k, old, r, hc, hk, rfl, hd, hn⟩, ⟨n, rfl⟩, fun ys zs hyz => ?_⟩
      obtain ⟨rfl, rfl⟩ := List.append_eq_nil_iff.1 hyz.symm
      exact ⟨r, by rwa [handleAll_concat], rfl, hst, hd, hn⟩
    rcases hch.backward r hr with ⟨q, hq, rfl | ⟨k, hc⟩⟩ | ⟨-, k, hc⟩
    · exact keep _ hq rfl hst rfl rfl
    · rcases hc.claimed_cases hst with ⟨hk, hnew⟩ | ⟨q', hq', hqs, hby, hat⟩
      · exact make k _ hc hk hnew
      · obtain rfl := Option.some.inj hq'
        exact keep q hq hc.sameIdentity.id hqs hby hat
    · rcases hc.claimed_cases hst with ⟨hk, hnew⟩ | ⟨q', hq', -⟩
      · exact make k _ hc hk hnew
      · cases hq'

/-- A sweep that changes a row releases a claimed and unfinished task, at least five minutes after the
job that made the claim read the clock, and that claim has stood ever since. -/
theorem release_sound (s : Server) (hs : s.tasks = []) (xs : List (Job × Stream' Env)) (ω : Stream' Env) :
    ∀ r ∈ (s.handleAll xs).tasks, ((s.handleAll xs).handle (.sweep, ω)).task? r.id ≠ some r →
      ((s.handleAll xs).handle (.sweep, ω)).task? r.id = some r.released ∧
        r.status = .claimed ∧ r.progress < 1 ∧ ∃ deviceId claimedAt xs₁ x xs₂ n,
          r.claimedBy = some deviceId ∧ xs = xs₁ ++ x :: xs₂ ∧
            ClaimedSince s r.id deviceId claimedAt xs₁ x xs₂ ∧
            300000000000 ≤ (ω.get n).now - claimedAt := by
  intro r hr hne
  have hch := handle_changes ((Server.Consistent.of_empty hs).handleAll xs) (.sweep, ω)
  obtain ⟨r', hr', rfl | ⟨k, hc⟩⟩ := hch.forward r hr
  · exact absurd (Server.task?_eq_some.2 ⟨hr', rfl⟩) hne
  cases hc with
  | release ho =>
    obtain ⟨hst, ⟨c, hc, hle⟩, hp⟩ := ho
    obtain ⟨d, c', xs₁, x, xs₂, hd, hc', hxs, hsince⟩ := claimedSince_handleAll hs xs r hr hst
    obtain rfl : c = c' := Option.some.inj (hc.symm.trans hc')
    exact ⟨Server.task?_eq_some.2 ⟨hr', rfl⟩, hst, hp, d, c, xs₁, x, xs₂, _, hd, hxs, hsince, hle⟩

end

namespace Sample

def addAndClaim : List (Job × Stream' Env) :=
  [(.text 101 (.addTask "u"), always 7 "" 1000), (.text 101 (.claimTask 7), always 0 "" 1000)]

theorem release_sound_addAndClaim :
    ((server.handleAll addAndClaim).handle (.sweep, always 0 "" 1300)).tasks.map (·.status) = [.queued] ∧
      ∀ r ∈ (server.handleAll addAndClaim).tasks, ∃ deviceId claimedAt xs₁ x xs₂,
        ClaimedSince server r.id deviceId claimedAt xs₁ x xs₂ ∧
          300000000000 ≤ 1300000000000 - claimedAt := by
  refine ⟨by decide +kernel, fun r hr => ?_⟩
  have hne : ∀ r ∈ (server.handleAll addAndClaim).tasks,
      ((server.handleAll addAndClaim).handle (.sweep, always 0 "" 1300)).task? r.id ≠ some r := by
    decide +kernel
  obtain ⟨-, -, -, d, c, xs₁, x, xs₂, n, -, -, hsince, hle⟩ :=
    release_sound server rfl addAndClaim (always 0 "" 1300) r hr (hne r hr)
  exact ⟨d, c, xs₁, x, xs₂, hsince, hle⟩

/-- A report of the first device one second before the sweep. -/
def report : Job × Stream' Env := (.text 101 (.updateProgress 7 (1 / 2)), always 0 "" 1299)

theorem not_keptByReports :
    (server.handleAll (addAndClaim ++ [report])).tasks.map (fun r => (r.claimedBy, r.progress)) =
        [(some 1, 1 / 2)] ∧
      ¬ KeptByReports server (addAndClaim ++ [report]) (always 0 "" 1300) := by
  refine ⟨by decide +kernel, fun h => ?_⟩
  have h' := h 7 (by decide +kernel) (by decide +kernel) addAndClaim report [] 101 (1 / 2) rfl rfl
    (by decide +kernel) 0 0
  revert h'
  decide +kernel

end Sample

end XVideoDownloader
