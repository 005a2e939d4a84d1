import XVideoDownloader.FileService

/-!
# How often an address is let in

The limiter of the file server is shared by all connections, which come and go in any order. What it has been asked is a
sequence of calls (`Limits`), so what is known of the limiter alone holds of the server: no minute has more than a
hundred connections of one address that were let in, and none was refused for less (`let_in_limit`).
-/

namespace XVideoDownloader
open Lib

namespace FileServer.Service

/-- The time that a step reads from the clock. -/
def time? : Act → Option Nat
  | .cleanup now => some now
  | .handle _ (.check now _) => some now
  | _ => none

def letIn (S : Service) (ip : IpAddr) : List Nat := S.conns.filterMap fun c => if c.ip = ip then c.granted else none

/-- The limiter has had these calls, and whom it let in is what the connections say. -/
structure Limits (S : Service) (calls : List (Nat × RateLimiter.Call)) : Prop where
  limiter : S.limiter = (RateLimiter.new 60 100).after calls
  letIn : ∀ ip, (S.letIn ip).Perm ((RateLimiter.new 60 100).allowed ip calls)

section
variable {S S' : Service} {calls : List (Nat × RateLimiter.Call)} (h : S.Limits calls)
include h

theorem Limits.same (hlimiter : S'.limiter = S.limiter) (hconns : ∀ ip, (S'.letIn ip).Perm (S.letIn ip)) :
    S'.Limits calls :=
  ⟨hlimiter.trans h.limiter, fun ip => (hconns ip).trans (h.letIn ip)⟩

/-- One more call. -/
theorem Limits.call (x : Nat × RateLimiter.Call) (hlimiter : S'.limiter = S.limiter.apply x)
    (hconns : ∀ ip, (S'.letIn ip).Perm (S.letIn ip ++ if S.limiter.grants ip x then [x.1] else [])) :
    S'.Limits (calls ++ [x]) where
  limiter := by rw [hlimiter, h.limiter, RateLimiter.after_concat]
  letIn ip := by
    rw [RateLimiter.allowed_concat, ← h.limiter]
    exact (hconns ip).trans ((h.letIn ip).append_right _)

end

section
variable {S : Service} {i : Nat} {c c' : Conn} (h : S.conns[i]? = some c) (hip : c'.ip = c.ip) (limiter : RateLimiter)
  (ip : IpAddr)

include h hip

theorem letIn_keep (hgranted : c'.granted = c.granted) :
    (letIn { S with limiter := limiter, conns := S.conns.set i c' } ip).Perm (S.letIn ip) := by
  have hset := filterMap_set_perm (f := fun c : Conn => if c.ip = ip then c.granted else none) h c'
  rw [hip, hgranted] at hset
  exact (List.perm_append_right_iff _).1 hset

theorem letIn_grant (hgranted : c.granted = none) :
    (letIn { S with limiter := limiter, conns := S.conns.set i c' } ip).Perm
      (S.letIn ip ++ if c.ip = ip then c'.granted.toList else []) := by
  have hset := filterMap_set_perm (f := fun c : Conn => if c.ip = ip then c.granted else none) h c'
  rw [hip, hgranted, ite_self, Option.toList_none, List.append_nil] at hset
  by_cases hc : c.ip = ip
  · rw [if_pos hc] at hset ⊢
    exact hset
  · rw [if_neg hc] at hset ⊢
    exact hset

end

variable [AuthDeps] [UrlDeps]

/-- The limiter is asked only when a connection is checked, and the answer is kept with the connection. -/
theorem handle_limiter (S : Service) (c : Conn) (e : Event) :
    (S.handle c e).1.ip = c.ip ∧
      ((S.handle c e).1.granted = c.granted ∧ (S.handle c e).2 = S.limiter ∨
        ∃ now sent, e = .check now sent ∧ c.phase = .accepted ∧ (S.handle c e).2 = (S.limiter.isAllowed now c.ip).2 ∧
          (S.handle c e).1.granted = if (S.limiter.isAllowed now c.ip).1 then some now else c.granted) := by
  rcases handle_cases S c e with he | ⟨now, sent, rfl, hphase, he⟩ | ⟨bytes, buffer, capacity, -, hphase, he⟩ |
    ⟨fs, read, sent, request, -, hphase, he⟩ | ⟨hphase, he⟩ <;> rw [he]
  · exact ⟨rfl, .inl ⟨rfl, rfl⟩⟩
  · by_cases hallowed : (S.limiter.isAllowed now c.ip).1 = true
    · rw [if_pos hallowed]
      exact ⟨rfl, .inr ⟨now, sent, rfl, hphase, rfl, (if_pos hallowed).symm⟩⟩
    · rw [if_neg hallowed]
      exact ⟨rfl, .inr ⟨now, sent, rfl, hphase, rfl, (if_neg hallowed).symm⟩⟩
  · exact ⟨rfl, .inl ⟨rfl, rfl⟩⟩
  · exact ⟨rfl, .inl ⟨rfl, rfl⟩⟩
  · exact ⟨rfl, .inl ⟨rfl, rfl⟩⟩

theorem limits_handle {S : Service} {calls : List (Nat × RateLimiter.Call)} (h : S.Limits calls) {i : Nat} {c : Conn}
    (hc : S.conns[i]? = some c) (hat : c.At) (e : Event) :
    ∃ more, (more.map Prod.fst).Sublist (time? (.handle i e)).toList ∧
      Limits { S with limiter := (S.handle c e).2, conns := S.conns.set i (S.handle c e).1 } (calls ++ more) := by
  obtain ⟨hip, ⟨hgranted, hlimiter⟩ | ⟨now, sent, rfl, hphase, hlimiter, hgranted⟩⟩ := handle_limiter S c e
  · refine ⟨[], by simp, ?_⟩
    rw [List.append_nil]
    exact h.same hlimiter fun ip => letIn_keep hc hip _ ip hgranted
  · refine ⟨[(now, .isAllowed c.ip)], by simp [time?], h.call _ hlimiter fun ip => ?_⟩
    refine (letIn_grant hc hip _ ip (hat.accepted hphase).1).trans (.of_eq ?_)
    rw [hgranted, (hat.accepted hphase).1]
    by_cases hsame : c.ip = ip
    · subst hsame
      cases hallowed : (S.limiter.isAllowed now c.ip).1 <;> simp [RateLimiter.grants, hallowed]
    · simp [RateLimiter.grants, hsame]

theorem limits_step {S : Service} {calls : List (Nat × RateLimiter.Call)} (h : S.Limits calls)
    (hat : ∀ (i : Nat) (c : Conn), S.conns[i]? = some c → c.At) (a : Act) :
    ∃ more, (more.map Prod.fst).Sublist (time? a).toList ∧ (S.step a).Limits (calls ++ more) := by
  have hsame {S' : Service} (hlimiter : S'.limiter = S.limiter) (hconns : ∀ ip, (S'.letIn ip).Perm (S.letIn ip)) :
      ∃ more, (more.map Prod.fst).Sublist (time? a).toList ∧ S'.Limits (calls ++ more) :=
    ⟨[], List.nil_sublist _, by rw [List.append_nil]; exact h.same hlimiter hconns⟩
  cases a with
  | register fs taskId path => exact hsame rfl fun _ => .rfl
  | unregister taskId => exact hsame rfl fun _ => .rfl
  | cleanup now =>
    exact ⟨[(now, .cleanup)], by simp [time?], h.call _ rfl fun ip => by simp [RateLimiter.grants, step, letIn]⟩
  | accept ip => exact hsame rfl fun ip' => by simp [letIn, step, Conn.new]
  | handle i e =>
    rcases step_handle S i e with ⟨hs, -⟩ | ⟨c, hc, hs⟩
    · rw [hs]
      exact hsame rfl fun _ => .rfl
    · rw [hs]
      exact limits_handle h hc (hat i c hc) e

theorem limits_run (as : List Act) :
    ∃ calls, (calls.map Prod.fst).Sublist (as.filterMap time?) ∧ (new.run as).Limits calls := by
  induction as using List.reverseRecOn with
  | nil => exact ⟨[], .slnil, rfl, fun _ => .rfl⟩
  | append_singleton as a ih =>
    obtain ⟨calls, htimes, h⟩ := ih
    obtain ⟨more, hmore, h⟩ := limits_step h (fun _ _ => at_run) a
    rw [← run_concat] at h
    refine ⟨calls ++ more, ?_, h⟩
    rw [List.map_append, List.filterMap_append, List.filterMap_cons]
    cases ht : time? a <;> simp only [ht] at hmore ⊢ <;> exact htimes.append hmore

/-- A connection that is checked after a run is let in if fewer than a hundred were within the minute before. -/
theorem let_in_iff {before : List Act} {i now sent : Nat} {c : Conn}
    (hclock : ((before ++ [Act.handle i (.check now sent)]).filterMap time?).Pairwise (· ≤ ·))
    (hphase : c.phase = .accepted) :
    ((new.run before).handle c (.check now sent)).1.phase = .reading .start ↔
      ((letIn (new.run before) c.ip).filter (InWindow (60 * 1000000000) now)).length < 100 := by
  obtain ⟨calls, htimes, h⟩ := limits_run before
  have hs : RateLimiter.Sorted (calls ++ [(now, .isAllowed c.ip)]) := by
    refine List.pairwise_map.1 (hclock.sublist ?_)
    rw [List.map_append, List.filterMap_append]
    exact htimes.append (.refl _)
  rw [((h.letIn c.ip).filter _).length_eq, ← RateLimiter.isAllowed_after hs, ← h.limiter]
  simp only [handle, hphase, if_true]
  split <;> simp [Conn.close, *]

/-- As time passes no address is let in more than a hundred times within a minute, and none is refused that was let in
less often. -/
theorem let_in_limit (as : List Act) (hclock : (as.filterMap time?).Pairwise (· ≤ ·)) :
    (∀ ip t, ((letIn (new.run as) ip).filter (InWindow (60 * 1000000000) t)).length ≤ 100) ∧
    ∀ before i now sent after c, as = before ++ .handle i (.check now sent) :: after →
      (new.run before).conns[i]? = some c → c.phase = .accepted →
        (((new.run before).handle c (.check now sent)).1.phase = .reading .start ↔
          ((letIn (new.run before) c.ip).filter (InWindow (60 * 1000000000) now)).length < 100) := by
  constructor
  · intro ip t
    obtain ⟨calls, htimes, h⟩ := limits_run as
    have hs : RateLimiter.Sorted calls := List.pairwise_map.1 (hclock.sublist htimes)
    rw [((h.letIn ip).filter _).length_eq, RateLimiter.allowed_eq_admitted hs]
    exact length_filter_admitted_le (RateLimiter.sorted_requestsOf hs) t
  · rintro before i now sent after c rfl - hphase
    have hbefore : (before ++ [Act.handle i (.check now sent)]).Sublist
        (before ++ .handle i (.check now sent) :: after) :=
      (List.append_sublist_append_left before).2 (by simp)
    exact let_in_iff (hclock.sublist (hbefore.filterMap _)) hphase

end FileServer.Service

namespace Sample
open FileServer Service

/-- A second connection of an address, and one of another. -/
def threeConnections : List Act :=
  [.accept (.v4 1), .handle 0 (.check 5 49), .accept (.v4 1), .accept (.v4 2), .cleanup 7, .handle 2 (.check 8 49),
    .handle 1 (.check 9 49)]

theorem let_in_limit_threeConnections :
    (∀ ip t, ((letIn (new.run threeConnections) ip).filter (InWindow (60 * 1000000000) t)).length ≤ 100) ∧
      ((new.run (threeConnections.take 6)).handle (.new (.v4 1)) (.check 9 49)).1.phase = .reading .start := by
  have h := let_in_limit threeConnections (by decide)
  refine ⟨h.1, (h.2 (threeConnections.take 6) 1 9 49 [] (.new (.v4 1)) rfl rfl rfl).2 ?_⟩
  decide

end Sample

end XVideoDownloader
