import XVideoDownloader.FileServer
import XVideoDownloader.Lib.Window

/-!
# The rate limiter over sequences of calls

The limiter prunes its lists lazily, at a request of the address and at a cleanup, so what it stores is not the
history. At any later time, though, the stored times that have not expired are exactly the granted requests that
have not (`unexpired_times`). Hence the limiter admits what the sliding window `admitted` admits from the requests
of each address on its own.
-/

namespace XVideoDownloader
open Lib

namespace RateLimiter

inductive Call
  | isAllowed (ip : IpAddr)
  | cleanup
  deriving DecidableEq

variable {l : RateLimiter} {ip : IpAddr} {now : Nat} {calls : List (Nat × Call)}

/-- A call at a time of the clock. -/
def apply (l : RateLimiter) (x : Nat × Call) : RateLimiter :=
  match x.2 with
  | .isAllowed ip => (l.isAllowed x.1 ip).2
  | .cleanup => l.cleanup x.1

def after (l : RateLimiter) (calls : List (Nat × Call)) : RateLimiter := calls.foldl apply l

/-- The call is a request of `ip` and is granted. -/
def grants (l : RateLimiter) (ip : IpAddr) (x : Nat × Call) : Bool :=
  x.2 = .isAllowed ip && (l.isAllowed x.1 ip).1

/-- The times of the requests of `ip` that the calls grant. -/
def allowed (l : RateLimiter) (ip : IpAddr) : List (Nat × Call) → List Nat
  | [] => []
  | x :: xs => if l.grants ip x then x.1 :: (l.apply x).allowed ip xs else (l.apply x).allowed ip xs

/-- The times of all requests of `ip`. -/
def requestsOf (ip : IpAddr) (calls : List (Nat × Call)) : List Nat :=
  (calls.filter fun x => x.2 = .isAllowed ip).map Prod.fst

def Sorted (calls : List (Nat × Call)) : Prop := calls.Pairwise fun x y => x.1 ≤ y.1

instance : Decidable (Sorted calls) := inferInstanceAs (Decidable (calls.Pairwise _))

/-- The length of the window in nanoseconds. -/
def window (l : RateLimiter) : Nat := l.windowSecs * 1000000000

def times (l : RateLimiter) (ip : IpAddr) : List Nat := (l.requests ip).getD []

/-- The entries that a call at `now` keeps. -/
def unexpired (window now : Nat) (ts : List Nat) : List Nat := ts.filter fun t => now - t < window

theorem unexpired_append (w t : Nat) (ts us : List Nat) :
    unexpired w t (ts ++ us) = unexpired w t ts ++ unexpired w t us := List.filter_append ..

theorem Sorted.concat {x : Nat × Call} (h : Sorted (calls ++ [x])) : Sorted calls ∧ ∀ y ∈ calls, y.1 ≤ x.1 := by
  obtain ⟨hs, -, hx⟩ := List.pairwise_append.1 h
  exact ⟨hs, fun y hy => hx y hy x (List.mem_singleton_self x)⟩

theorem after_concat (l : RateLimiter) (calls : List (Nat × Call)) (x : Nat × Call) :
    l.after (calls ++ [x]) = (l.after calls).apply x := by
  rw [after, List.foldl_append]
  rfl

theorem allowed_concat (l : RateLimiter) (ip : IpAddr) (calls : List (Nat × Call)) (x : Nat × Call) :
    l.allowed ip (calls ++ [x]) = l.allowed ip calls ++ if (l.after calls).grants ip x then [x.1] else [] := by
  induction calls generalizing l with
  | nil => rfl
  | cons y calls ih =>
    show (if l.grants ip y then y.1 :: (l.apply y).allowed ip (calls ++ [x])
      else (l.apply y).allowed ip (calls ++ [x])) = (if l.grants ip y then y.1 :: (l.apply y).allowed ip calls
      else (l.apply y).allowed ip calls) ++ if ((l.apply y).after calls).grants ip x then [x.1] else []
    rw [ih]
    split <;> rfl

theorem requestsOf_concat (ip : IpAddr) (calls : List (Nat × Call)) (x : Nat × Call) :
    requestsOf ip (calls ++ [x]) = requestsOf ip calls ++ if x.2 = .isAllowed ip then [x.1] else [] := by
  rw [requestsOf, List.filter_append, List.map_append]
  by_cases h : x.2 = .isAllowed ip <;> simp [requestsOf, h]

theorem requestsOf_subset {t : Nat} (h : t ∈ requestsOf ip calls) : ∃ x ∈ calls, x.1 = t := by
  obtain ⟨x, hx, ht⟩ := List.mem_map.1 h
  exact ⟨x, (List.mem_filter.1 hx).1, ht⟩

theorem sorted_requestsOf (h : Sorted calls) : (requestsOf ip calls).Pairwise (· ≤ ·) :=
  List.pairwise_map.2 (h.filter _)

/-! ### What one call does -/

/-- The entry of `ip` is replaced. -/
def store (l : RateLimiter) (ip : IpAddr) (ts : List Nat) : RateLimiter :=
  { l with requests := fun ip' => if ip' = ip then some ts else l.requests ip' }

theorem times_store (l : RateLimiter) (ip ip' : IpAddr) (ts : List Nat) :
    (l.store ip ts).times ip' = if ip' = ip then ts else l.times ip' := by
  by_cases h : ip' = ip <;> simp [store, times, h]

theorem isAllowed_eq (l : RateLimiter) (now : Nat) (ip : IpAddr) :
    l.isAllowed now ip =
      if l.maxRequests ≤ (unexpired l.window now (l.times ip)).length then
        (false, l.store ip (unexpired l.window now (l.times ip)))
      else (true, l.store ip (unexpired l.window now (l.times ip) ++ [now])) := rfl

theorem isAllowed_fst (l : RateLimiter) (now : Nat) (ip : IpAddr) :
    (l.isAllowed now ip).1 = true ↔ (unexpired l.window now (l.times ip)).length < l.maxRequests := by
  rw [isAllowed_eq]
  split
  · rename_i h
    simpa using h
  · rename_i h
    simpa using h

/-- A request prunes the entry of its address and adds itself where it is granted. -/
theorem times_isAllowed (l : RateLimiter) (now : Nat) (ip ip' : IpAddr) :
    (l.isAllowed now ip).2.times ip' =
      if ip' = ip then unexpired l.window now (l.times ip) ++ (if (l.isAllowed now ip).1 then [now] else [])
      else l.times ip' := by
  rw [isAllowed_eq]
  split <;> simp [times_store]

theorem times_cleanup (l : RateLimiter) (now : Nat) (ip : IpAddr) :
    (l.cleanup now).times ip = unexpired l.window now (l.times ip) := by
  show (((l.requests ip).map (unexpired l.window now)).filter fun ts => !ts.isEmpty).getD [] = _
  rw [times]
  cases l.requests ip with
  | none => rfl
  | some ts =>
    show _ = unexpired l.window now ts
    by_cases h : unexpired l.window now ts = []
    · rw [Option.map_some, h]
      rfl
    · rw [Option.map_some, Option.filter_some_pos (by simpa using h)]
      rfl

@[simp] theorem limits_apply (l : RateLimiter) (x : Nat × Call) :
    (l.apply x).window = l.window ∧ (l.apply x).maxRequests = l.maxRequests := by
  obtain ⟨now, ip | -⟩ := x
  · show ((l.isAllowed now ip).2).window = _ ∧ ((l.isAllowed now ip).2).maxRequests = _
    rw [isAllowed_eq]
    split <;> exact ⟨rfl, rfl⟩
  · exact ⟨rfl, rfl⟩

theorem limits_after (l : RateLimiter) (calls : List (Nat × Call)) :
    (l.after calls).window = l.window ∧ (l.after calls).maxRequests = l.maxRequests := by
  induction calls using List.reverseRecOn with
  | nil => exact ⟨rfl, rfl⟩
  | append_singleton calls x ih =>
    rw [after_concat, (limits_apply _ x).1, (limits_apply _ x).2]
    exact ih

/-- Pruning now takes away nothing that would not have expired later. -/
theorem unexpired_unexpired {w t : Nat} (h : now ≤ t) (ts : List Nat) :
    unexpired w t (unexpired w now ts) = unexpired w t ts := by
  rw [unexpired, unexpired, List.filter_filter]
  refine List.filter_congr fun u _ => ?_
  by_cases hu : t - u < w
  · have hn : now - u < w := by omega
    simp [hu, hn]
  · simp [hu]

/-- What a call leaves unexpired for `ip`. -/
theorem unexpired_apply {x : Nat × Call} {t : Nat} (h : x.1 ≤ t) :
    unexpired l.window t ((l.apply x).times ip) =
      unexpired l.window t (l.times ip ++ if l.grants ip x then [x.1] else []) := by
  obtain ⟨now, ip' | -⟩ := x
  · show unexpired _ t ((l.isAllowed now ip').2.times ip) = _
    rw [times_isAllowed]
    by_cases hip : ip = ip'
    · subst hip
      simp only [if_true, grants, decide_true, Bool.true_and]
      rw [unexpired_append, unexpired_unexpired h, ← unexpired_append]
    · have hne : ip' ≠ ip := Ne.symm hip
      simp [hip, grants, hne]
  · show unexpired _ t ((l.cleanup now).times ip) = _
    rw [times_cleanup, unexpired_unexpired h]
    simp [grants]

/-! ### Sequences of calls -/

section
variable {windowSecs maxRequests : Nat}

/-- At any time from the last call on, what is stored and has not expired is what was granted and has not
expired. -/
theorem unexpired_times (hs : Sorted calls) {t : Nat} (ht : ∀ x ∈ calls, x.1 ≤ t) :
    unexpired (windowSecs * 1000000000) t (((new windowSecs maxRequests).after calls).times ip) =
      unexpired (windowSecs * 1000000000) t ((new windowSecs maxRequests).allowed ip calls) := by
  induction calls using List.reverseRecOn generalizing t with
  | nil => rfl
  | append_singleton calls x ih =>
    have hs := hs.concat
    have hx : x.1 ≤ t := ht x (by simp)
    have hw : ((new windowSecs maxRequests).after calls).window = windowSecs * 1000000000 :=
      (limits_after (new windowSecs maxRequests) calls).1
    have happly : unexpired _ t ((((new windowSecs maxRequests).after calls).apply x).times ip) = _ :=
      unexpired_apply hx
    rw [hw] at happly
    rw [after_concat, allowed_concat, happly, unexpired_append, unexpired_append,
      ih hs.1 fun y hy => ht y (by simp [hy])]

theorem allowed_subset {l : RateLimiter} {t : Nat} (h : t ∈ l.allowed ip calls) : t ∈ requestsOf ip calls := by
  induction calls using List.reverseRecOn with
  | nil => cases h
  | append_singleton calls x ih =>
    rw [allowed_concat, List.mem_append] at h
    rw [requestsOf_concat, List.mem_append]
    rcases h with h | h
    · exact Or.inl (ih h)
    · right
      split at h
      · rename_i hg
        rw [if_pos (by simpa using (Bool.and_eq_true_iff.1 hg).1)]
        exact h
      · cases h

/-- A request is granted when fewer than the maximum of earlier ones were granted within the window. -/
theorem isAllowed_after (hs : Sorted (calls ++ [(now, .isAllowed ip)])) :
    (((new windowSecs maxRequests).after calls).isAllowed now ip).1 = true ↔
      (((new windowSecs maxRequests).allowed ip calls).filter
        (InWindow (windowSecs * 1000000000) now)).length < maxRequests := by
  have hs := hs.concat
  have hl := limits_after (new windowSecs maxRequests) calls
  have hwindow : unexpired (windowSecs * 1000000000) now ((new windowSecs maxRequests).allowed ip calls) =
      ((new windowSecs maxRequests).allowed ip calls).filter (InWindow (windowSecs * 1000000000) now) := by
    refine List.filter_congr fun u hu => ?_
    obtain ⟨x, hx, rfl⟩ := requestsOf_subset (allowed_subset hu)
    have hle := hs.2 x hx
    have hiff : now - x.1 < windowSecs * 1000000000 ↔ InWindow (windowSecs * 1000000000) now x.1 := by
      show _ ↔ x.1 ≤ now ∧ now < x.1 + windowSecs * 1000000000
      omega
    exact decide_eq_decide.2 hiff
  rw [isAllowed_fst, hl.1, hl.2, ← hwindow]
  show (unexpired (windowSecs * 1000000000) now _).length < _ ↔ _
  rw [unexpired_times hs.1 hs.2]
  rfl

/-- The limiter admits from the requests of each address what a sliding window over them alone admits. -/
theorem allowed_eq_admitted (hs : Sorted calls) :
    (new windowSecs maxRequests).allowed ip calls =
      admitted (windowSecs * 1000000000) maxRequests (requestsOf ip calls) := by
  induction calls using List.reverseRecOn with
  | nil => rfl
  | append_singleton calls x ih =>
    have ih := ih hs.concat.1
    rw [allowed_concat, requestsOf_concat]
    obtain ⟨now, call⟩ := x
    by_cases hc : call = .isAllowed ip
    · subst hc
      have hiff : (((new windowSecs maxRequests).after calls).isAllowed now ip).1 = true ↔ _ := isAllowed_after hs
      rw [if_pos rfl, admitted_concat, ← ih]
      by_cases hg : (((new windowSecs maxRequests).after calls).isAllowed now ip).1 = true
      · rw [if_pos (hiff.1 hg), if_pos (by simpa [grants] using hg)]
      · rw [if_neg (mt hiff.2 hg), if_neg (by simpa [grants] using hg), List.append_nil]
    · rw [if_neg hc, if_neg (by simp [grants, hc]), List.append_nil, List.append_nil, ih]

/-- Over calls at non-decreasing times the limiter is a sliding window for each address. -/
theorem sliding_window (windowSecs maxRequests : Nat) (calls : List (Nat × Call)) (hs : Sorted calls) :
    (∀ before now ip after, calls = before ++ (now, .isAllowed ip) :: after →
      ((((new windowSecs maxRequests).after before).isAllowed now ip).1 = true ↔
        (((new windowSecs maxRequests).allowed ip before).filter
          (InWindow (windowSecs * 1000000000) now)).length < maxRequests)) ∧
    (∀ ip t, (((new windowSecs maxRequests).allowed ip calls).filter
      (InWindow (windowSecs * 1000000000) t)).length ≤ maxRequests) ∧
    ∀ ip now calls', Sorted (calls ++ [(now, .isAllowed ip)]) → Sorted (calls' ++ [(now, .isAllowed ip)]) →
      requestsOf ip calls' = requestsOf ip calls →
        (((new windowSecs maxRequests).after calls').isAllowed now ip).1 =
          (((new windowSecs maxRequests).after calls).isAllowed now ip).1 := by
  refine ⟨?_, ?_, ?_⟩
  · rintro before now ip after rfl
    refine isAllowed_after (hs.sublist ?_)
    exact (List.append_sublist_append_left before).2 (by simp)
  · intro ip t
    rw [allowed_eq_admitted hs]
    exact length_filter_admitted_le (sorted_requestsOf hs) t
  · intro ip now calls' hs hs' hr
    rw [Bool.eq_iff_iff, isAllowed_after hs, isAllowed_after hs', allowed_eq_admitted hs.concat.1,
      allowed_eq_admitted hs'.concat.1, hr]

end

end RateLimiter

namespace Sample
open RateLimiter

def twoAddresses : List (Nat × Call) :=
  [(0, .isAllowed (.v4 1)), (5, .isAllowed (.v4 2)), (999999999, .isAllowed (.v4 1)), (1000000000, .cleanup),
    (1000000000, .isAllowed (.v4 1))]

/-- With one request a second, the second request of an address is granted when the second is over. -/
theorem sliding_window_twoAddresses :
    (((new 1 1).after (twoAddresses.take 2)).isAllowed 999999999 (.v4 1)).1 ≠ true ∧
      (((new 1 1).after (twoAddresses.take 4)).isAllowed 1000000000 (.v4 1)).1 = true := by
  have h := (sliding_window 1 1 twoAddresses (by decide)).1
  exact ⟨mt (h (twoAddresses.take 2) 999999999 (.v4 1) (twoAddresses.drop 3) rfl).1 (by decide),
    (h (twoAddresses.take 4) 1000000000 (.v4 1) [] rfl).2 (by decide)⟩

end Sample

end XVideoDownloader
