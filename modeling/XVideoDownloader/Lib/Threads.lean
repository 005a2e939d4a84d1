import XVideoDownloader.Lib.Pool

/-!
# The threads of a pool

What one step does to each thread of a `Pool`, and what a thread has called when it ends (`Bound`).
-/

namespace Lib
variable {Op : Type} {Ans : Op → Type} {ι Env σ : Type}

theorem Prog.wp.weaken {α : Type} {P P' : List (Call Ans) → Op → Prop} (hP : ∀ h o, P h o → P' h o) {p : Prog Ans α}
    {Q : α → List (Call Ans) → Prop} {h : List (Call Ans)} (hp : p.wp P Q h) : p.wp P' Q h := by
  induction p generalizing h with
  | ret a => exact hp
  | call o k ih => exact ⟨hP h o hp.1, fun r => ih r (hp.2 r)⟩

/-- Its program is at its end. -/
def Thread.done (th : Thread Ans ι) : Bool :=
  match th.prog with
  | .ret _ => true
  | .call _ _ => false

namespace Pool
variable {code : ι → Prog Ans Unit} {act : (o : Op) → Env → σ → Ans o × σ} {S : Pool Ans ι σ} {i k : Nat} {e : Env}
  {th th' : Thread Ans ι}

theorem getElem?_spawn {j : ι} (h : (S.step code act (.spawn j)).threads[k]? = some th) :
    S.threads[k]? = some th ∨ k = S.threads.length ∧ th = ⟨j, code j, []⟩ := by
  have h : (S.threads ++ [⟨j, code j, []⟩])[k]? = some th := h
  rcases Nat.lt_or_ge k S.threads.length with hk | hk
  · rw [List.getElem?_append_left hk] at h
    exact .inl h
  · rw [List.getElem?_append_right hk] at h
    obtain ⟨hlt, rfl⟩ := List.getElem?_eq_some_iff.1 h
    have hk0 : k - S.threads.length = 0 := by simpa using hlt
    exact .inr ⟨by omega, by simp [hk0]⟩

/-- A thread is what it was, but for the one that is resumed, which was not at its end. -/
theorem getElem?_resume (h : (S.step code act (.resume i e)).threads[k]? = some th') :
    ∃ th, S.threads[k]? = some th ∧ th.job = th'.job ∧ (th' = th ∨ k = i ∧ th.done = false) := by
  simp only [step] at h
  split at h
  · rename_i j o p hist hi
    by_cases hk : k = i
    · subst hk
      have hlt := (List.getElem?_eq_some_iff.1 hi).1
      rw [List.getElem?_set_self hlt, Option.some.injEq] at h
      exact ⟨_, hi, by rw [← h], .inr ⟨rfl, rfl⟩⟩
    · rw [List.getElem?_set_ne (Ne.symm hk)] at h
      exact ⟨th', h, rfl, .inl rfl⟩
  · exact ⟨th', h, rfl, .inl rfl⟩

theorem map_job_resume (i : Nat) (e : Env) :
    (S.step code act (.resume i e)).threads.map (·.job) = S.threads.map (·.job) := by
  simp only [step]
  split
  · rename_i j o p hist hi
    rw [List.map_set]
    refine List.ext_getElem? fun k => ?_
    rw [List.getElem?_set]
    split
    · rename_i hk
      subst hk
      obtain ⟨hlt, heq⟩ := List.getElem?_eq_some_iff.1 hi
      simp [hlt, heq]
    · rfl
  · rfl

/-- The thread that made the call is there after it. -/
theorem exists_of_issued {x : Issue Ans ι Env} (h : S.issued (.resume i e) = some x) :
    ∃ th' ∈ (S.step code act (.resume i e)).threads, th'.job = x.job ∧
      ⟨x.op, (act x.op x.env S.state).1⟩ ∈ th'.hist := by
  simp only [issued] at h
  split at h
  · rename_i j o p hist hi
    cases h
    refine ⟨⟨j, p (act o e S.state).1, ⟨o, (act o e S.state).1⟩ :: hist⟩, ?_, rfl, List.mem_cons_self⟩
    simp only [step, hi]
    exact List.mem_set (List.getElem?_eq_some_iff.1 hi).1 _
  · cases h

/-- It was not at its end. -/
theorem of_issued {x : Issue Ans ι Env} (h : S.issued (.resume i e) = some x) :
    ∃ th ∈ S.threads, th.job = x.job ∧ th.done = false := by
  simp only [issued] at h
  split at h
  · rename_i j o p hist hi
    cases h
    exact ⟨_, List.mem_of_getElem? hi, rfl, rfl⟩
  · cases h

/-- The thread is there after the step, with its job. -/
theorem exists_resume (h : S.threads[k]? = some th) :
    ∃ th', (S.step code act (.resume i e)).threads[k]? = some th' ∧ th'.job = th.job ∧ th.hist ⊆ th'.hist := by
  have hmap : ((S.step code act (.resume i e)).threads.map (·.job))[k]? = (S.threads.map (·.job))[k]? := by
    rw [map_job_resume]
  simp only [List.getElem?_map, h, Option.map_some, Option.map_eq_some_iff] at hmap
  obtain ⟨th', hth', hjob⟩ := hmap
  refine ⟨th', hth', hjob, ?_⟩
  simp only [step] at hth'
  split at hth'
  · rename_i j o p hist hi
    by_cases hk : k = i
    · subst hk
      rw [List.getElem?_set_self (List.getElem?_eq_some_iff.1 hi).1, Option.some.injEq] at hth'
      rw [h, Option.some.injEq] at hi
      subst hi hth'
      exact List.subset_cons_self _ _
    · rw [List.getElem?_set_ne (Ne.symm hk), h, Option.some.injEq] at hth'
      rw [hth']
      exact List.Subset.refl _
  · rw [h, Option.some.injEq] at hth'
    rw [hth']
    exact List.Subset.refl _

end Pool

/-- Every thread has made and makes only calls that `P` allows it, and ends as `Q` says. -/
structure Bound (P : ι → Op → Prop) (Q : ι → List (Call Ans) → Prop) (S : Pool Ans ι σ) : Prop where
  calls : ∀ th ∈ S.threads, th.prog.wp (fun _ => P th.job) (fun _ => Q th.job) th.hist
  hist : ∀ th ∈ S.threads, ∀ c ∈ th.hist, P th.job c.1

namespace Bound
variable {P : ι → Op → Prop} {Q : ι → List (Call Ans) → Prop} {S : Pool Ans ι σ} {code : ι → Prog Ans Unit}
  {act : (o : Op) → Env → σ → Ans o × σ}

theorem step (h : Bound P Q S) (hcode : ∀ j, (code j).wp (fun _ => P j) (fun _ => Q j) []) (a : Step ι Env) :
    Bound P Q (S.step code act a) := by
  cases a with
  | spawn j =>
    constructor <;> intro th hth <;> rcases List.mem_append.1 hth with hth | hth
    · exact h.calls th hth
    · rw [List.mem_singleton.1 hth]
      exact hcode j
    · exact h.hist th hth
    · rw [List.mem_singleton.1 hth]
      exact nofun
  | resume i e =>
    simp only [Pool.step]
    split
    · rename_i j o k hist hi
      have hmem := List.mem_of_getElem? hi
      constructor <;> intro th hth <;> rcases List.mem_or_eq_of_mem_set hth with hth | rfl
      · exact h.calls th hth
      · exact (h.calls _ hmem).2 _
      · exact h.hist th hth
      · exact List.forall_mem_cons.2 ⟨(h.calls _ hmem).1, h.hist _ hmem⟩
    · exact h

theorem of_done (h : Bound P Q S) {th : Thread Ans ι} (hth : th ∈ S.threads) (hdone : th.done = true) :
    Q th.job th.hist := by
  have hcalls := h.calls th hth
  obtain ⟨j, p, hist⟩ := th
  cases p with
  | ret a => exact hcalls
  | call o k => cases hdone

/-- What a thread is about to call is allowed. -/
theorem of_issued (h : Bound P Q S) {a : Step ι Env} {x : Issue Ans ι Env} (hx : S.issued a = some x) :
    P x.job x.op := by
  cases a with
  | spawn j => cases hx
  | resume i e =>
    simp only [Pool.issued] at hx
    split at hx
    · rename_i j o k hist hi
      cases hx
      exact (h.calls _ (List.mem_of_getElem? hi)).1
    · cases hx

end Bound
end Lib
