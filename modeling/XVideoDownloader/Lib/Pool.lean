import XVideoDownloader.Lib.Prog

/-!
# Interleaved programs

A `Pool` is a shared state and the programs under way on it. A `Step` either starts the program of a job
or lets one thread make its next call; a run is any list of steps, so every interleaving at the
granularity of one call is a run (a thread that is never resumed again was abandoned).

`Grounded P I R S` is the invariant the rest of the development works with: `I` holds now, every thread
is still bound by `P` (`Prog.wp`), and every answer a thread has seen was given by a state satisfying `I`
from which `R` leads to the present one. `Grounded.run` is the rule: if each single call that `P` allows
keeps `I` and is an `R` step, then so does every run. The rule can assume a condition `C` of the steps
of the run.
-/

namespace Lib
variable {Op : Type} {Ans : Op → Type} {ι Env σ : Type}

structure Thread (Ans : Op → Type) (ι : Type) where
  job : ι
  prog : Prog Ans Unit
  /-- The calls made so far, the latest first. -/
  hist : List (Call Ans)

structure Pool (Ans : Op → Type) (ι σ : Type) where
  state : σ
  threads : List (Thread Ans ι)

inductive Step (ι Env : Type)
  | spawn (j : ι)
  | resume (i : Nat) (e : Env)

/-- A call about to be made: by which job, after which calls, with which choice of the environment. -/
structure Issue (Ans : Op → Type) (ι Env : Type) where
  job : ι
  hist : List (Call Ans)
  op : Op
  env : Env

namespace Pool
variable (code : ι → Prog Ans Unit) (act : (o : Op) → Env → σ → Ans o × σ)

def step (S : Pool Ans ι σ) : Step ι Env → Pool Ans ι σ
  | .spawn j => { S with threads := S.threads ++ [⟨j, code j, []⟩] }
  | .resume i e =>
    match S.threads[i]? with
    | some ⟨j, .call o k, h⟩ =>
      ⟨(act o e S.state).2, S.threads.set i ⟨j, k (act o e S.state).1, ⟨o, (act o e S.state).1⟩ :: h⟩⟩
    | _ => S

def issued (S : Pool Ans ι σ) : Step ι Env → Option (Issue Ans ι Env)
  | .spawn _ => none
  | .resume i e =>
    match S.threads[i]? with
    | some ⟨j, .call o _, h⟩ => some ⟨j, h, o, e⟩
    | _ => none

def run (S : Pool Ans ι σ) (as : List (Step ι Env)) : Pool Ans ι σ := as.foldl (step code act) S

def trace : Pool Ans ι σ → List (Step ι Env) → List (Pool Ans ι σ × Step ι Env)
  | _, [] => []
  | S, a :: as => (S, a) :: trace (S.step code act a) as

@[simp] theorem run_nil (S : Pool Ans ι σ) : S.run code act ([] : List (Step ι Env)) = S := rfl

@[simp] theorem run_cons (S : Pool Ans ι σ) (a : Step ι Env) (as : List (Step ι Env)) :
    S.run code act (a :: as) = (S.step code act a).run code act as := rfl

theorem run_append (S : Pool Ans ι σ) (as bs : List (Step ι Env)) :
    S.run code act (as ++ bs) = (S.run code act as).run code act bs :=
  List.foldl_append

@[simp] theorem trace_nil (S : Pool Ans ι σ) : S.trace code act ([] : List (Step ι Env)) = [] := rfl

@[simp] theorem trace_cons (S : Pool Ans ι σ) (a : Step ι Env) (as : List (Step ι Env)) :
    S.trace code act (a :: as) = (S, a) :: (S.step code act a).trace code act as := rfl

theorem trace_append (S : Pool Ans ι σ) (as bs : List (Step ι Env)) :
    S.trace code act (as ++ bs) = S.trace code act as ++ (S.run code act as).trace code act bs := by
  induction as generalizing S with
  | nil => rfl
  | cons a as ih => simp [ih]

theorem trace_eq_append (S : Pool Ans ι σ) {as : List (Step ι Env)}
    {l r : List (Pool Ans ι σ × Step ι Env)} (h : S.trace code act as = l ++ r) :
    ∃ as₁ as₂, as = as₁ ++ as₂ ∧ S.trace code act as₁ = l ∧
      (S.run code act as₁).trace code act as₂ = r := by
  induction l generalizing S as with
  | nil => exact ⟨[], as, rfl, rfl, h⟩
  | cons x l ih =>
    cases as with
    | nil => simp at h
    | cons a as =>
      simp only [trace_cons, List.cons_append, List.cons.injEq] at h
      obtain ⟨as₁, as₂, rfl, h₁, h₂⟩ := ih _ h.2
      exact ⟨a :: as₁, as₂, rfl, by rw [trace_cons, h₁, h.1], h₂⟩

/-- Two steps of a trace, the one before the other: the run goes from the first to the second by the steps
between them. -/
theorem trace_eq_between (S : Pool Ans ι σ) {as : List (Step ι Env)}
    {l₁ l₂ l₃ : List (Pool Ans ι σ × Step ι Env)} {x y : Pool Ans ι σ × Step ι Env}
    (h : S.trace code act as = l₁ ++ x :: (l₂ ++ y :: l₃)) :
    ∃ bs, (x.1.step code act x.2).trace code act bs = l₂ ∧
      (x.1.step code act x.2).run code act bs = y.1 := by
  obtain ⟨as₁, as₂, -, -, h₁⟩ := trace_eq_append code act S h
  cases as₂ with
  | nil => simp at h₁
  | cons a as₂ =>
    rw [trace_cons, List.cons.injEq] at h₁
    obtain ⟨rfl, h₁⟩ := h₁
    obtain ⟨bs, cs, -, hbs, h₂⟩ := trace_eq_append code act _ h₁
    refine ⟨bs, hbs, ?_⟩
    cases cs with
    | nil => simp at h₂
    | cons c cs =>
      rw [trace_cons, List.cons.injEq] at h₂
      exact congrArg Prod.fst h₂.1

/-- A step changes the state only through the call it makes. -/
theorem step_state (S : Pool Ans ι σ) (a : Step ι Env) :
    (S.issued a = none ∧ (S.step code act a).state = S.state) ∨
      ∃ x, S.issued a = some x ∧ (S.step code act a).state = (act x.op x.env S.state).2 := by
  cases a with
  | spawn j => exact .inl ⟨rfl, rfl⟩
  | resume i e =>
    simp only [issued, step]
    split
    · exact .inr ⟨_, rfl, rfl⟩
    · exact .inl ⟨rfl, rfl⟩

variable {code act}

theorem run_keeps {K : σ → Prop} {S : Pool Ans ι σ} (as : List (Step ι Env))
    (hstep : ∀ y ∈ S.trace code act as, ∀ x, y.1.issued y.2 = some x → K y.1.state →
      K (act x.op x.env y.1.state).2)
    (h : K S.state) : K (S.run code act as).state := by
  induction as generalizing S with
  | nil => exact h
  | cons a as ih =>
    simp only [trace_cons, List.mem_cons, forall_eq_or_imp] at hstep
    refine ih hstep.2 ?_
    rcases step_state code act S a with ⟨-, hs⟩ | ⟨x, hx, hs⟩
    · rwa [hs]
    · rw [hs]
      exact hstep.1 x hx h

/-- Where each call keeps `K` exactly if it meets `C`, a run stays in `K` exactly if all its calls meet `C`. -/
theorem always_iff {K : σ → Prop} {C : σ → Op → Prop} (hact : ∀ o e s, K s → (K (act o e s).2 ↔ C s o))
    {S : Pool Ans ι σ} (h : K S.state) (as : List (Step ι Env)) :
    (∀ as₁ as₂, as = as₁ ++ as₂ → K (S.run code act as₁).state) ↔
      ∀ y ∈ S.trace code act as, ∀ x, y.1.issued y.2 = some x → C y.1.state x.op := by
  induction as generalizing S with
  | nil =>
    refine iff_of_true (fun as₁ as₂ he => ?_) fun y hy => absurd hy List.not_mem_nil
    obtain ⟨rfl, rfl⟩ := List.append_eq_nil_iff.1 he.symm
    exact h
  | cons a as ih =>
    have hhead : K (S.step code act a).state ↔ ∀ x, S.issued a = some x → C S.state x.op := by
      rcases step_state code act S a with ⟨hn, hs⟩ | ⟨x, hx, hs⟩
      · rw [hs, hn]
        exact iff_of_true h fun _ hx => by cases hx
      · rw [hs, hact _ _ _ h, hx]
        exact ⟨fun hC _ he => Option.some.inj he ▸ hC, fun hC => hC x rfl⟩
    rw [trace_cons, List.forall_mem_cons]
    constructor
    · intro hall
      have hstep := hall [a] as rfl
      exact ⟨hhead.1 hstep, (ih hstep).1 fun as₁ as₂ he => hall (a :: as₁) as₂ (by rw [he]; rfl)⟩
    · rintro ⟨hC, hrest⟩ as₁ as₂ he
      cases as₁ with
      | nil => exact h
      | cons b as₁ =>
        obtain ⟨rfl, has⟩ := List.cons.inj he
        exact (ih (hhead.2 hC)).2 hrest as₁ as₂ has

theorem hist_step {S : Pool Ans ι σ} {a : Step ι Env} {th : Thread Ans ι}
    (hth : th ∈ (S.step code act a).threads) {c : Call Ans} (hc : c ∈ th.hist) :
    (∃ th' ∈ S.threads, th'.job = th.job ∧ c ∈ th'.hist) ∨
      ∃ x, S.issued a = some x ∧ x.job = th.job ∧ c = ⟨x.op, (act x.op x.env S.state).1⟩ := by
  cases a with
  | spawn j =>
    rcases List.mem_append.1 hth with hth | hth
    · exact .inl ⟨th, hth, rfl, hc⟩
    · rw [List.mem_singleton.1 hth] at hc
      exact absurd hc List.not_mem_nil
  | resume i e =>
    simp only [step] at hth
    simp only [issued]
    split at hth
    · rename_i j o k h hi
      rcases List.mem_or_eq_of_mem_set hth with hth | rfl
      · exact .inl ⟨th, hth, rfl, hc⟩
      · rcases List.mem_cons.1 hc with rfl | hc
        · exact .inr ⟨_, rfl, rfl, rfl⟩
        · exact .inl ⟨_, List.mem_of_getElem? hi, rfl, hc⟩
    · exact .inl ⟨th, hth, rfl, hc⟩

theorem hist_run {S : Pool Ans ι σ} (as : List (Step ι Env)) {th : Thread Ans ι}
    (hth : th ∈ (S.run code act as).threads) {c : Call Ans} (hc : c ∈ th.hist) :
    (∃ th' ∈ S.threads, th'.job = th.job ∧ c ∈ th'.hist) ∨
      ∃ y ∈ S.trace code act as, ∃ x, y.1.issued y.2 = some x ∧ x.job = th.job ∧
        c = ⟨x.op, (act x.op x.env y.1.state).1⟩ := by
  induction as generalizing S with
  | nil => exact .inl ⟨th, hth, rfl, hc⟩
  | cons a as ih =>
    rcases ih hth with ⟨th', hth', hj, hc'⟩ | ⟨y, hy, x, hx⟩
    · rcases hist_step hth' hc' with ⟨th'', hth'', hj', hc''⟩ | ⟨x, hx, hj', hc''⟩
      · exact .inl ⟨th'', hth'', hj'.trans hj, hc''⟩
      · exact .inr ⟨(S, a), List.mem_cons_self, x, hx, hj'.trans hj, hc''⟩
    · exact .inr ⟨y, List.mem_cons_of_mem _ hy, x, hx⟩

theorem mem_of_issued {S : Pool Ans ι σ} {a : Step ι Env} {x : Issue Ans ι Env} (hx : S.issued a = some x) :
    ∃ th ∈ S.threads, th.job = x.job ∧ th.hist = x.hist := by
  cases a with
  | spawn j => cases hx
  | resume i e =>
    simp only [issued] at hx
    split at hx
    · cases hx
      exact ⟨_, List.mem_of_getElem? ‹_›, rfl, rfl⟩
    · cases hx

theorem job_step {S : Pool Ans ι σ} {a : Step ι Env} {th : Thread Ans ι}
    (hth : th ∈ (S.step code act a).threads) : (∃ th' ∈ S.threads, th'.job = th.job) ∨ a = .spawn th.job := by
  cases a with
  | spawn j =>
    rcases List.mem_append.1 hth with hth | hth
    · exact .inl ⟨th, hth, rfl⟩
    · rw [List.mem_singleton.1 hth]
      exact .inr rfl
  | resume i e =>
    simp only [step] at hth
    split at hth
    · rename_i j o k h hi
      rcases List.mem_or_eq_of_mem_set hth with hth | rfl
      · exact .inl ⟨th, hth, rfl⟩
      · exact .inl ⟨_, List.mem_of_getElem? hi, rfl⟩
    · exact .inl ⟨th, hth, rfl⟩

/-- Every call is made for a job that was under way or has been started. -/
theorem job_of_mem_trace {S : Pool Ans ι σ} {as : List (Step ι Env)} {y : Pool Ans ι σ × Step ι Env}
    (hy : y ∈ S.trace code act as) {x : Issue Ans ι Env} (hx : y.1.issued y.2 = some x) :
    (∃ th ∈ S.threads, th.job = x.job) ∨ .spawn x.job ∈ as := by
  induction as generalizing S with
  | nil => cases hy
  | cons a as ih =>
    rcases List.mem_cons.1 hy with rfl | hy
    · obtain ⟨th, hth, hjob, -⟩ := mem_of_issued hx
      exact .inl ⟨th, hth, hjob⟩
    · rcases ih hy with ⟨th, hth, hjob⟩ | hspawn
      · rcases job_step hth with ⟨th', hth', hjob'⟩ | rfl
        · exact .inl ⟨th', hth', hjob'.trans hjob⟩
        · exact .inr (hjob ▸ List.mem_cons_self)
      · exact .inr (List.mem_cons_of_mem a hspawn)

/-- Every answer that the handler of a step has seen was given at a step of the run before, to the same
job. -/
theorem hist_of_mem_trace {s : σ} {as : List (Step ι Env)} {y : Pool Ans ι σ × Step ι Env}
    (hy : y ∈ (⟨s, []⟩ : Pool Ans ι σ).trace code act as) {x : Issue Ans ι Env}
    (hx : y.1.issued y.2 = some x) {c : Call Ans} (hc : c ∈ x.hist) :
    ∃ y' ∈ (⟨s, []⟩ : Pool Ans ι σ).trace code act as, ∃ x', y'.1.issued y'.2 = some x' ∧
      x'.job = x.job ∧ c = ⟨x'.op, (act x'.op x'.env y'.1.state).1⟩ := by
  obtain ⟨th, hth, hj, hh⟩ := mem_of_issued hx
  obtain ⟨l, r, hlr⟩ := List.append_of_mem hy
  obtain ⟨as₁, as₂, -, h₁, h₂⟩ := trace_eq_append code act _ hlr
  cases as₂ with
  | nil => simp at h₂
  | cons a as₂ =>
    rw [trace_cons, List.cons.injEq] at h₂
    obtain ⟨rfl, -⟩ := h₂
    rcases hist_run as₁ hth (hh ▸ hc) with ⟨th', hth', -⟩ | ⟨y, hy, x', hx', hj', hc'⟩
    · exact absurd hth' List.not_mem_nil
    · exact ⟨y, hlr ▸ h₁ ▸ List.mem_append_left _ hy, x', hx', hj'.trans hj, hc'⟩

end Pool

section
variable {code : ι → Prog Ans Unit} {act : (o : Op) → Env → σ → Ans o × σ}
  {P : ι → List (Call Ans) → Op → Prop} {I : σ → Prop} {R : σ → σ → Prop}

/-- Each answer of `h` was given by a state satisfying `I` from which `R` leads to `s`. -/
def Answered (act : (o : Op) → Env → σ → Ans o × σ) (I : σ → Prop) (R : σ → σ → Prop) (s : σ)
    (h : List (Call Ans)) : Prop :=
  ∀ c ∈ h, ∃ e s₀, I s₀ ∧ c.2 = (act c.1 e s₀).1 ∧ R (act c.1 e s₀).2 s

theorem Answered.mono {s s' : σ} {h : List (Call Ans)} (trans : ∀ a b c, R a b → R b c → R a c)
    (hh : Answered act I R s h) (hR : R s s') : Answered act I R s' h := fun c hc => by
  obtain ⟨e, s₀, hI, hc', hr⟩ := hh c hc
  exact ⟨e, s₀, hI, hc', trans _ _ _ hr hR⟩

theorem Answered.cons {s : σ} {h : List (Call Ans)} (refl : ∀ s, R s s)
    (trans : ∀ a b c, R a b → R b c → R a c) (hh : Answered act I R s h) (hI : I s) {o : Op} {e : Env}
    (hR : R s (act o e s).2) : Answered act I R (act o e s).2 (⟨o, (act o e s).1⟩ :: h) := by
  intro c hc
  rcases List.mem_cons.1 hc with rfl | hc
  · exact ⟨e, s, hI, rfl, refl _⟩
  · exact hh.mono trans hR c hc

structure Grounded (act : (o : Op) → Env → σ → Ans o × σ) (P : ι → List (Call Ans) → Op → Prop)
    (I : σ → Prop) (R : σ → σ → Prop) (S : Pool Ans ι σ) : Prop where
  inv : I S.state
  calls : ∀ th ∈ S.threads, th.prog.wp (P th.job) (fun _ _ => True) th.hist
  hist : ∀ th ∈ S.threads, Answered act I R S.state th.hist

namespace Grounded
variable {S : Pool Ans ι σ}

theorem init {s : σ} (hI : I s) : Grounded act P I R (⟨s, []⟩ : Pool Ans ι σ) :=
  ⟨hI, fun _ h => absurd h List.not_mem_nil, fun _ h => absurd h List.not_mem_nil⟩

theorem allowed (h : Grounded act P I R S) {a : Step ι Env} {x : Issue Ans ι Env}
    (hx : S.issued a = some x) :
    P x.job x.hist x.op ∧ Answered act I R S.state x.hist := by
  cases a with
  | spawn j => cases hx
  | resume i e =>
    simp only [Pool.issued] at hx
    split at hx
    · rename_i j o k hi hth
      cases hx
      have hmem := List.mem_of_getElem? hth
      exact ⟨(h.calls _ hmem).1, h.hist _ hmem⟩
    · cases hx

theorem step (h : Grounded act P I R S) (hcode : ∀ j, (code j).wp (P j) (fun _ _ => True) [])
    (refl : ∀ s, R s s) (trans : ∀ a b c, R a b → R b c → R a c) (a : Step ι Env)
    (hstep : ∀ x, S.issued a = some x →
      I (act x.op x.env S.state).2 ∧ R S.state (act x.op x.env S.state).2) :
    Grounded act P I R (S.step code act a) ∧ R S.state (S.step code act a).state := by
  cases a with
  | spawn j =>
    refine ⟨⟨h.inv, fun th hth => ?_, fun th hth => ?_⟩, refl _⟩ <;>
      rcases List.mem_append.1 hth with hth | hth
    · exact h.calls th hth
    · rw [List.mem_singleton.1 hth]; exact hcode j
    · exact h.hist th hth
    · rw [List.mem_singleton.1 hth]; exact fun _ hc => absurd hc List.not_mem_nil
  | resume i e =>
    simp only [Pool.issued] at hstep
    simp only [Pool.step]
    split
    · rename_i j o k hi hth
      rw [hth] at hstep
      obtain ⟨hI, hR⟩ := hstep _ rfl
      have hmem := List.mem_of_getElem? hth
      refine ⟨⟨hI, fun th hth => ?_, fun th hth => ?_⟩, hR⟩ <;>
        rcases List.mem_or_eq_of_mem_set hth with hth | rfl
      · exact h.calls th hth
      · exact (h.calls _ hmem).2 _
      · exact (h.hist th hth).mono trans hR
      · exact (h.hist _ hmem).cons refl trans h.inv hR
    · exact ⟨h, refl _⟩

/-- The rule for runs: a run whose steps all meet `C` keeps the pool grounded and is an `R` step. -/
theorem run (C : Pool Ans ι σ → Step ι Env → Prop)
    (hcode : ∀ j, (code j).wp (P j) (fun _ _ => True) [])
    (refl : ∀ s, R s s) (trans : ∀ a b c, R a b → R b c → R a c)
    (hstep : ∀ (S : Pool Ans ι σ) a x, Grounded act P I R S → C S a → S.issued a = some x →
      I (act x.op x.env S.state).2 ∧ R S.state (act x.op x.env S.state).2)
    (as : List (Step ι Env)) (h : Grounded act P I R S) (hC : ∀ y ∈ S.trace code act as, C y.1 y.2) :
    Grounded act P I R (S.run code act as) ∧ R S.state (S.run code act as).state := by
  induction as generalizing S with
  | nil => exact ⟨h, refl _⟩
  | cons a as ih =>
    simp only [Pool.trace_cons, List.mem_cons, forall_eq_or_imp] at hC
    have h₁ := h.step hcode refl trans a fun x hx => hstep S a x h hC.1 hx
    have h₂ := ih h₁.1 hC.2
    exact ⟨h₂.1, trans _ _ _ h₁.2 h₂.2⟩

theorem run_from (C : Pool Ans ι σ → Step ι Env → Prop)
    (hcode : ∀ j, (code j).wp (P j) (fun _ _ => True) [])
    (refl : ∀ s, R s s) (trans : ∀ a b c, R a b → R b c → R a c)
    (hstep : ∀ (S : Pool Ans ι σ) a x, Grounded act P I R S → C S a → S.issued a = some x →
      I (act x.op x.env S.state).2 ∧ R S.state (act x.op x.env S.state).2)
    (as₁ as₂ : List (Step ι Env)) (h : Grounded act P I R S)
    (hC : ∀ y ∈ S.trace code act (as₁ ++ as₂), C y.1 y.2) :
    R (S.run code act as₁).state (S.run code act (as₁ ++ as₂)).state := by
  rw [Pool.trace_append, List.forall_mem_append] at hC
  rw [Pool.run_append]
  exact (run C hcode refl trans hstep as₂ (run C hcode refl trans hstep as₁ h hC.1).1 hC.2).2

theorem of_mem_trace (C : Pool Ans ι σ → Step ι Env → Prop)
    (hcode : ∀ j, (code j).wp (P j) (fun _ _ => True) [])
    (refl : ∀ s, R s s) (trans : ∀ a b c, R a b → R b c → R a c)
    (hstep : ∀ (S : Pool Ans ι σ) a x, Grounded act P I R S → C S a → S.issued a = some x →
      I (act x.op x.env S.state).2 ∧ R S.state (act x.op x.env S.state).2)
    {as : List (Step ι Env)} (h : Grounded act P I R S) (hC : ∀ y ∈ S.trace code act as, C y.1 y.2)
    {y : Pool Ans ι σ × Step ι Env} (hy : y ∈ S.trace code act as) : Grounded act P I R y.1 := by
  obtain ⟨l, r, hlr⟩ := List.append_of_mem hy
  obtain ⟨as₁, as₂, -, h₁, h₂⟩ := Pool.trace_eq_append code act S hlr
  cases as₂ with
  | nil => simp at h₂
  | cons a as₂ =>
    rw [Pool.trace_cons, List.cons.injEq] at h₂
    rw [← h₂.1]
    refine (run C hcode refl trans hstep as₁ h fun y hy => hC y ?_).1
    rw [hlr, ← h₁]
    exact List.mem_append_left _ hy

end Grounded

variable (code act)

/-- A thread that is resumed until it ends, with no other step in between, does what `Prog.exec` says. -/
theorem Pool.run_alone (p : Prog Ans Unit) (j : ι) (hist : List (Call Ans)) (ts : List (Thread Ans ι))
    (ω : Stream' Env) (s : σ) :
    ∃ (n : Nat) (hist' : List (Call Ans)),
      (⟨s, ts ++ [⟨j, p, hist⟩]⟩ : Pool Ans ι σ).run code act
          ((List.range n).map fun m => .resume ts.length (ω.get m)) =
        ⟨(p.exec act ω s).2.2, ts ++ [⟨j, .ret (), hist'⟩]⟩ := by
  induction p generalizing hist ω s with
  | ret a => exact ⟨0, hist, rfl⟩
  | call o k ih =>
    obtain ⟨n, hist', hn⟩ := ih (act o ω.head s).1 (⟨o, (act o ω.head s).1⟩ :: hist) ω.tail
      (act o ω.head s).2
    refine ⟨n + 1, hist', ?_⟩
    rw [List.range_succ_eq_map, List.map_cons, List.map_map, Pool.run_cons]
    have hstep : (⟨s, ts ++ [⟨j, .call o k, hist⟩]⟩ : Pool Ans ι σ).step code act
        (.resume ts.length (ω.get 0)) =
        ⟨(act o ω.head s).2, ts ++ [⟨j, k (act o ω.head s).1, ⟨o, (act o ω.head s).1⟩ :: hist⟩]⟩ := by
      simp [Pool.step, Stream'.head]
    rw [hstep]
    exact hn

/-- Programs run alone one after the other are a run. -/
theorem Pool.run_in_turn (xs : List (ι × Stream' Env)) (s : σ) (ts : List (Thread Ans ι)) :
    ∃ (as : List (Step ι Env)) (ts' : List (Thread Ans ι)),
      (⟨s, ts⟩ : Pool Ans ι σ).run code act as =
        ⟨xs.foldl (fun s x => ((code x.1).exec act x.2 s).2.2) s, ts'⟩ := by
  induction xs generalizing s ts with
  | nil => exact ⟨[], ts, rfl⟩
  | cons x xs ih =>
    obtain ⟨n, hist, hn⟩ := run_alone code act (code x.1) x.1 [] ts x.2 s
    obtain ⟨as, ts', has⟩ := ih ((code x.1).exec act x.2 s).2.2 (ts ++ [⟨x.1, .ret (), hist⟩])
    refine ⟨.spawn x.1 :: (((List.range n).map fun m => .resume ts.length (x.2.get m)) ++ as), ts', ?_⟩
    have hspawn : (⟨s, ts⟩ : Pool Ans ι σ).step code act (.spawn x.1) = ⟨s, ts ++ [⟨x.1, code x.1, []⟩]⟩ := rfl
    rw [run_cons, run_append, hspawn, hn, has]
    rfl

end

end Lib
