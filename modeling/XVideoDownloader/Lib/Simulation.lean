import XVideoDownloader.Lib.Pool

/-!
# Pools over two states

Two pools run the same programs, each over a state of its own. `Simulates P V R S T` says that they have the same
threads with the same answers, each thread bound by `P` (`Prog.wp`) and each answer a `V`, and that `R` holds
between the states. `Simulates.run` is the rule: if a call that `P` allows after `V` answers is answered the same on
both sides and keeps `R`, then so does every run. `V` and `R` may grow with the number of the step.
-/

namespace Lib
variable {Op : Type} {Ans : Op → Type} {ι Env σ τ : Type}

structure Simulates (P : ι → List (Call Ans) → Op → Prop) (V : Call Ans → Prop) (R : σ → τ → Prop)
    (S : Pool Ans ι σ) (T : Pool Ans ι τ) : Prop where
  threads : T.threads = S.threads
  state : R S.state T.state
  calls : ∀ th ∈ S.threads, th.prog.wp (P th.job) (fun _ _ => True) th.hist
  hist : ∀ th ∈ S.threads, ∀ c ∈ th.hist, V c

/-- A call has one answer on both sides, which is a `V`, and leaves states that `R` relates. -/
structure Agrees (V : Call Ans → Prop) (R : σ → τ → Prop) (o : Op) (r : Ans o × σ) (r' : Ans o × τ) : Prop where
  ans : r'.1 = r.1
  fine : V ⟨o, r.1⟩
  state : R r.2 r'.2

namespace Simulates
variable {P : ι → List (Call Ans) → Op → Prop} {S : Pool Ans ι σ} {T : Pool Ans ι τ} {code : ι → Prog Ans Unit}
  {act : (o : Op) → Env → σ → Ans o × σ} {act' : (o : Op) → Env → τ → Ans o × τ}

section
variable {V V' : Call Ans → Prop} {R R' : σ → τ → Prop}

theorem init {s : σ} {t : τ} (h : R s t) : Simulates P V R (⟨s, []⟩ : Pool Ans ι σ) ⟨t, []⟩ :=
  ⟨rfl, h, fun _ h => absurd h List.not_mem_nil, fun _ h => absurd h List.not_mem_nil⟩

theorem mono (h : Simulates P V R S T) (hV : ∀ c, V c → V' c) (hR : ∀ s t, R s t → R' s t) :
    Simulates P V' R' S T :=
  ⟨h.threads, hR _ _ h.state, h.calls, fun th hth c hc => hV c (h.hist th hth c hc)⟩

theorem spawn (h : Simulates P V R S T) {j : ι} (hcode : (code j).wp (P j) (fun _ _ => True) []) :
    Simulates P V R (S.step code act (.spawn j)) (T.step code act' (.spawn j)) := by
  refine ⟨?_, h.state, fun th hth => ?_, fun th hth => ?_⟩
  · show T.threads ++ _ = S.threads ++ _
    rw [h.threads]
  all_goals
    rcases List.mem_append.1 hth with hth | hth
  · exact h.calls th hth
  · rw [List.mem_singleton.1 hth]
    exact hcode
  · exact h.hist th hth
  · rw [List.mem_singleton.1 hth]
    exact fun _ hc => absurd hc List.not_mem_nil

theorem resume (h : Simulates P V R S T) (hV : ∀ c, V c → V' c) (hR : ∀ s t, R s t → R' s t) (i : Nat) (e : Env)
    (hact : ∀ j hist o, P j hist o → (∀ c ∈ hist, V c) → Agrees V' R' o (act o e S.state) (act' o e T.state)) :
    Simulates P V' R' (S.step code act (.resume i e)) (T.step code act' (.resume i e)) := by
  simp only [Pool.step, h.threads]
  split
  · rename_i j o k hist hi
    have hmem := List.mem_of_getElem? hi
    obtain ⟨hans, hfine, hstate⟩ := hact j hist o (h.calls _ hmem).1 (h.hist _ hmem)
    refine ⟨by rw [hans], hstate, fun th hth => ?_, fun th hth => ?_⟩
    all_goals
      rcases List.mem_or_eq_of_mem_set hth with hth | rfl
    · exact h.calls th hth
    · exact (h.calls _ hmem).2 _
    · exact fun c hc => hV c (h.hist th hth c hc)
    · exact List.forall_mem_cons.2 ⟨hfine, fun c hc => hV c (h.hist _ hmem c hc)⟩
  · exact h.mono hV hR

end

/-- The rule for runs of fewer than `N` steps, whose jobs are `J` and whose choices are `E`. -/
theorem run {V : Nat → Call Ans → Prop} {R : Nat → σ → τ → Prop} {N : Nat} {J : ι → Prop} {E : Env → Prop}
    (hcode : ∀ j, J j → (code j).wp (P j) (fun _ _ => True) []) (hV : ∀ n c, V n c → V (n + 1) c)
    (hR : ∀ n s t, R n s t → R (n + 1) s t)
    (hact : ∀ n s t j hist o e, n < N → R n s t → P j hist o → (∀ c ∈ hist, V n c) → E e →
      Agrees (V (n + 1)) (R (n + 1)) o (act o e s) (act' o e t))
    (as : List (Step ι Env)) {n : Nat} (hN : n + as.length ≤ N) (hJ : ∀ j, .spawn j ∈ as → J j)
    (hE : ∀ i e, .resume i e ∈ as → E e) (h : Simulates P (V n) (R n) S T) :
    Simulates P (V (n + as.length)) (R (n + as.length)) (S.run code act as) (T.run code act' as) := by
  induction as generalizing n S T with
  | nil => exact h
  | cons a as ih =>
    have hnext : Simulates P (V (n + 1)) (R (n + 1)) (S.step code act a) (T.step code act' a) := by
      cases a with
      | spawn j => exact (h.mono (hV n) (hR n)).spawn (hcode j (hJ j List.mem_cons_self))
      | resume i e =>
        have hn : n < N := by
          rw [List.length_cons] at hN
          omega
        exact h.resume (hV n) (hR n) i e fun j hist o hP hhist =>
          hact n S.state T.state j hist o e hn h.state hP hhist (hE i e List.mem_cons_self)
    have hlen : n + (a :: as).length = n + 1 + as.length := by
      rw [List.length_cons]
      omega
    rw [hlen] at hN ⊢
    exact ih hN (fun j hj => hJ j (List.mem_cons_of_mem _ hj)) (fun i e he => hE i e (List.mem_cons_of_mem _ he)) hnext

end Simulates
end Lib
