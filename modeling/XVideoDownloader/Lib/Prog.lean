import Mathlib.Data.Stream.Init

/-!
# Programs of atomic calls

`Prog Ans α` is a program that returns an `α` after calls `o : Op`, each answered by a value of `Ans o`.
A call is atomic; what lies between two calls is local to the program. An interpretation
`act : (o : Op) → Env → σ → Ans o × σ` says what a call does to a shared state, given the choice `Env`
the environment makes for it.

* `exec act p ω s`: `p` alone, from start to end, on the choices `ω` (`exec_forM` is the rule for loops);
* `calls act p ω s`: the calls it makes on the way, each with the state that it finds;
* `wp P p Q h`: after the calls `h`, every call `p` can make is one that `P` allows, whatever is answered,
  and `p` ends with `Q`. No state is involved: this is what the text of `p` alone guarantees.
-/

namespace Lib

variable {Op : Type} {Ans : Op → Type}

inductive Prog (Ans : Op → Type) (α : Type) : Type
  | ret (a : α)
  | call (o : Op) (k : Ans o → Prog Ans α)

abbrev Call (Ans : Op → Type) := (o : Op) × Ans o

namespace Prog
variable {α β γ : Type}

def bind : Prog Ans α → (α → Prog Ans β) → Prog Ans β
  | ret a, f => f a
  | call o k, f => call o fun r => (k r).bind f

instance : Monad (Prog Ans) where
  pure := ret
  bind := bind

def op (o : Op) : Prog Ans (Ans o) := call o ret

theorem bind_ret (p : Prog Ans α) : p.bind ret = p := by
  induction p with
  | ret a => rfl
  | call o k ih => exact congrArg (call o) (funext ih)

theorem bind_assoc (p : Prog Ans α) (f : α → Prog Ans β) (g : β → Prog Ans γ) :
    (p.bind f).bind g = p.bind fun a => (f a).bind g := by
  induction p with
  | ret a => rfl
  | call o k ih => exact congrArg (call o) (funext ih)

instance : LawfulMonad (Prog Ans) :=
  LawfulMonad.mk' _ bind_ret (fun _ _ => rfl) bind_assoc

/-! ### Running alone -/

section
variable {Env σ : Type} (act : (o : Op) → Env → σ → Ans o × σ)

/-- `p` runs to its end with no other program in between; each call takes the next choice of `ω`. -/
def exec : Prog Ans α → Stream' Env → σ → α × Stream' Env × σ
  | ret a, ω, s => (a, ω, s)
  | call o k, ω, s => exec (k (act o ω.head s).1) ω.tail (act o ω.head s).2

@[simp] theorem exec_pure (a : α) (ω : Stream' Env) (s : σ) :
    exec act (pure a : Prog Ans α) ω s = (a, ω, s) := rfl

@[simp] theorem exec_op (o : Op) (ω : Stream' Env) (s : σ) :
    exec act (op o : Prog Ans (Ans o)) ω s = ((act o ω.head s).1, ω.tail, (act o ω.head s).2) := rfl

@[simp] theorem exec_bind (p : Prog Ans α) (f : α → Prog Ans β) (ω : Stream' Env) (s : σ) :
    exec act (p >>= f) ω s = exec act (f (exec act p ω s).1) (exec act p ω s).2.1 (exec act p ω s).2.2 := by
  show exec act (p.bind f) ω s = _
  induction p generalizing ω s with
  | ret a => rfl
  | call o k ih => exact ih _ _ _

@[simp] theorem exec_forM_nil (f : β → Prog Ans PUnit) (ω : Stream' Env) (s : σ) :
    exec act (([] : List β).forM f) ω s = (⟨⟩, ω, s) := rfl

@[simp] theorem exec_forM_cons (x : β) (xs : List β) (f : β → Prog Ans PUnit) (ω : Stream' Env) (s : σ) :
    exec act ((x :: xs).forM f) ω s =
      exec act (xs.forM f) (exec act (f x) ω s).2.1 (exec act (f x) ω s).2.2 :=
  exec_bind act (f x) (fun _ => xs.forM f) ω s

/-- The rule for loops run alone: `J` speaks of the rounds that are still to come. -/
theorem exec_forM (J : List β → Stream' Env → σ → Prop) (f : β → Prog Ans PUnit)
    (hf : ∀ x xs ω s, J (x :: xs) ω s → J xs (exec act (f x) ω s).2.1 (exec act (f x) ω s).2.2)
    (xs : List β) (ω : Stream' Env) (s : σ) (h : J xs ω s) :
    J [] (exec act (xs.forM f) ω s).2.1 (exec act (xs.forM f) ω s).2.2 := by
  induction xs generalizing ω s with
  | nil => exact h
  | cons x xs ih =>
    rw [exec_forM_cons]
    exact ih _ _ (hf x xs ω s h)

theorem exec_drop (p : Prog Ans α) (ω : Stream' Env) (s : σ) :
    ∃ n, (exec act p ω s).2.1 = ω.drop n := by
  induction p generalizing ω s with
  | ret a => exact ⟨0, rfl⟩
  | call o k ih =>
    obtain ⟨n, hn⟩ := ih (act o ω.head s).1 ω.tail (act o ω.head s).2
    refine ⟨n + 1, ?_⟩
    rw [exec, hn, Stream'.tail_eq_drop, Stream'.drop_drop, Nat.add_comm]

/-- A call that was made: the state that it found, and the environment's choice for it. -/
structure Made (Op Env σ : Type) where
  state : σ
  op : Op
  env : Env

def calls : Prog Ans α → Stream' Env → σ → List (Made Op Env σ)
  | ret _, _, _ => []
  | call o k, ω, s => ⟨s, o, ω.head⟩ :: calls (k (act o ω.head s).1) ω.tail (act o ω.head s).2

@[simp] theorem calls_pure (a : α) (ω : Stream' Env) (s : σ) : calls act (pure a : Prog Ans α) ω s = [] := rfl

@[simp] theorem calls_op (o : Op) (ω : Stream' Env) (s : σ) :
    calls act (op o : Prog Ans (Ans o)) ω s = [⟨s, o, ω.head⟩] := rfl

@[simp] theorem calls_bind (p : Prog Ans α) (f : α → Prog Ans β) (ω : Stream' Env) (s : σ) :
    calls act (p >>= f) ω s =
      calls act p ω s ++ calls act (f (exec act p ω s).1) (exec act p ω s).2.1 (exec act p ω s).2.2 := by
  show calls act (p.bind f) ω s = _
  induction p generalizing ω s with
  | ret a => rfl
  | call o k ih => exact congrArg (_ :: ·) (ih _ _ _)

@[simp] theorem calls_forM_nil (f : β → Prog Ans PUnit) (ω : Stream' Env) (s : σ) :
    calls act (([] : List β).forM f) ω s = [] := rfl

@[simp] theorem calls_forM_cons (x : β) (xs : List β) (f : β → Prog Ans PUnit) (ω : Stream' Env) (s : σ) :
    calls act ((x :: xs).forM f) ω s =
      calls act (f x) ω s ++ calls act (xs.forM f) (exec act (f x) ω s).2.1 (exec act (f x) ω s).2.2 :=
  calls_bind act (f x) (fun _ => xs.forM f) ω s

theorem calls_env (p : Prog Ans α) (ω : Stream' Env) (s : σ) : ∀ c ∈ calls act p ω s, ∃ n, c.env = ω.get n := by
  induction p generalizing ω s with
  | ret a => exact fun _ hc => absurd hc List.not_mem_nil
  | call o k ih =>
    rw [calls, List.forall_mem_cons]
    refine ⟨⟨0, rfl⟩, fun c hc => ?_⟩
    obtain ⟨n, hn⟩ := ih _ _ _ c hc
    exact ⟨n + 1, hn⟩

/-- The state that `p` leaves is the one that its last call leaves. -/
theorem exec_state (p : Prog Ans α) (ω : Stream' Env) (s : σ) :
    (exec act p ω s).2.2 = ((calls act p ω s).getLast?.map fun c => (act c.op c.env c.state).2).getD s := by
  induction p generalizing ω s with
  | ret a => rfl
  | call o k ih =>
    rw [exec, calls, ih, List.getLast?_cons]
    cases (calls act (k (act o ω.head s).1) ω.tail (act o ω.head s).2).getLast? <;> rfl

/-- A log that every call adds to is, in the end, what the calls have added. -/
theorem exec_log {γ : Type} (log : σ → List γ) (added : Made Op Env σ → List γ)
    (h : ∀ o e s, log (act o e s).2 = log s ++ added ⟨s, o, e⟩) (p : Prog Ans α) (ω : Stream' Env) (s : σ) :
    log (exec act p ω s).2.2 = log s ++ (calls act p ω s).flatMap added := by
  induction p generalizing ω s with
  | ret a => exact (List.append_nil _).symm
  | call o k ih => rw [exec, calls, ih, h, List.flatMap_cons, List.append_assoc]

end

/-! ### The calls of a program -/

def wp (P : List (Call Ans) → Op → Prop) :
    Prog Ans α → (α → List (Call Ans) → Prop) → List (Call Ans) → Prop
  | ret a, Q, h => Q a h
  | call o k, Q, h => P h o ∧ ∀ r, wp P (k r) Q (⟨o, r⟩ :: h)

variable {P : List (Call Ans) → Op → Prop}

@[simp] theorem wp_pure (a : α) (Q : α → List (Call Ans) → Prop) (h : List (Call Ans)) :
    wp P (pure a) Q h ↔ Q a h := Iff.rfl

@[simp] theorem wp_op (o : Op) (Q : Ans o → List (Call Ans) → Prop) (h : List (Call Ans)) :
    wp P (op o) Q h ↔ P h o ∧ ∀ r, Q r (⟨o, r⟩ :: h) := Iff.rfl

@[simp] theorem wp_bind (p : Prog Ans α) (f : α → Prog Ans β) (Q : β → List (Call Ans) → Prop)
    (h : List (Call Ans)) :
    wp P (p >>= f) Q h ↔ wp P p (fun a h' => wp P (f a) Q h') h := by
  show wp P (p.bind f) Q h ↔ _
  induction p generalizing h with
  | ret a => exact Iff.rfl
  | call o k ih => exact and_congr_right fun _ => forall_congr' fun r => ih r _

theorem wp.mono {Q Q' : α → List (Call Ans) → Prop} (hQ : ∀ a h, Q a h → Q' a h) {p : Prog Ans α}
    {h : List (Call Ans)} (hp : wp P p Q h) : wp P p Q' h := by
  induction p generalizing h with
  | ret a => exact hQ _ _ hp
  | call o k ih => exact ⟨hp.1, fun r => ih r (hp.2 r)⟩

theorem wp.exec {Env σ : Type} {act : (o : Op) → Env → σ → Ans o × σ} {J : σ → Prop}
    (hJ : ∀ h o e s, P h o → J s → J (act o e s).2) {p : Prog Ans α}
    {Q : α → List (Call Ans) → Prop} {h : List (Call Ans)} (hp : wp P p Q h) (ω : Stream' Env) {s : σ}
    (hs : J s) : J (exec act p ω s).2.2 := by
  induction p generalizing h ω s with
  | ret a => exact hs
  | call o k ih => exact ih _ (hp.2 _) _ (hJ h o _ s hp.1 hs)

theorem wp.calls {Env σ : Type} {act : (o : Op) → Env → σ → Ans o × σ} {J : σ → Prop}
    (hJ : ∀ h o e s, P h o → J s → J (act o e s).2) {p : Prog Ans α} {Q : α → List (Call Ans) → Prop}
    {h : List (Call Ans)} (hp : wp P p Q h) (ω : Stream' Env) {s : σ} (hs : J s) :
    ∀ c ∈ Prog.calls act p ω s, J c.state ∧ ∃ h', P h' c.op := by
  induction p generalizing h ω s with
  | ret a => exact fun c hc => absurd hc List.not_mem_nil
  | call o k ih =>
    rw [Prog.calls, List.forall_mem_cons]
    exact ⟨⟨hs, h, hp.1⟩, ih _ (hp.2 _) _ (hJ h o _ s hp.1 hs)⟩

/-- The rule for two runs on the same choices: where each allowed call answers the same in both and keeps
`J` between them, the whole program does. -/
theorem wp.exec_sim {Env σ : Type} {act : (o : Op) → Env → σ → Ans o × σ} {E : Env → Prop}
    {J : List (Call Ans) → σ → σ → Prop}
    (hJ : ∀ h o e s₁ s₂, P h o → E e → J h s₁ s₂ → (act o e s₁).1 = (act o e s₂).1 ∧
      J (⟨o, (act o e s₁).1⟩ :: h) (act o e s₁).2 (act o e s₂).2)
    {p : Prog Ans α} {Q : α → List (Call Ans) → Prop} {h : List (Call Ans)} (hp : wp P p Q h)
    (ω : Stream' Env) (hω : ∀ n, E (ω.get n)) {s₁ s₂ : σ} (hs : J h s₁ s₂) :
    (Prog.exec act p ω s₁).1 = (Prog.exec act p ω s₂).1 ∧
      ∃ h', J h' (Prog.exec act p ω s₁).2.2 (Prog.exec act p ω s₂).2.2 := by
  induction p generalizing h ω s₁ s₂ with
  | ret a => exact ⟨rfl, h, hs⟩
  | call o k ih =>
    obtain ⟨hans, hs'⟩ := hJ h o ω.head s₁ s₂ hp.1 (hω 0) hs
    have hk := ih _ (hp.2 _) ω.tail (fun n => hω (n + 1)) hs'
    simp only [Prog.exec]
    rwa [← hans]

/-- The rule for loops: `J` holds before and after each round. -/
theorem wp_forM (J : List (Call Ans) → Prop) {f : β → Prog Ans PUnit} (xs : List β)
    (hf : ∀ x ∈ xs, ∀ h, J h → wp P (f x) (fun _ => J) h) {h : List (Call Ans)} (hJ : J h) :
    wp P (xs.forM f) (fun _ => J) h := by
  induction xs generalizing h with
  | nil => exact hJ
  | cons x xs ih =>
    show wp P (f x >>= fun _ => xs.forM f) _ h
    rw [wp_bind]
    refine (hf x List.mem_cons_self h hJ).mono fun _ h' hJ' => ?_
    exact ih (fun y hy => hf y (List.mem_cons_of_mem _ hy)) hJ'

end Prog

end Lib
