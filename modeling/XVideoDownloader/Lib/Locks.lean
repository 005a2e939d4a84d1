import Mathlib.Data.List.MinMax
import Mathlib.Data.List.Perm.Basic
import Mathlib.Logic.Hydra
import XVideoDownloader.Lib.Pool

/-!
# Programs that take locks

The calls of `LockProg` are those of `Prog` and, each a step of its own, the request of a lock, the entry that it
waits for and the release. A lock is held by any number of readers or by one writer; a `fair` one is entered in the
order of the requests. `LockPool` runs such programs side by side; a program may also be dropped while it waits for
anything, and then what it holds is free again.

`Orderly rank need p h`: after the calls `h`, the program `p` requests locks in increasing `rank` only, holds what
`need` says at each call, and ends with none. Of orderly programs:

* `Sound.ends`: they never block each other for good. Whatever the schedule, they all come to their ends.
* `Sound.apart`: at a call that needs a lock for itself, no other program holds it.
* `Erased.run`: what they do to the state they also do without the locks, as programs of a `Pool`.
-/

namespace Lib
variable {Op : Type} {Ans : Op → Type} {L ι Env σ α β : Type}

inductive Mode
  | shared
  | exclusive
  deriving DecidableEq

inductive LockOp (L Op : Type)
  | request (l : L) (m : Mode)
  | enter (l : L) (m : Mode)
  | release (l : L)
  | op (o : Op)

@[reducible] def LockOp.Answer (L : Type) (Ans : Op → Type) : LockOp L Op → Type
  | op o => Ans o
  | _ => Unit

abbrev LockProg (L : Type) (Ans : Op → Type) (α : Type) := Prog (LockOp.Answer L Ans) α

abbrev LockHist (L : Type) (Ans : Op → Type) := List (Call (LockOp.Answer L Ans))

/-! ### What a program holds -/

section
variable [DecidableEq L]

def held : LockHist L Ans → List (L × Mode)
  | [] => []
  | ⟨.enter l m, _⟩ :: h => (l, m) :: held h
  | ⟨.release l, _⟩ :: h => (held h).filter fun x => x.1 ≠ l
  | _ :: h => held h

/-- The lock that has been requested and not yet been entered. -/
def waiting : LockHist L Ans → Option (L × Mode)
  | ⟨.request l m, _⟩ :: _ => some (l, m)
  | _ => none

/-- What an orderly program may do next. -/
def InOrder (rank : L → Nat) (need : Op → Option (L × Mode)) (h : LockHist L Ans) : LockOp L Op → Prop
  | .request l _ => waiting h = none ∧ ∀ x ∈ held h, rank x.1 < rank l
  | .enter l m => waiting h = some (l, m) ∧ ∀ x ∈ held h, rank x.1 < rank l
  | .release l => waiting h = none ∧ ∃ m, (l, m) ∈ held h
  | .op o => waiting h = none ∧ ∀ x ∈ need o, x ∈ held h

def Orderly (rank : L → Nat) (need : Op → Option (L × Mode)) (p : LockProg L Ans α) (h : LockHist L Ans) : Prop :=
  p.wp (InOrder rank need) (fun _ h' => waiting h' = none ∧ held h' = []) h

end

/-! ### The critical sections of a program -/

namespace LockProg

/-- `p` while the lock is held. -/
def locked (l : L) (m : Mode) (p : LockProg L Ans α) : LockProg L Ans α :=
  .call (LockOp.request l m) fun _ => .call (LockOp.enter l m) fun _ =>
    p.bind fun a => .call (LockOp.release l) fun _ => .ret a

def plain (o : Op) : LockProg L Ans (Ans o) := .call (LockOp.op o) fun r => .ret r

/-- Each call in the section of the lock that it needs, and no lock in between. -/
def section' (need : Op → Option (L × Mode)) (o : Op) : LockProg L Ans (Ans o) :=
  match need o with
  | some (l, m) => locked l m (plain o)
  | none => plain o

def sections (need : Op → Option (L × Mode)) : Prog Ans α → LockProg L Ans α
  | .ret a => .ret a
  | .call o k => (section' need o).bind fun r => sections need (k r)

/-- The program without its locks. -/
def erase : LockProg L Ans α → Prog Ans α
  | .ret a => .ret a
  | .call (.op o) k => .call o fun r => erase (k r)
  | .call (.request _ _) k | .call (.enter _ _) k | .call (.release _) k => erase (k ())

@[simp] theorem erase_pure (a : α) : erase (pure a : LockProg L Ans α) = pure a := rfl

@[simp] theorem erase_plain (o : Op) : erase (plain o : LockProg L Ans (Ans o)) = Prog.op o := rfl

@[simp] theorem erase_bind (p : LockProg L Ans α) (f : α → LockProg L Ans β) :
    erase (p >>= f) = erase p >>= fun a => erase (f a) := by
  show erase (p.bind f) = (erase p).bind fun a => erase (f a)
  induction p with
  | ret a => rfl
  | call o k ih =>
    cases o with
    | op o => exact congrArg (Prog.call o) (funext fun r => ih r)
    | request | enter | release => exact ih ()

@[simp] theorem erase_locked (l : L) (m : Mode) (p : LockProg L Ans α) : erase (locked l m p) = erase p :=
  (erase_bind p fun a => .call (LockOp.release l) fun _ => .ret a).trans (Prog.bind_ret (erase p))

@[simp] theorem erase_section' (need : Op → Option (L × Mode)) (o : Op) :
    erase (section' need o : LockProg L Ans (Ans o)) = Prog.op o := by
  unfold section'
  split <;> simp

@[simp] theorem erase_sections (need : Op → Option (L × Mode)) (p : Prog Ans α) : erase (sections need p) = p := by
  induction p with
  | ret a => rfl
  | call o k ih =>
    have hbind := erase_bind (section' need o) fun r => sections need (k r)
    rw [erase_section'] at hbind
    exact hbind.trans (congrArg (Prog.call o) (funext ih))

end LockProg

section
variable [DecidableEq L] {rank : L → Nat} {need : Op → Option (L × Mode)} {xs : List (L × Mode)}

/-- While `xs` is held, `p` requests locks in increasing rank only, and it leaves what is held as it was. -/
def Balanced (rank : L → Nat) (need : Op → Option (L × Mode)) (xs : List (L × Mode)) (p : LockProg L Ans α) : Prop :=
  ∀ h, waiting h = none → held h = xs → p.wp (InOrder rank need) (fun _ h' => waiting h' = none ∧ held h' = xs) h

namespace Balanced

theorem orderly {p : LockProg L Ans α} (hp : Balanced rank need [] p) : Orderly rank need p [] := hp [] rfl rfl

theorem pure (a : α) : Balanced rank need xs (pure a : LockProg L Ans α) := fun _ hw hh => ⟨hw, hh⟩

theorem bind {p : LockProg L Ans α} {f : α → LockProg L Ans β} (hp : Balanced rank need xs p)
    (hf : ∀ a, Balanced rank need xs (f a)) : Balanced rank need xs (p >>= f) := fun h hw hh =>
  (Prog.wp_bind p f _ h).2 ((hp h hw hh).mono fun a h' hh' => hf a h' hh'.1 hh'.2)

theorem plain {o : Op} (hn : ∀ x ∈ need o, x ∈ xs) :
    Balanced rank need xs (LockProg.plain o : LockProg L Ans (Ans o)) := fun _ hw hh =>
  ⟨⟨hw, hh ▸ hn⟩, fun _ => ⟨rfl, hh⟩⟩

theorem locked {l : L} {m : Mode} {p : LockProg L Ans α} (hrank : ∀ x ∈ xs, rank x.1 < rank l)
    (hp : Balanced rank need ((l, m) :: xs) p) : Balanced rank need xs (LockProg.locked l m p) := by
  intro h hw hh
  have hrest : xs.filter (fun x => x.1 ≠ l) = xs := by
    refine List.filter_eq_self.2 fun x hx => decide_eq_true ?_
    intro hxl
    exact absurd (hrank x hx) (by rw [hxl]; exact Nat.lt_irrefl _)
  refine ⟨⟨hw, hh ▸ hrank⟩, fun _ => ⟨⟨rfl, hh ▸ hrank⟩, fun _ => (Prog.wp_bind p _ _ _).2 ?_⟩⟩
  have hheld : held (⟨.enter l m, ()⟩ :: ⟨.request l m, ()⟩ :: h : LockHist L Ans) = (l, m) :: xs :=
    congrArg ((l, m) :: ·) hh
  refine (hp _ rfl hheld).mono fun _ h' hh' => ?_
  refine ⟨⟨hh'.1, m, hh'.2 ▸ List.mem_cons_self⟩, fun _ => ⟨rfl, ?_⟩⟩
  show (held h').filter (fun x => x.1 ≠ l) = xs
  rw [hh'.2, List.filter_cons_of_neg (by simp), hrest]

theorem section' (o : Op) (hrank : ∀ y ∈ need o, ∀ x ∈ xs, rank x.1 < rank y.1) :
    Balanced rank need xs (LockProg.section' need o : LockProg L Ans (Ans o)) := by
  unfold LockProg.section'
  split
  · rename_i l m ho
    refine .locked (hrank _ ho) (.plain fun x hx => ?_)
    rw [ho, Option.mem_some_iff] at hx
    exact hx ▸ List.mem_cons_self
  · rename_i ho
    exact .plain (by simp [ho])

theorem sections (p : Prog Ans α) : Balanced rank need [] (LockProg.sections need p : LockProg L Ans α) := by
  induction p with
  | ret a => exact .pure a
  | call o k ih => exact .bind (.section' o fun _ _ _ hx => absurd hx List.not_mem_nil) ih

end Balanced

end

/-! ### Side by side -/

/-- What is left of a program after a call, or when it is dropped. -/
inductive Prog.Less : Prog Ans Unit → Prog Ans Unit → Prop
  | answered {o : Op} {k : Ans o → Prog Ans Unit} (r : Ans o) : Less (k r) (.call o k)
  | dropped {o : Op} {k : Ans o → Prog Ans Unit} : Less (.ret ()) (.call o k)

theorem Prog.Less.wf : WellFounded (Prog.Less : Prog Ans Unit → Prog Ans Unit → Prop) := by
  have hret : Acc Prog.Less (.ret () : Prog Ans Unit) := ⟨_, fun _ h => nomatch h⟩
  refine ⟨fun p => ?_⟩
  induction p with
  | ret a => exact hret
  | call o k ih =>
    refine ⟨_, fun q hq => ?_⟩
    cases hq with
    | answered r => exact ih r
    | dropped => exact hret

structure LockPool (L : Type) (Ans : Op → Type) (ι σ : Type) where
  state : σ
  threads : List (Thread (LockOp.Answer L Ans) ι)
  /-- The requests under way, by thread, the oldest first. -/
  queue : List (Nat × L × Mode)

inductive LockStep (ι Env : Type)
  | spawn (j : ι)
  | resume (i : Nat) (e : Env)
  | drop (i : Nat)

namespace LockPool

def answer (act : (o : Op) → Env → σ → Ans o × σ) :
    (o : LockOp L Op) → Env → σ → LockOp.Answer L Ans o × σ
  | .op o, e, s => act o e s
  | .request _ _, _, s | .enter _ _, _, s | .release _, _, s => ((), s)

def enqueue (i : Nat) : LockOp L Op → List (Nat × L × Mode) → List (Nat × L × Mode)
  | .request l m, q => q ++ [(i, l, m)]
  | .enter _ _, q => q.filter fun x => x.1 ≠ i
  | .release _, q | .op _, q => q

/-- What the thread `i` awaits. -/
def awaits (S : LockPool L Ans ι σ) (i : Nat) : Option (L × Mode) := S.threads[i]?.bind fun th => waiting th.hist

theorem filter_queue (i : Nat) (q : List (Nat × L × Mode)) :
    (∀ i' x, i' ≠ i → ((i', x) ∈ q.filter (fun y => y.1 ≠ i) ↔ (i', x) ∈ q)) ∧
      ∀ x, (i, x) ∉ q.filter (fun y => y.1 ≠ i) := by
  refine ⟨fun i' x hne => ?_, fun x hx => ?_⟩
  · simp [hne]
  · simp at hx

theorem awaits_of_getElem? {S : LockPool L Ans ι σ} {i : Nat} {th : Thread (LockOp.Answer L Ans) ι}
    (hi : S.threads[i]? = some th) : S.awaits i = waiting th.hist := by simp [awaits, hi]

def Finished (S : LockPool L Ans ι σ) : Prop := ∀ th ∈ S.threads, th.prog = .ret ()

/-- The programs under way. -/
def progs (S : LockPool L Ans ι σ) : Multiset (LockProg L Ans Unit) := ↑(S.threads.map Thread.prog)

theorem progs_set {S : LockPool L Ans ι σ} {i : Nat} {th th' : Thread (LockOp.Answer L Ans) ι}
    (hi : S.threads[i]? = some th) (hless : Prog.Less th'.prog th.prog) {s : σ} {q : List (Nat × L × Mode)} :
    Relation.CutExpand Prog.Less (⟨s, S.threads.set i th', q⟩ : LockPool L Ans ι σ).progs S.progs := by
  obtain ⟨hlt, rfl⟩ := List.getElem?_eq_some_iff.1 hi
  have hset : (S.threads.set i th').Perm (th' :: S.threads.eraseIdx i) := List.set_perm_cons_eraseIdx hlt th'
  have hold : (S.threads[i] :: S.threads.eraseIdx i).Perm S.threads := List.getElem_cons_eraseIdx_perm hlt
  have hnew : (⟨s, S.threads.set i th', q⟩ : LockPool L Ans ι σ).progs =
      th'.prog ::ₘ ↑((S.threads.eraseIdx i).map Thread.prog) := Multiset.coe_eq_coe.2 (hset.map _)
  have hprogs : S.progs = S.threads[i].prog ::ₘ ↑((S.threads.eraseIdx i).map Thread.prog) :=
    (Multiset.coe_eq_coe.2 (hold.map _)).symm
  rw [hnew, hprogs, ← Multiset.singleton_add, ← Multiset.singleton_add]
  exact Relation.cutExpand_single_add hless _

variable [DecidableEq L] (fair : L → Bool)

def Allows (S : LockPool L Ans ι σ) (i : Nat) : LockOp L Op → Prop
  | .enter l m =>
    (∀ th ∈ S.threads, ∀ x ∈ held th.hist, x.1 = l → x.2 = .shared ∧ m = .shared) ∧
      (fair l = true → (S.queue.find? fun x => x.2.1 = l).map Prod.fst = some i)
  | _ => True

instance (S : LockPool L Ans ι σ) (i : Nat) : (o : LockOp L Op) → Decidable (S.Allows fair i o)
  | .enter _ _ => inferInstanceAs (Decidable (_ ∧ _))
  | .request _ _ | .release _ | .op _ => isTrue trivial

variable (code : ι → LockProg L Ans Unit) (act : (o : Op) → Env → σ → Ans o × σ)

def step (S : LockPool L Ans ι σ) : LockStep ι Env → LockPool L Ans ι σ
  | .spawn j => { S with threads := S.threads ++ [⟨j, code j, []⟩] }
  | .resume i e =>
    match S.threads[i]? with
    | some ⟨j, .call o k, h⟩ =>
      if S.Allows fair i o then
        ⟨(answer act o e S.state).2,
          S.threads.set i ⟨j, k (answer act o e S.state).1, ⟨o, (answer act o e S.state).1⟩ :: h⟩,
          enqueue i o S.queue⟩
      else S
    | _ => S
  | .drop i =>
    match S.threads[i]? with
    | some ⟨j, .call _ _, _⟩ =>
      { S with threads := S.threads.set i ⟨j, .ret (), []⟩, queue := S.queue.filter fun x => x.1 ≠ i }
    | _ => S

def run (S : LockPool L Ans ι σ) (as : List (LockStep ι Env)) : LockPool L Ans ι σ :=
  as.foldl (step fair code act) S

/-- The thread `i` can go on. -/
def Ready (S : LockPool L Ans ι σ) (i : Nat) : Prop :=
  ∃ j o k h, S.threads[i]? = some ⟨j, .call o k, h⟩ ∧ S.Allows fair i o

/-- The steps in which a program that is under way does something. -/
def Moves (S : LockPool L Ans ι σ) : LockStep ι Env → Prop
  | .spawn _ => False
  | .resume i _ => S.Ready fair i
  | .drop i => ∃ j o k h, S.threads[i]? = some ⟨j, .call o k, h⟩

/-- Whichever of the programs under way goes on next, again and again: in the end all have finished, and until
then one of them can go on. -/
inductive Ends : LockPool L Ans ι σ → Prop
  | intro (S : LockPool L Ans ι σ) (next : S.Finished ∨ ∃ i, S.Ready fair i)
      (steps : ∀ a : LockStep ι Env, S.Moves fair a → Ends (S.step fair code act a)) : Ends S

end LockPool

/-! ### What orderly programs keep -/

section
variable [DecidableEq L] {rank : L → Nat} {need : Op → Option (L × Mode)} {fair : L → Bool}
  {code : ι → LockProg L Ans Unit} {act : (o : Op) → Env → σ → Ans o × σ} {S : LockPool L Ans ι σ}

structure Sound (rank : L → Nat) (need : Op → Option (L × Mode)) (S : LockPool L Ans ι σ) : Prop where
  orderly : ∀ th ∈ S.threads, Orderly rank need th.prog th.hist
  queue : ∀ i x, (i, x) ∈ S.queue ↔ S.awaits i = some x
  apart : ∀ (i i' : Nat) (th th' : Thread (LockOp.Answer L Ans) ι), S.threads[i]? = some th →
    S.threads[i']? = some th' → i ≠ i' →
    ∀ x ∈ held th.hist, ∀ x' ∈ held th'.hist, x.1 = x'.1 → x.2 = .shared ∧ x'.2 = .shared

namespace Sound

theorem init (s : σ) : Sound rank need (⟨s, [], []⟩ : LockPool L Ans ι σ) where
  orderly := fun _ h => absurd h List.not_mem_nil
  queue := fun i x => iff_of_false List.not_mem_nil (by simp [LockPool.awaits])
  apart := fun i _ _ _ h => by simp at h

theorem spawn (hS : Sound rank need S) (j : ι) (hcode : Orderly rank need (code j) []) :
    Sound rank need { S with threads := S.threads ++ [⟨j, code j, []⟩] } where
  orderly := fun th hth => by
    rcases List.mem_append.1 hth with hth | hth
    · exact hS.orderly th hth
    · rw [List.mem_singleton.1 hth]
      exact hcode
  queue := fun i x => by
    rw [hS.queue]
    simp only [LockPool.awaits, List.getElem?_append]
    split
    · exact Iff.rfl
    · rename_i hi
      rw [List.getElem?_eq_none (Nat.le_of_not_lt hi)]
      cases i - S.threads.length <;> simp [waiting]
  apart := fun i i' th th' hi hi' hne x hx x' hx' => by
    rw [List.getElem?_append] at hi hi'
    have hnew : ∀ {n : Nat} {t : Thread (LockOp.Answer L Ans) ι},
        ([⟨j, code j, []⟩] : List (Thread (LockOp.Answer L Ans) ι))[n]? = some t → held t.hist = [] := by
      intro n t ht
      rw [List.mem_singleton.1 (List.mem_of_getElem? ht)]
      rfl
    split at hi
    · split at hi'
      · exact hS.apart i i' th th' hi hi' hne x hx x' hx'
      · rw [hnew hi'] at hx'
        cases hx'
    · rw [hnew hi] at hx
      cases hx

/-- One thread goes on. -/
theorem set (hS : Sound rank need S) {i : Nat} {th th' : Thread (LockOp.Answer L Ans) ι}
    (hi : S.threads[i]? = some th) {s : σ} {q : List (Nat × L × Mode)} (ho : Orderly rank need th'.prog th'.hist)
    (hother : ∀ i' x, i' ≠ i → ((i', x) ∈ q ↔ (i', x) ∈ S.queue))
    (hown : ∀ x, (i, x) ∈ q ↔ waiting th'.hist = some x)
    (hheld : ∀ x ∈ held th'.hist, x ∈ held th.hist ∨
      ∀ t ∈ S.threads, ∀ y ∈ held t.hist, y.1 = x.1 → y.2 = .shared ∧ x.2 = .shared) :
    Sound rank need ⟨s, S.threads.set i th', q⟩ where
  orderly := fun t ht => by
    rcases List.mem_or_eq_of_mem_set ht with ht | rfl
    · exact hS.orderly t ht
    · exact ho
  queue := fun i' x => by
    have hlt := (List.getElem?_eq_some_iff.1 hi).1
    by_cases hii : i' = i
    · subst hii
      simp [LockPool.awaits, hlt, hown]
    · rw [hother i' x hii, hS.queue]
      simp [LockPool.awaits, List.getElem?_set_ne (Ne.symm hii)]
  apart := by
    have hlt := (List.getElem?_eq_some_iff.1 hi).1
    have hnew : ∀ i' t, S.threads[i']? = some t → i ≠ i' → ∀ x ∈ held th'.hist, ∀ y ∈ held t.hist, x.1 = y.1 →
        x.2 = .shared ∧ y.2 = .shared := by
      intro i' t ht hne x hx y hy hxy
      rcases hheld x hx with hx | hx
      · exact hS.apart i i' th t hi ht hne x hx y hy hxy
      · exact (hx t (List.mem_of_getElem? ht) y hy hxy.symm).symm
    intro a b t t' ha hb hne x hx y hy hxy
    dsimp only at ha hb
    rw [List.getElem?_set] at ha hb
    split at ha
    · rename_i hia
      obtain rfl := Option.some.inj ha
      rw [if_neg fun hib => hne (hia.symm.trans hib)] at hb
      exact hnew b t' hb (hia ▸ hne) x hx y hy hxy
    · split at hb
      · rename_i hia hib
        obtain rfl := Option.some.inj hb
        exact (hnew a t ha hia y hy x hx hxy.symm).symm
      · exact hS.apart a b t t' ha hb hne x hx y hy hxy

theorem step (hS : Sound rank need S) (hcode : ∀ j, Orderly rank need (code j) []) (a : LockStep ι Env) :
    Sound rank need (S.step fair code act a) := by
  cases a with
  | spawn j => exact hS.spawn j (hcode j)
  | drop i =>
    simp only [LockPool.step]
    split
    · rename_i j o k h hi
      obtain ⟨hother, hown⟩ := LockPool.filter_queue i S.queue
      exact hS.set hi ⟨rfl, rfl⟩ hother (fun x => iff_of_false (hown x) (by simp [waiting]))
        fun x hx => absurd hx List.not_mem_nil
    · exact hS
  | resume i e =>
    simp only [LockPool.step]
    split
    · rename_i j o k h hi
      split
      · rename_i hallow
        obtain ⟨hin, hk⟩ := hS.orderly _ (List.mem_of_getElem? hi)
        have hfree : waiting h = none → ∀ x, (i, x) ∉ S.queue := fun hw x hx => by
          rw [hS.queue, LockPool.awaits_of_getElem? hi, hw] at hx
          cases hx
        refine hS.set hi (hk _) ?_ ?_ ?_
        · intro i' x hne
          cases o with
          | request l m => simp [LockPool.enqueue, hne]
          | enter l m => exact (LockPool.filter_queue i S.queue).1 i' x hne
          | release l => exact Iff.rfl
          | op o => exact Iff.rfl
        · intro x
          cases o with
          | request l m => simp [LockPool.enqueue, hfree hin.1, waiting, eq_comm]
          | enter l m => exact iff_of_false ((LockPool.filter_queue i S.queue).2 x) (by simp [waiting])
          | release l => exact iff_of_false (hfree hin.1 x) (by simp [waiting])
          | op o => exact iff_of_false (hfree hin.1 x) (by simp [waiting])
        · intro x hx
          cases o with
          | request l m => exact .inl hx
          | enter l m =>
            rcases List.mem_cons.1 hx with rfl | hx
            · exact .inr hallow.1
            · exact .inl hx
          | release l => exact .inl (List.mem_filter.1 hx).1
          | op o => exact .inl hx
      · exact hS
    · exact hS

theorem run (hS : Sound rank need S) (hcode : ∀ j, Orderly rank need (code j) []) (as : List (LockStep ι Env)) :
    Sound rank need (S.run fair code act as) := by
  induction as generalizing S with
  | nil => exact hS
  | cons a as ih => exact ih (hS.step hcode a)

/-- Nobody else is in a section that a call lies in, unless all are there as readers. -/
theorem alone (hS : Sound rank need S) {i i' : Nat} {j j' : ι} {o o' : Op} {k : Ans o → LockProg L Ans Unit}
    {k' : Ans o' → LockProg L Ans Unit} {h h' : LockHist L Ans}
    (hi : S.threads[i]? = some ⟨j, .call (.op o) k, h⟩) (hi' : S.threads[i']? = some ⟨j', .call (.op o') k', h'⟩)
    (hne : i ≠ i') {x x' : L × Mode} (hx : x ∈ need o) (hx' : x' ∈ need o') (hl : x.1 = x'.1) :
    x.2 = .shared ∧ x'.2 = .shared :=
  hS.apart i i' _ _ hi hi' hne x ((hS.orderly _ (List.mem_of_getElem? hi)).1.2 x hx) x'
    ((hS.orderly _ (List.mem_of_getElem? hi')).1.2 x' hx') hl

/-- The awaited lock of the highest rank is free: whoever holds it would await one of a higher rank. -/
theorem ready_of_waiting (hS : Sound rank need S)
    (hall : ∀ th ∈ S.threads, th.prog = .ret () ∨ ∃ x, waiting th.hist = some x) (hq : S.queue ≠ []) :
    ∃ i, S.Ready fair i := by
  obtain ⟨⟨_, l, _⟩, htop⟩ := Option.ne_none_iff_exists'.1
    (mt (List.argmax_eq_none (f := fun q : Nat × L × Mode => rank q.2.1)).1 hq)
  have htopmem := List.argmax_mem htop
  obtain ⟨⟨i, l', m⟩, hfirst⟩ : ∃ q, (S.queue.find? fun q => q.2.1 = l) = some q :=
    Option.isSome_iff_exists.1 (List.find?_isSome.2 ⟨_, htopmem, decide_eq_true rfl⟩)
  have hmem := List.mem_of_find?_eq_some hfirst
  have hl : decide (l' = l) = true := List.find?_some (p := fun q : Nat × L × Mode => decide (q.2.1 = l)) hfirst
  obtain rfl := of_decide_eq_true hl
  obtain ⟨⟨j, p, h⟩, hi, hw⟩ := Option.bind_eq_some_iff.1 ((hS.queue i (l', m)).1 hmem)
  have hord := hS.orderly _ (List.mem_of_getElem? hi)
  cases p with
  | ret a => cases hord.1.symm.trans hw
  | call o k =>
    cases o with
    | request | release | op => cases hord.1.1.symm.trans hw
    | enter l₁ m₁ =>
      cases hord.1.1.symm.trans hw
      refine ⟨i, j, _, k, h, hi, ⟨fun th hth x hx hxl => ?_, fun _ => by rw [hfirst]; rfl⟩⟩
      exfalso
      obtain ⟨i', hi'⟩ := List.mem_iff_getElem?.1 hth
      obtain ⟨j', p', h'⟩ := th
      have hord' := hS.orderly _ hth
      cases p' with
      | ret a => exact absurd (hord'.2 ▸ hx) List.not_mem_nil
      | call o' k' =>
        obtain ⟨⟨l₂, m₂⟩, hw'⟩ := (hall _ hth).resolve_left nofun
        cases o' with
        | request | release | op => cases hord'.1.1.symm.trans hw'
        | enter l₃ m₃ =>
          cases hord'.1.1.symm.trans hw'
          have hlt := hord'.1.2 x hx
          have hawait : (i', l₂, m₂) ∈ S.queue :=
            (hS.queue i' _).2 ((LockPool.awaits_of_getElem? hi').trans hw')
          have hle := List.le_of_mem_argmax hawait htop
          rw [hxl] at hlt
          exact absurd hlt (Nat.not_lt.2 hle)

theorem exists_ready (hS : Sound rank need S) : S.Finished ∨ ∃ i, S.Ready fair i := by
  by_cases hfree : ∃ th ∈ S.threads, th.prog ≠ .ret () ∧ waiting th.hist = none
  · obtain ⟨⟨j, p, h⟩, hth, hp, hw⟩ := hfree
    obtain ⟨i, hi⟩ := List.mem_iff_getElem?.1 hth
    cases p with
    | ret a => exact absurd rfl hp
    | call o k =>
      refine .inr ⟨i, j, o, k, h, hi, ?_⟩
      cases o with
      | request | release | op => trivial
      | enter l m => cases hw.symm.trans (hS.orderly _ hth).1.1
  · have hall : ∀ th ∈ S.threads, th.prog = .ret () ∨ ∃ x, waiting th.hist = some x := by
      intro th hth
      by_contra hnot
      obtain ⟨hp, hw⟩ := not_or.1 hnot
      exact hfree ⟨th, hth, hp, Option.eq_none_iff_forall_ne_some.2 fun x hx => hw ⟨x, hx⟩⟩
    by_cases hq : S.queue = []
    · refine .inl fun th hth => (hall th hth).resolve_right ?_
      rintro ⟨x, hx⟩
      obtain ⟨i, hi⟩ := List.mem_iff_getElem?.1 hth
      have hmem := (hS.queue i x).2 ((LockPool.awaits_of_getElem? hi).trans hx)
      rw [hq] at hmem
      cases hmem
    · exact .inr (hS.ready_of_waiting hall hq)

end Sound

/-- A program that does something has less to do afterwards. -/
theorem LockPool.progs_step {S : LockPool L Ans ι σ} {a : LockStep ι Env} (ha : S.Moves fair a) :
    Relation.CutExpand Prog.Less (S.step fair code act a).progs S.progs := by
  cases a with
  | spawn j => exact ha.elim
  | resume i e =>
    obtain ⟨j, o, k, h, hi, hallow⟩ := ha
    simp only [step, hi, if_pos hallow]
    exact progs_set hi (.answered _)
  | drop i =>
    obtain ⟨j, o, k, h, hi⟩ := ha
    simp only [step, hi]
    exact progs_set hi .dropped

/-- No schedule of orderly programs comes to a standstill. -/
theorem Sound.ends (hcode : ∀ j, Orderly rank need (code j) []) (hS : Sound rank need S) :
    S.Ends fair code act := by
  induction h : S.progs using Prog.Less.wf.cutExpand.induction generalizing S with
  | _ p ih =>
    subst h
    exact .intro S hS.exists_ready fun a ha => ih _ (LockPool.progs_step ha) (hS.step hcode a) rfl

end

/-! ### The same without the locks -/

namespace LockPool
variable {code : ι → LockProg L Ans Unit} {code' : ι → Prog Ans Unit} {act : (o : Op) → Env → σ → Ans o × σ}
  {S : LockPool L Ans ι σ} {P : Pool Ans ι σ}

/-- What is left of a step without the locks. -/
def eraseStep (S : LockPool L Ans ι σ) : LockStep ι Env → List (Step ι Env)
  | .spawn j => [.spawn j]
  | .resume i e =>
    match S.threads[i]? with
    | some ⟨_, .call (.op _) _, _⟩ => [.resume i e]
    | _ => []
  | .drop _ => []

theorem map_job_set {ths : List (Thread Ans ι)} {i : Nat} {th th' : Thread Ans ι} (hi : ths[i]? = some th)
    (hjob : th'.job = th.job) : (ths.set i th').map Thread.job = ths.map Thread.job := by
  obtain ⟨hlt, rfl⟩ := List.getElem?_eq_some_iff.1 hi
  rw [List.map_set, hjob, ← List.getElem_map Thread.job (h := by simpa using hlt), List.set_getElem_self]

/-- `P` is `S` without the locks, but for dropped programs, which `P` just does not go on with. -/
structure Erased (S : LockPool L Ans ι σ) (P : Pool Ans ι σ) : Prop where
  state : P.state = S.state
  jobs : P.threads.map Thread.job = S.threads.map Thread.job
  prog : ∀ (i : Nat) (th : Thread (LockOp.Answer L Ans) ι) (th' : Thread Ans ι), S.threads[i]? = some th →
    P.threads[i]? = some th' → th.prog = .ret () ∨ th'.prog = LockProg.erase th.prog

namespace Erased

theorem init (s : σ) : Erased (⟨s, [], []⟩ : LockPool L Ans ι σ) ⟨s, []⟩ := ⟨rfl, rfl, fun i _ _ hi => by simp at hi⟩

theorem length (hE : Erased S P) : P.threads.length = S.threads.length := by
  simpa only [List.length_map] using congrArg List.length hE.jobs

theorem spawn (hE : Erased S P) (j : ι) (hcode : LockProg.erase (code j) = code' j) :
    Erased { S with threads := S.threads ++ [⟨j, code j, []⟩] }
      { P with threads := P.threads ++ [⟨j, code' j, []⟩] } where
  state := hE.state
  jobs := by simp [hE.jobs]
  prog := fun i th th' hi hi' => by
    rw [List.getElem?_append] at hi hi'
    rw [hE.length] at hi'
    split at hi
    · rename_i hlt
      rw [if_pos hlt] at hi'
      exact hE.prog i th th' hi hi'
    · rename_i hlt
      rw [if_neg hlt] at hi'
      rw [List.mem_singleton.1 (List.mem_of_getElem? hi), List.mem_singleton.1 (List.mem_of_getElem? hi')]
      exact .inr hcode.symm

theorem set (hE : Erased S P) {i : Nat} {th th₀ : Thread (LockOp.Answer L Ans) ι} {s : σ} {q : List (Nat × L × Mode)}
    {P' : Pool Ans ι σ} (hi : S.threads[i]? = some th₀) (hjob : th.job = th₀.job) (hstate : P'.state = s)
    (hjobs : P'.threads.map Thread.job = P.threads.map Thread.job)
    (hother : ∀ i', i' ≠ i → P'.threads[i']? = P.threads[i']?)
    (hown : ∀ t, P'.threads[i]? = some t → th.prog = .ret () ∨ t.prog = LockProg.erase th.prog) :
    Erased ⟨s, S.threads.set i th, q⟩ P' where
  state := hstate
  jobs := by rw [hjobs, hE.jobs, map_job_set hi hjob]
  prog := fun i' t t' ht ht' => by
    dsimp only at ht
    rw [List.getElem?_set] at ht
    split at ht
    · rename_i hii
      split at ht
      · obtain rfl := Option.some.inj ht
        exact hown t' (hii ▸ ht')
      · cases ht
    · rename_i hii
      rw [hother i' (Ne.symm hii)] at ht'
      exact hE.prog i' t t' ht ht'

/-- The step of a thread at a call on a lock. -/
theorem lock (hE : Erased S P) {i : Nat} {j : ι} {o : LockOp L Op} {k : LockOp.Answer L Ans o → LockProg L Ans Unit}
    {h h' : LockHist L Ans} (hi : S.threads[i]? = some ⟨j, .call o k, h⟩) {r : LockOp.Answer L Ans o}
    (hr : LockProg.erase (.call o k) = LockProg.erase (k r)) {q : List (Nat × L × Mode)} :
    Erased ⟨S.state, S.threads.set i ⟨j, k r, h'⟩, q⟩ P :=
  hE.set hi rfl hE.state rfl (fun _ _ => rfl) fun t ht => .inr (hr ▸ (hE.prog i _ t hi ht).resolve_left nofun)

end Erased

variable [DecidableEq L] {fair : L → Bool}

theorem Erased.step (hE : Erased S P) (hcode : ∀ j, LockProg.erase (code j) = code' j) (a : LockStep ι Env) :
    Erased (S.step fair code act a) (P.run code' act (S.eraseStep a)) := by
  cases a with
  | spawn j => exact hE.spawn j (hcode j)
  | drop i =>
    simp only [LockPool.step, eraseStep, Pool.run_nil]
    split
    · rename_i hi
      exact hE.set hi rfl hE.state rfl (fun _ _ => rfl) fun _ _ => .inl rfl
    · exact hE
  | resume i e =>
    simp only [LockPool.step, eraseStep]
    rcases hi : S.threads[i]? with _ | ⟨j, p, h⟩
    · exact hE
    cases p with
    | ret a => exact hE
    | call o k =>
      cases o with
      | request l m => exact hE.lock hi rfl
      | release l => exact hE.lock hi rfl
      | enter l m =>
        dsimp only [Pool.run_nil]
        split
        · exact hE.lock hi rfl
        · exact hE
      | op o =>
        obtain ⟨⟨j', p, h'⟩, hi'⟩ : ∃ t, P.threads[i]? = some t :=
          ⟨_, List.getElem?_eq_getElem (hE.length ▸ (List.getElem?_eq_some_iff.1 hi).1)⟩
        obtain rfl : p = .call o fun r => LockProg.erase (k r) := (hE.prog i _ _ hi hi').resolve_left nofun
        have hP : P.step code' act (.resume i e) =
            ⟨(act o e S.state).2, P.threads.set i ⟨j', LockProg.erase (k (act o e S.state).1),
              ⟨o, (act o e S.state).1⟩ :: h'⟩⟩ := by
          rw [← hE.state]
          simp only [Pool.step, hi']
        show Erased (if S.Allows fair i (.op o) then _ else S) (P.step code' act (.resume i e))
        rw [if_pos (show S.Allows fair i (.op o) from trivial), hP]
        refine hE.set hi rfl rfl (map_job_set hi' rfl) (fun i' hne => List.getElem?_set_ne (Ne.symm hne)) fun t ht => ?_
        rw [List.getElem?_set_self (List.getElem?_eq_some_iff.1 hi').1] at ht
        obtain rfl := Option.some.inj ht
        exact .inr rfl

variable (fair code act) in
def eraseRun : LockPool L Ans ι σ → List (LockStep ι Env) → List (Step ι Env)
  | _, [] => []
  | S, a :: as => S.eraseStep a ++ eraseRun (S.step fair code act a) as

variable (act fair) in
theorem Erased.run (hE : Erased S P) (hcode : ∀ j, LockProg.erase (code j) = code' j) (as : List (LockStep ι Env)) :
    Erased (S.run fair code act as) (P.run code' act (eraseRun code act fair S as)) := by
  induction as generalizing S P with
  | nil => exact hE
  | cons a as ih =>
    rw [eraseRun, Pool.run_append]
    exact ih (hE.step hcode a)

end LockPool

end Lib
