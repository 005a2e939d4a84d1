import XVideoDownloader.Lib.Locks

/-!
# Calls in pieces

In a `LockPool` a call is made in one go. In a `SectionPool` it takes steps of its own: the thread reads the state,
sends one thing after the other, and at last writes what its lock guards and has its answer. A thread is dropped where it
waits for a lock.

`Guarded` says that a call reads only what its lock guards, and changes that only where the lock is its own. Then the
locks make calls atomic (`Follows.run`): the states and the answers are those of whole calls, each made where it ends. It
is not so with what is sent, for readers send side by side: it is what the whole calls send, but in another order.
-/

namespace Lib
variable {Op : Type} {Ans : Op → Type} {L ι Env σ Out : Type}

/-- A state of parts, one for each lock, and of what has been sent. -/
class Parts (L σ : Type) (Out : outParam Type) where
  Part : L → Type
  part : (l : L) → σ → Part l
  put : (l : L) → Part l → σ → σ
  sent : σ → List Out
  push : Out → σ → σ
  part_put (l : L) (v : Part l) (s : σ) : part l (put l v s) = v
  part_put_ne {l l' : L} (h : l' ≠ l) (v : Part l) (s : σ) : part l' (put l v s) = part l' s
  sent_put (l : L) (v : Part l) (s : σ) : sent (put l v s) = sent s
  part_push (l : L) (x : Out) (s : σ) : part l (push x s) = part l s
  sent_push (x : Out) (s : σ) : sent (push x s) = sent s ++ [x]

open Parts

/-- The states have the same in the part of the lock of a call. -/
def SameFor [Parts L σ Out] (need : Op → Option (L × Mode)) (o : Op) (s s' : σ) : Prop :=
  ∀ x ∈ need o, part x.1 s = part x.1 s'

/-- What a call does is about the part that its lock guards. -/
structure Guarded [Parts L σ Out] (need : Op → Option (L × Mode)) (act : (o : Op) → Env → σ → Ans o × σ)
    (outs : Op → σ → List Out) : Prop where
  ans : ∀ o e s s', SameFor need o s s' → (act o e s).1 = (act o e s').1
  sends : ∀ o s s', SameFor need o s s' → outs o s = outs o s'
  write : ∀ o e s s' l, need o = some (l, .exclusive) → part l s = part l s' →
    part l (act o e s).2 = part l (act o e s').2
  frame : ∀ o e s l, need o ≠ some (l, .exclusive) → part l (act o e s).2 = part l s
  sent : ∀ o e s, sent L (act o e s).2 = sent L s ++ outs o s

/-- An order in which to send. -/
abbrev Order (Out : Type) := { f : List Out → List Out // ∀ l, (f l).Perm l }

/-- A call under way: the state that it has read, what it has sent and what it has still to send. -/
structure Section (σ Out : Type) where
  before : σ
  made : List Out
  left : List Out

structure SectionPool (L : Type) (Ans : Op → Type) (ι σ Out : Type) extends LockPool L Ans ι σ where
  busy : Nat → Option (Section σ Out)

/-- What the calls under way of the first `n` threads have sent. -/
def madeBy (busy : Nat → Option (Section σ Out)) : Nat → List Out
  | 0 => []
  | n + 1 => madeBy busy n ++ (busy n).elim [] Section.made

theorem madeBy_update_of_le {busy : Nat → Option (Section σ Out)} {i n : Nat} (h : n ≤ i) (b : Option (Section σ Out)) :
    madeBy (Function.update busy i b) n = madeBy busy n := by
  induction n with
  | zero => rfl
  | succ n ih => rw [madeBy, madeBy, ih (Nat.le_of_succ_le h), Function.update_of_ne (Nat.ne_of_lt h)]

theorem madeBy_of_none {busy : Nat → Option (Section σ Out)} {n n' : Nat} (h : ∀ i, n ≤ i → busy i = none)
    (hn : n ≤ n') : madeBy busy n' = madeBy busy n := by
  induction n' with
  | zero => rw [Nat.le_zero.1 hn]
  | succ n' ih =>
    rcases Nat.lt_or_eq_of_le hn with hlt | rfl
    · have hle := Nat.le_of_lt_succ hlt
      rw [madeBy, h n' hle, ih hle]
      exact List.append_nil _
    · rfl

theorem madeBy_update (busy : Nat → Option (Section σ Out)) {i n : Nat} (h : i < n) (b : Option (Section σ Out)) :
    (madeBy (Function.update busy i b) n ++ (busy i).elim [] Section.made).Perm
      (madeBy busy n ++ b.elim [] Section.made) := by
  induction n with
  | zero => exact absurd h (Nat.not_lt_zero i)
  | succ n ih =>
    rw [madeBy, madeBy]
    rcases Nat.lt_or_eq_of_le (Nat.le_of_lt_succ h) with hlt | rfl
    · rw [Function.update_of_ne (Nat.ne_of_gt hlt)]
      have hswap (a x y : List Out) : (a ++ x ++ y).Perm (a ++ y ++ x) := by
        rw [List.append_assoc, List.append_assoc]
        exact List.perm_append_comm.append_left a
      exact (hswap _ _ _).trans (((ih hlt).append_right _).trans (hswap _ _ _))
    · rw [madeBy_update_of_le le_rfl, Function.update_self, List.append_assoc, List.append_assoc]
      exact List.perm_append_comm.append_left _

namespace SectionPool

/-- What the calls under way have sent. -/
def underWay (S : SectionPool L Ans ι σ Out) : List Out := madeBy S.busy S.threads.length

variable [Parts L σ Out] [DecidableEq L] (fair : L → Bool) (code : ι → LockProg L Ans Unit)
  (act : (o : Op) → Env → σ → Ans o × σ) (outs : Op → σ → List Out) (need : Op → Option (L × Mode))

/-- The end of a call: what its own lock guards is written. -/
def write (o : Op) (t s : σ) : σ :=
  match need o with
  | some (l, .exclusive) => put l (part l t) s
  | _ => s

def resumeCall (S : SectionPool L Ans ι σ Out) (i : Nat) (e : Env × Order Out) (j : ι) (o : Op)
    (k : Ans o → LockProg L Ans Unit) (h : LockHist L Ans) : SectionPool L Ans ι σ Out :=
  match S.busy i with
  | none => { S with busy := Function.update S.busy i (some ⟨S.state, [], e.2.1 (outs o S.state)⟩) }
  | some ⟨before, made, x :: left⟩ =>
    { S with
      state := push L x S.state
      busy := Function.update S.busy i (some ⟨before, made ++ [x], left⟩) }
  | some ⟨before, _, []⟩ =>
    let r := act o e.1 before
    { state := write need o r.2 S.state
      threads := S.threads.set i ⟨j, k r.1, ⟨.op o, r.1⟩ :: h⟩
      queue := S.queue
      busy := Function.update S.busy i none }

def step (S : SectionPool L Ans ι σ Out) : LockStep ι (Env × Order Out) → SectionPool L Ans ι σ Out
  | .spawn j => { S with toLockPool := S.toLockPool.step fair code act (.spawn j) }
  | .resume i e =>
    match S.threads[i]? with
    | some ⟨j, .call (.op o) k, h⟩ => S.resumeCall act outs need i e j o k h
    | _ => { S with toLockPool := S.toLockPool.step fair code act (.resume i e.1) }
  | .drop i =>
    match S.threads[i]? with
    | some ⟨_, .call (.request _ _) _, _⟩ | some ⟨_, .call (.enter _ _) _, _⟩ =>
      { S with toLockPool := S.toLockPool.step fair code act (.drop i) }
    | _ => S

def run (S : SectionPool L Ans ι σ Out) (as : List (LockStep ι (Env × Order Out))) : SectionPool L Ans ι σ Out :=
  as.foldl (step fair code act outs need) S

/-- What is left of a step where calls are whole: one is made where it ends. -/
def wholeStep (S : SectionPool L Ans ι σ Out) : LockStep ι (Env × Order Out) → List (LockStep ι Env)
  | .spawn j => [.spawn j]
  | .resume i e =>
    match S.threads[i]? with
    | some ⟨_, .call (.op _) _, _⟩ =>
      match S.busy i with
      | some ⟨_, _, []⟩ => [.resume i e.1]
      | _ => []
    | _ => [.resume i e.1]
  | .drop i =>
    match S.threads[i]? with
    | some ⟨_, .call (.request _ _) _, _⟩ | some ⟨_, .call (.enter _ _) _, _⟩ => [.drop i]
    | _ => []

end SectionPool

/-! ### The same with whole calls -/

namespace LockPool

/-- The thread is at a call. -/
def AtCall (th : Thread (LockOp.Answer L Ans) ι) : Prop := ∃ o k, th.prog = .call (.op o) k

/-- The step is of a thread that is at a call. -/
def OfCall (ths : List (Thread (LockOp.Answer L Ans) ι)) : LockStep ι Env → Prop
  | .spawn _ => False
  | .resume i _ | .drop i => ∃ th ∈ ths[i]?, AtCall th

theorem not_atCall {ths : List (Thread (LockOp.Answer L Ans) ι)} {i : Nat}
    (h : ∀ j o k hist, ths[i]? ≠ some ⟨j, .call (.op o) k, hist⟩) : ¬ ∃ th ∈ ths[i]?, AtCall th := by
  rintro ⟨⟨j, p, hist⟩, hth, o, k, rfl⟩
  exact h j o k hist hth

/-- The threads that are at calls stay where they are. -/
structure KeepsCalls (ths ths' : List (Thread (LockOp.Answer L Ans) ι)) : Prop where
  length : ths.length ≤ ths'.length
  calls : ∀ (i : Nat) th, ths[i]? = some th → AtCall th → ths'[i]? = some th

namespace KeepsCalls
variable {ths : List (Thread (LockOp.Answer L Ans) ι)} {i : Nat}

theorem refl (ths : List (Thread (LockOp.Answer L Ans) ι)) : KeepsCalls ths ths := ⟨le_rfl, fun _ _ h _ => h⟩

theorem set (h : ¬ ∃ th ∈ ths[i]?, AtCall th) (th' : Thread (LockOp.Answer L Ans) ι) :
    KeepsCalls ths (ths.set i th') := by
  refine ⟨by simp, fun i' th hi hcall => ?_⟩
  rw [List.getElem?_set_ne, hi]
  rintro rfl
  exact h ⟨th, hi, hcall⟩

end KeepsCalls

variable [DecidableEq L] {fair : L → Bool} {code : ι → LockProg L Ans Unit} {act : (o : Op) → Env → σ → Ans o × σ}

/-- Any other step leaves the state alone, whatever that is, and the threads that are at calls. -/
theorem step_of_not_ofCall {ths : List (Thread (LockOp.Answer L Ans) ι)} (q : List (Nat × L × Mode))
    {a : LockStep ι Env} (ha : ¬ OfCall ths a) : ∃ ths' q', KeepsCalls ths ths' ∧
      ∀ s, (⟨s, ths, q⟩ : LockPool L Ans ι σ).step fair code act a = ⟨s, ths', q'⟩ := by
  cases a with
  | spawn j =>
    refine ⟨ths ++ [⟨j, code j, []⟩], q, ⟨by simp, fun i th hi _ => ?_⟩, fun s => rfl⟩
    rw [List.getElem?_append_left (List.getElem?_eq_some_iff.1 hi).1, hi]
  | drop i =>
    rcases hi : ths[i]? with _ | ⟨j, _ | ⟨o, k⟩, h⟩
    · exact ⟨ths, q, .refl ths, fun s => by simp only [step, hi]⟩
    · exact ⟨ths, q, .refl ths, fun s => by simp only [step, hi]⟩
    · refine ⟨ths.set i ⟨j, .ret (), []⟩, q.filter fun x => x.1 ≠ i, .set ha _, fun s => ?_⟩
      simp only [step, hi]
  | resume i e =>
    rcases hi : ths[i]? with _ | ⟨j, _ | ⟨o, k⟩, h⟩
    · exact ⟨ths, q, .refl ths, fun s => by simp only [step, hi]⟩
    · exact ⟨ths, q, .refl ths, fun s => by simp only [step, hi]⟩
    · cases o with
      | op o => exact absurd ⟨_, hi, o, k, rfl⟩ ha
      | request l m =>
        refine ⟨ths.set i ⟨j, k (), ⟨.request l m, ()⟩ :: h⟩, q ++ [(i, l, m)], .set ha _, fun s => ?_⟩
        simp only [step, hi]
        exact if_pos trivial
      | release l =>
        refine ⟨ths.set i ⟨j, k (), ⟨.release l, ()⟩ :: h⟩, q, .set ha _, fun s => ?_⟩
        simp only [step, hi]
        exact if_pos trivial
      | enter l m =>
        by_cases hallow : ∀ s : σ, (⟨s, ths, q⟩ : LockPool L Ans ι σ).Allows fair i (.enter l m)
        · refine ⟨ths.set i ⟨j, k (), ⟨.enter l m, ()⟩ :: h⟩, q.filter fun x => x.1 ≠ i, .set ha _, fun s => ?_⟩
          simp only [step, hi]
          exact if_pos (hallow s)
        · refine ⟨ths, q, .refl ths, fun s => ?_⟩
          simp only [step, hi]
          exact if_neg fun h => hallow fun _ => h

end LockPool

section
open SectionPool
variable [Parts L σ Out] {rank : L → Nat} {fair : L → Bool} {code : ι → LockProg L Ans Unit}
  {act : (o : Op) → Env → σ → Ans o × σ} {outs : Op → σ → List Out} {need : Op → Option (L × Mode)}
  {S : SectionPool L Ans ι σ Out} {T : LockPool L Ans ι σ}

theorem part_write_self {o : Op} {l : L} (h : need o = some (l, .exclusive)) (t s : σ) :
    part l (write need o t s) = part l t := by
  simp only [write, h]
  exact part_put l _ s

theorem part_write_of_ne {o : Op} {l : L} (h : need o ≠ some (l, .exclusive)) (t s : σ) :
    part l (write need o t s) = part l s := by
  unfold write
  split
  · rename_i l' hl'
    refine part_put_ne ?_ _ s
    rintro rfl
    exact h hl'
  · rfl

theorem sent_write (o : Op) (t s : σ) : sent L (write need o t s) = sent L s := by
  unfold write
  split
  · exact sent_put _ _ s
  · rfl

/-- `T` has made the calls that have ended in `S`. -/
structure Follows (need : Op → Option (L × Mode)) (outs : Op → σ → List Out) (S : SectionPool L Ans ι σ Out)
    (T : LockPool L Ans ι σ) : Prop where
  threads : T.threads = S.threads
  queue : T.queue = S.queue
  parts : ∀ l : L, part l T.state = part l S.state
  sent : (sent L T.state ++ S.underWay).Perm (sent L S.state)
  /-- What a call under way has read is still so. -/
  busy : ∀ i b, S.busy i = some b → ∃ j o k h, S.threads[i]? = some ⟨j, .call (.op o) k, h⟩ ∧
    SameFor need o b.before S.state ∧ (b.made ++ b.left).Perm (outs o b.before)

namespace Follows

theorem init (s : σ) : Follows need outs (⟨⟨s, [], []⟩, fun _ => none⟩ : SectionPool L Ans ι σ Out) ⟨s, [], []⟩ where
  threads := rfl
  queue := rfl
  parts _ := rfl
  sent := by simp [underWay, madeBy]
  busy i b h := by cases h

/-- A call begins or goes on. -/
theorem goes (hF : Follows need outs S T) {i : Nat} {j : ι} {o : Op} {k : Ans o → LockProg L Ans Unit}
    {h : LockHist L Ans} (hi : S.threads[i]? = some ⟨j, .call (.op o) k, h⟩) {s : σ} {b : Section σ Out}
    (hparts : ∀ l : L, part l s = part l S.state)
    (hsent : (Parts.sent L S.state ++ b.made).Perm (Parts.sent L s ++ (S.busy i).elim [] Section.made))
    (hread : SameFor need o b.before S.state) (hb : (b.made ++ b.left).Perm (outs o b.before)) :
    Follows need outs { S with state := s, busy := Function.update S.busy i (some b) } T where
  threads := hF.threads
  queue := hF.queue
  parts l := (hF.parts l).trans (hparts l).symm
  sent := by
    have hmade := madeBy_update S.busy (List.getElem?_eq_some_iff.1 hi).1 (some b)
    generalize (S.busy i).elim [] Section.made = before at hsent hmade
    have hnew : (Parts.sent L T.state ++ madeBy (Function.update S.busy i (some b)) S.threads.length ++ before).Perm
        (Parts.sent L s ++ before) := by
      rw [List.append_assoc]
      refine (hmade.append_left _).trans ?_
      rw [← List.append_assoc]
      exact (hF.sent.append_right _).trans hsent
    exact (List.perm_append_right_iff before).1 hnew
  busy i' b' hb' := by
    dsimp only at hb'
    by_cases hii : i' = i
    · subst hii
      rw [Function.update_self] at hb'
      cases hb'
      exact ⟨j, o, k, h, hi, fun x hx => (hread x hx).trans (hparts x.1).symm, hb⟩
    · rw [Function.update_of_ne hii] at hb'
      obtain ⟨j', o', k', h', hi', hread', hb'⟩ := hF.busy i' b' hb'
      exact ⟨j', o', k', h', hi', fun x hx => (hread' x hx).trans (hparts x.1).symm, hb'⟩

variable [DecidableEq L]

variable (fair code act) in
/-- A step that is not of a call. -/
theorem lock (hF : Follows need outs S T) {a : LockStep ι Env} (ha : ¬ LockPool.OfCall S.threads a) :
    Follows need outs { S with toLockPool := S.toLockPool.step fair code act a } (T.step fair code act a) := by
  obtain ⟨ths', q', hkeep, hstep⟩ := LockPool.step_of_not_ofCall S.queue ha
  have hS : S.toLockPool.step fair code act a = ⟨S.state, ths', q'⟩ := hstep S.state
  have hT : T.step fair code act a = ⟨T.state, ths', q'⟩ := by rw [← hstep T.state, ← hF.threads, ← hF.queue]
  have hnone (i : Nat) (hi : S.threads.length ≤ i) : S.busy i = none := by
    by_contra hsome
    obtain ⟨b, hb⟩ := Option.ne_none_iff_exists'.1 hsome
    obtain ⟨j, o, k, h, hth, -⟩ := hF.busy i b hb
    rw [List.getElem?_eq_none hi] at hth
    cases hth
  rw [hS, hT]
  refine ⟨rfl, rfl, hF.parts, ?_, fun i b hb => ?_⟩
  · have hmade : madeBy S.busy ths'.length = S.underWay := madeBy_of_none hnone hkeep.length
    show (Parts.sent L T.state ++ madeBy S.busy ths'.length).Perm _
    rw [hmade]
    exact hF.sent
  · obtain ⟨j, o, k, h, hth, hrest⟩ := hF.busy i b hb
    exact ⟨j, o, k, h, hkeep.calls i _ hth ⟨o, k, rfl⟩, hrest⟩

variable (code) in
/-- A call ends: what it has read is still so, and others that are under way guard other parts. -/
theorem ends (hF : Follows need outs S T) (hact : Guarded need act outs) (hT : Sound rank need T) {i : Nat} {j : ι}
    {o : Op} {k : Ans o → LockProg L Ans Unit} {h : LockHist L Ans}
    (hi : S.threads[i]? = some ⟨j, .call (.op o) k, h⟩) (e : Env) {b : Section σ Out} (hb : S.busy i = some b)
    (hleft : b.left = []) :
    Follows need outs
      ⟨⟨write need o (act o e b.before).2 S.state,
        S.threads.set i ⟨j, k (act o e b.before).1, ⟨.op o, (act o e b.before).1⟩ :: h⟩, S.queue⟩,
        Function.update S.busy i none⟩
      (T.step fair code act (.resume i e)) := by
  obtain ⟨hread, hmade⟩ : SameFor need o b.before S.state ∧ (b.made ++ b.left).Perm (outs o b.before) := by
    obtain ⟨j', o', k', h', hi', hread, hmade⟩ := hF.busy i b hb
    rw [hi] at hi'
    cases hi'
    exact ⟨hread, hmade⟩
  have hreadT : SameFor need o b.before T.state := fun x hx => (hread x hx).trans (hF.parts x.1).symm
  have hans : (act o e T.state).1 = (act o e b.before).1 := (hact.ans o e _ _ hreadT).symm
  have hstep : T.step fair code act (.resume i e) =
      ⟨(act o e T.state).2,
        S.threads.set i ⟨j, k (act o e b.before).1, ⟨.op o, (act o e b.before).1⟩ :: h⟩, S.queue⟩ := by
    have hiT : T.threads[i]? = some ⟨j, .call (.op o) k, h⟩ := hF.threads ▸ hi
    simp only [LockPool.step, hiT]
    refine (if_pos trivial).trans ?_
    rw [← hans, ← hF.threads, ← hF.queue]
    rfl
  rw [hstep]
  refine ⟨rfl, rfl, fun l => ?_, ?_, fun i' b' hb' => ?_⟩
  · by_cases hl : need o = some (l, .exclusive)
    · rw [part_write_self hl]
      exact (hact.write o e _ _ l hl (hreadT _ hl)).symm
    · rw [part_write_of_ne hl, hact.frame o e _ l hl]
      exact hF.parts l
  · have hupdate := madeBy_update S.busy (List.getElem?_eq_some_iff.1 hi).1 none
    rw [hb, Option.elim_some, Option.elim_none, List.append_nil] at hupdate
    rw [hleft, List.append_nil, hact.sends o _ _ hreadT] at hmade
    show (Parts.sent L (act o e T.state).2 ++ madeBy (Function.update S.busy i none) (S.threads.set i _).length).Perm
      (Parts.sent L (write need o (act o e b.before).2 S.state))
    rw [sent_write, hact.sent, List.length_set, List.append_assoc]
    refine (List.Perm.append_left _ ?_).trans hF.sent
    exact (hmade.symm.append_right _).trans (List.perm_append_comm.trans hupdate)
  · dsimp only at hb'
    have hii : i' ≠ i := by
      rintro rfl
      rw [Function.update_self] at hb'
      cases hb'
    rw [Function.update_of_ne hii] at hb'
    obtain ⟨j', o', k', h', hi', hread', hmade'⟩ := hF.busy i' b' hb'
    refine ⟨j', o', k', h', by rw [← hi']; exact List.getElem?_set_ne (Ne.symm hii), fun x hx => ?_, hmade'⟩
    rw [hread' x hx]
    refine (part_write_of_ne (fun hl => ?_) _ _).symm
    -- two calls at once under one lock only read
    rw [← hF.threads] at hi hi'
    have hshared := (hT.alone hi hi' (Ne.symm hii) hl hx rfl).1
    cases hshared

theorem resumeCall (hF : Follows need outs S T) (hact : Guarded need act outs) (hT : Sound rank need T) {i : Nat}
    {j : ι} {o : Op} {k : Ans o → LockProg L Ans Unit} {h : LockHist L Ans}
    (hi : S.threads[i]? = some ⟨j, .call (.op o) k, h⟩) (e : Env × Order Out) :
    Follows need outs (S.resumeCall act outs need i e j o k h)
      (T.run fair code act (S.wholeStep (.resume i e))) := by
  simp only [wholeStep, hi, SectionPool.resumeCall]
  cases hb : S.busy i with
  | none =>
    refine hF.goes hi (fun l => rfl) ?_ (fun x hx => rfl) (e.2.2 _)
    rw [hb]
    exact .refl _
  | some b =>
    obtain ⟨before, made, _ | ⟨x, left⟩⟩ := b
    · exact hF.ends code hact hT hi e.1 hb rfl
    · obtain ⟨j', o', k', h', hi', hread, hmade⟩ := hF.busy i _ hb
      rw [hi] at hi'
      cases hi'
      refine hF.goes hi (fun l => part_push l x _) ?_ hread ?_
      · rw [hb, sent_push, List.append_assoc]
        exact List.perm_append_comm.append_left _
      · rwa [List.append_assoc]

variable (fair code) in
/-- The rule: calls under locks that guard them are atomic, but for the order of what they send. -/
theorem step (hF : Follows need outs S T) (hact : Guarded need act outs) (hT : Sound rank need T)
    (a : LockStep ι (Env × Order Out)) :
    Follows need outs (S.step fair code act outs need a) (T.run fair code act (S.wholeStep a)) := by
  cases a with
  | spawn j => exact hF.lock fair code act (a := .spawn j) id
  | drop i =>
    have hlock (hnot : ∀ j o k hist, S.threads[i]? ≠ some ⟨j, .call (.op o) k, hist⟩) :=
      hF.lock fair code act (a := .drop i) (LockPool.not_atCall hnot)
    rcases hi : S.threads[i]? with _ | ⟨j, _ | ⟨_ | _ | _ | _, k⟩, h⟩ <;> simp only [SectionPool.step, wholeStep, hi]
    case some.call.request | some.call.enter => exact hlock (by simp [hi])
    all_goals exact hF
  | resume i e =>
    have hlock (hnot : ∀ j o k hist, S.threads[i]? ≠ some ⟨j, .call (.op o) k, hist⟩) :=
      hF.lock fair code act (a := .resume i e.1) (LockPool.not_atCall hnot)
    rcases hi : S.threads[i]? with _ | ⟨j, _ | ⟨_ | _ | _ | o, k⟩, h⟩
    case some.call.op =>
      simp only [SectionPool.step, hi]
      exact hF.resumeCall hact hT hi e
    all_goals
      simp only [SectionPool.step, wholeStep, hi]
      exact hlock (by simp [hi])

variable (fair code) in
theorem run (hF : Follows need outs S T) (hact : Guarded need act outs) (hcode : ∀ j, Orderly rank need (code j) [])
    (hT : Sound rank need T) (as : List (LockStep ι (Env × Order Out))) :
    ∃ bs, Follows need outs (S.run fair code act outs need as) (T.run fair code act bs) := by
  induction as generalizing S T with
  | nil => exact ⟨[], hF⟩
  | cons a as ih =>
    obtain ⟨bs, hbs⟩ := ih (hF.step fair code hact hT a) (hT.run hcode _)
    refine ⟨S.wholeStep a ++ bs, ?_⟩
    rw [LockPool.run, List.foldl_append]
    exact hbs

end Follows
end
end Lib
