import XVideoDownloader.Consistent

/-!
# Versions as an optimistic lock

`VersionsLock` is what `version` would guarantee as an optimistic lock. No statement compares versions, so
the guarantee rests on the handlers: a run has it if every row is written by a handler that has read it
at the version it still has. The assignment by the hash ring reads nothing, so it never qualifies.
-/

namespace XVideoDownloader
open Lib

structure VersionsLock [AuthDeps] [DefaultHasher] (s : Server) (as : List (Step Job Env)) : Prop where
  /-- A row that a step changes gets a larger version. -/
  grows : ∀ y ∈ s.trace as, ∀ r ∈ y.1.state.tasks,
    ∀ r' ∈ (y.1.step Job.code Server.act y.2).state.tasks, r'.id = r.id → r' ≠ r → r.version < r'.version
  /-- One version of a row has one content. -/
  content : ∀ as₁ as₂, as = as₁ ++ as₂ → ∀ r ∈ (s.run as₁).state.tasks, ∀ r' ∈ (s.run as).state.tasks,
    r'.id = r.id → r'.version = r.version → r' = r
  /-- What a write replaces is what its handler has read. -/
  noneLost : ∀ y ∈ s.trace as, ∀ x ∈ y.1.issued y.2, ∀ r ∈ y.1.state.tasks, written x = some r.id →
    r ∈ rowsRead x.hist

/-- A row is written only by a handler that has read it at the version it still has. -/
def WriteMeetsVersion (y : Event) : Prop :=
  ∀ x ∈ y.1.issued y.2, ∀ r ∈ y.1.state.tasks, written x = some r.id →
    ∃ q ∈ rowsRead x.hist, q.id = r.id ∧ q.version = r.version

instance (y : Event) : Decidable (WriteMeetsVersion y) :=
  inferInstanceAs (Decidable (∀ x ∈ y.1.issued y.2, _))

def Advances (s s' : Server) : Prop :=
  ∀ r ∈ s.tasks, ∃ r' ∈ s'.tasks, r'.id = r.id ∧ (r' = r ∨ r.version < r'.version)

namespace Advances

theorem refl (s : Server) : Advances s s := fun r hr => ⟨r, hr, rfl, .inl rfl⟩

theorem trans (a b c : Server) (h : Advances a b) (h' : Advances b c) : Advances a c := by
  intro r hr
  obtain ⟨r₁, hr₁, hid₁, hv₁⟩ := h r hr
  obtain ⟨r₂, hr₂, hid₂, hv₂⟩ := h' r₁ hr₁
  refine ⟨r₂, hr₂, hid₂.trans hid₁, ?_⟩
  rcases hv₁ with rfl | hv₁
  · exact hv₂
  · rcases hv₂ with rfl | hv₂
    · exact .inr hv₁
    · exact .inr (hv₁.trans hv₂)

theorem eq_or_lt {s s' : Server} (h : Advances s s') {r r' : Task} (hr : r ∈ s.tasks) (hr' : r' ∈ s'.tasks)
    (hid : r'.id = r.id) : r' = r ∨ r.version < r'.version := by
  obtain ⟨r₁, hr₁, hid₁, hv⟩ := h r hr
  rwa [Server.eq_of_id hr' hr₁ (hid.trans hid₁.symm)]

variable [AuthDeps] [DefaultHasher] {S : Sys} {a : Step Job Env} {x : Issue Op.Ans Job Env}

/-- A handler that has read a row at the version it still has, has read that very row. -/
theorem read_current (hS : Grounded Server.act Allowed (fun _ => True) Advances S)
    (hC : WriteMeetsVersion (S, a)) (hx : S.issued a = some x) {r : Task} (hr : r ∈ S.state.tasks)
    (hw : written x = some r.id) : r ∈ rowsRead x.hist ∧ Builds r x.job x.op := by
  obtain ⟨q, hq, hid, hv⟩ := hC x hx r hr hw
  obtain ⟨ha, hh⟩ := hS.allowed hx
  obtain ⟨hb, s₀, -, hR, hq₀⟩ := ha.builds hh (hid ▸ hw) hq
  rcases hR.eq_or_lt hq₀ hr hid.symm with rfl | hlt
  · exact ⟨hq, hb⟩
  · exact absurd hv hlt.ne

theorem step (hS : Grounded Server.act Allowed (fun _ => True) Advances S)
    (hC : WriteMeetsVersion (S, a)) (hx : S.issued a = some x) :
    Advances S.state (S.state.act x.op x.env).2 := by
  intro r hr
  obtain ⟨r', hr', hstep⟩ := act_tasks_forward (o := x.op) (e := x.env) hr
  refine ⟨r', hr', hstep.sameIdentity.id.symm, ?_⟩
  rcases hstep.eq_or_written with rfl | hw
  · exact .inl rfl
  obtain ⟨-, hb⟩ := read_current hS hC hx hr hw
  obtain ⟨j, h, o, e⟩ := x
  dsimp only at hb hstep
  have hlt : r.version < r.version + 1 := Nat.lt_succ_self _
  cases hstep with
  | same => exact .inl rfl
  | release ho => exact .inr hlt
  | update ho =>
    subst ho
    cases hb <;> exact .inr hlt

end Advances

section
variable [AuthDeps] [DefaultHasher]

/-- In every run whose writes all meet the condition, `version` works as an optimistic lock. -/
theorem versions_lock (s : Server) (as : List (Step Job Env))
    (hC : ∀ y ∈ s.trace as, WriteMeetsVersion y) : VersionsLock s as := by
  have hstep : ∀ (S : Sys) (a : Step Job Env) x, Grounded Server.act Allowed (fun _ => True) Advances S →
      WriteMeetsVersion (S, a) → S.issued a = some x →
      True ∧ Advances S.state (S.state.act x.op x.env).2 :=
    fun _ _ _ hS hCa hx => ⟨trivial, Advances.step hS hCa hx⟩
  have hg : ∀ y ∈ s.trace as, Grounded Server.act Allowed (fun _ => True) Advances y.1 := fun y hy =>
    Grounded.of_mem_trace (fun S a => WriteMeetsVersion (S, a)) code_wp Advances.refl Advances.trans
      hstep (.init trivial) hC hy
  refine ⟨fun y hy r hr r' hr' hid hne => ?_, ?_, fun y hy x hx r hr hw =>
    (Advances.read_current (hg y hy) (hC y hy) hx hr hw).1⟩
  · have hR := ((hg y hy).step code_wp Advances.refl Advances.trans y.2 fun x hx =>
      hstep y.1 y.2 x (hg y hy) (hC y hy) hx).2
    exact (hR.eq_or_lt hr hr' hid).resolve_left hne
  · rintro as₁ as₂ rfl r hr r' hr' hid hv
    have hR := Grounded.run_from (fun S a => WriteMeetsVersion (S, a)) code_wp Advances.refl
      Advances.trans hstep as₁ as₂ (.init trivial) hC
    exact (hR.eq_or_lt hr hr' hid).resolve_right fun hlt => hlt.ne' hv

end

namespace Sample

theorem versions_lock_claimInTurn :
    (server.run claimInTurn).state.tasks.map (·.version) = [2] ∧ VersionsLock server claimInTurn :=
  ⟨by decide +kernel, versions_lock server claimInTurn (by decide +kernel)⟩

/-- Both devices read the queued task before either of them claims it. -/
def claimTwice : List (Step Job Env) :=
  [.spawn (.text 101 (.addTask "u"))] ++ resume 0 6 0 ++
    [.spawn (.text 101 (.claimTask 7)), .spawn (.text 102 (.claimTask 7))] ++
    resume 1 2 0 ++ resume 2 2 0 ++ resume 1 2 0

theorem not_versions_lock_claimTwice :
    (server.run claimTwice).state.tasks.map (fun r => (r.version, r.claimedBy)) = [(2, some 1)] ∧
      (server.run (claimTwice ++ resume 2 2 0)).state.tasks.map (fun r => (r.version, r.claimedBy)) =
        [(2, some 2)] ∧
      ¬ VersionsLock server (claimTwice ++ resume 2 2 0) := by
  refine ⟨by decide +kernel, by decide +kernel, fun h => ?_⟩
  have h' := h.content claimTwice (resume 2 2 0) rfl
  revert h'
  decide +kernel

end Sample

end XVideoDownloader
