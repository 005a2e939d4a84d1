import XVideoDownloader.Isolation
import XVideoDownloader.OnColumns

/-!
# The server over its restarts (`main.rs`, `server/db.rs`)

The program can end between any two calls. Its handlers, its sessions and its hash ring are gone then, and
`Database::open` finds the tables as they are, since `init_schema` creates only what is missing. What holds in every run
of the server on its columns holds over any number of such runs (`survives_restarts`).
-/

namespace XVideoDownloader
open Lib Storage

/-- `run_server` on the database that there is. -/
def Server.restart (s : Server) : Server := ⟨s.db, .empty, HashRing.new, []⟩

def StoredServer.restart (t : StoredServer) : StoredServer := ⟨t.db, .empty, HashRing.new, []⟩

section
variable [DefaultHasher] [AuthDeps]

/-- One run after the other, each cut off where its list ends. -/
def Server.lives (s : Server) (runs : List (List (Step Job Env))) : Server :=
  runs.foldl (fun s as => (s.run as).state.restart) s

def StoredServer.lives [ColumnText] [UuidError] (t : StoredServer) (runs : List (List (Step Job Env))) : StoredServer :=
  runs.foldl (fun t as => (t.run as).state.restart) t

/-! ### The rows -/

theorem Server.Consistent.lives {s : Server} (h : s.Consistent) (runs : List (List (Step Job Env))) :
    (s.lives runs).Consistent := by
  induction runs generalizing s with
  | nil => exact h
  | cons as runs ih =>
    have hrestart : (s.run as).state.restart.Consistent := h.run as
    exact ih hrestart

namespace Persists

theorem run (s : Server) (as : List (Step Job Env)) : Persists s (s.run as).state :=
  Pool.run_keeps (K := Persists s) as (fun _ _ _ _ h => trans _ _ _ h (act _ _ _)) (refl s)

theorem lives (s : Server) (runs : List (List (Step Job Env))) : Persists s (s.lives runs) := by
  induction runs generalizing s with
  | nil => exact refl s
  | cons as runs ih =>
    have hrestart : Persists s (s.run as).state.restart := run s as
    exact trans _ _ _ hrestart (ih _)

end Persists

/-! ### The columns -/

namespace StoredServer
variable [ColumnText] [UuidError] {n : Nat} {s : Server} {t : StoredServer}

theorem Holds.lives (hrt : TextRoundTrip) (h : Holds n s t) (runs : List (List (Step Job Env)))
    (hlen : n + runs.flatten.length + 2 < 2 ^ 63) (hjobs : ∀ as ∈ runs, ∀ j, .spawn j ∈ as → j.Fits)
    (hclock : ∀ as ∈ runs, ∀ i e, .resume i e ∈ as → InYears e.now) :
    Holds (n + runs.flatten.length) (s.lives runs) (t.lives runs) := by
  induction runs generalizing n s t with
  | nil => exact h
  | cons as runs ih =>
    rw [List.forall_mem_cons] at hjobs hclock
    rw [List.flatten_cons, List.length_append, ← Nat.add_assoc] at hlen ⊢
    have hrun := (simulates hrt h as (by omega) hjobs.1 hclock.1).state
    have hrestart : Holds (n + as.length) (s.run as).state.restart (t.run as).state.restart :=
      ⟨hrun.db, rfl, rfl, rfl, fun _ h => absurd h List.not_mem_nil⟩
    exact ih hrestart hlen hjobs.2 hclock.2

end StoredServer

/-- After any number of runs, each cut off anywhere, a run of the server on its columns is one of the server on its
rows. Every row is consistent, and every row that there ever was is still there, with its identity. -/
theorem survives_restarts [ColumnText] [UuidError] (hrt : TextRoundTrip) (foreignKeys : Bool)
    (runs : List (List (Step Job Env))) (as : List (Step Job Env))
    (hlen : runs.flatten.length + as.length + 2 < 2 ^ 63)
    (hjobs : ∀ run ∈ as :: runs, ∀ j, .spawn j ∈ run → j.Fits)
    (hclock : ∀ run ∈ as :: runs, ∀ i e, .resume i e ∈ run → InYears e.now) :
    let s := (Server.new foreignKeys).lives runs
    let t := (StoredServer.new foreignKeys).lives runs
    ((t.run as).threads = (s.run as).threads ∧ (t.run as).state.sessions = (s.run as).state.sessions ∧
      (t.run as).state.sent = (s.run as).state.sent ∧
      Db.Represents (runs.flatten.length + as.length) (t.run as).state.db (s.run as).state.db) ∧
    (∀ r ∈ (s.run as).state.tasks, r.Consistent) ∧
    ∀ before after, runs = before ++ after → Persists ((Server.new foreignKeys).lives before) (s.run as).state := by
  intro s t
  rw [List.forall_mem_cons] at hjobs hclock
  have hholds : StoredServer.Holds (0 + runs.flatten.length) s t :=
    (StoredServer.Holds.new foreignKeys).lives hrt runs (by omega) hjobs.2 hclock.2
  rw [Nat.zero_add] at hholds
  have hsim := StoredServer.simulates hrt hholds as (by omega) hjobs.1 hclock.1
  have hconsistent : s.Consistent := (Server.Consistent.of_empty rfl).lives runs
  refine ⟨⟨hsim.threads, hsim.state.sessions, hsim.state.sent, hsim.state.db⟩, hconsistent.run as, ?_⟩
  intro before after h
  have hs : s = ((Server.new foreignKeys).lives before).lives after := by
    rw [Server.lives, Server.lives, ← List.foldl_append, ← h]
    rfl
  rw [hs]
  exact .trans _ _ _ (.lives _ after) (.run _ as)

end

namespace Sample

/-- Device 1 comes back. -/
def comeBack : List (Step Job Env) :=
  [.spawn (.connect 102 firstMsg)] ++ List.replicate 3 (.resume 0 ⟨8, "CODE", 0, none⟩)

theorem survives_restarts_comeBack :
    ∃ r ∈ (((Server.new true).lives [addSteps, addSteps.take 5]).run comeBack).state.tasks, r.url = "u" := by
  have hjobs (j : Job) (hj : .spawn j ∈ comeBack) : j.Fits := by
    have hj : j = .connect 102 firstMsg := by simpa [comeBack] using hj
    rw [hj]
    trivial
  have hclock (i : Nat) (e : Env) (he : .resume i e ∈ comeBack) : InYears e.now := by
    have he : e = ⟨8, "CODE", 0, none⟩ := by
      simp [comeBack] at he
      tauto
    rw [he]
    decide
  have h := survives_restarts columnText_roundTrip true [addSteps, addSteps.take 5] comeBack (by decide) (by
    simp only [List.forall_mem_cons, List.not_mem_nil, IsEmpty.forall_iff, implies_true, and_true]
    exact ⟨hjobs, fits_addSteps, fun j hj => fits_addSteps j (List.mem_of_mem_take hj)⟩) (by
    simp only [List.forall_mem_cons, List.not_mem_nil, IsEmpty.forall_iff, implies_true, and_true]
    exact ⟨hclock, clock_addSteps, fun i e he => clock_addSteps i e (List.mem_of_mem_take he)⟩)
  have hrow : { Task.new 7 0 "u" 7 1 with status := .queued } ∈ ((Server.new true).lives [addSteps]).tasks := by
    decide +kernel
  obtain ⟨r, hr, hsame⟩ := h.2.2 [addSteps] [addSteps.take 5] rfl _ hrow
  exact ⟨r, hr, hsame.url.symm⟩

end Sample
end XVideoDownloader
