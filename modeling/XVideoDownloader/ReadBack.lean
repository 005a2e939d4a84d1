import XVideoDownloader.InOrder
import XVideoDownloader.OnColumns

/-!
# What the two ends read (`server/ws.rs`)

The texts on the sockets are read back: what a connection has written is read as the messages that were sent to its
session, from the first on, and the messages that a client writes are handled as it wrote them (`read_in_order`). The
hypotheses are about the clock and the length of the run, which bound what the handlers send.
-/

namespace XVideoDownloader
open Lib Storage

namespace Wire
variable [JsonText] [AuthDeps] [ChronoDeps]

/-- The columns have the texts of the same packages. -/
@[reducible] def columnText : ColumnText :=
  ⟨AuthDeps.uuidText, AuthDeps.parseStr, ChronoDeps.toRfc3339, ChronoDeps.parseFromRfc3339⟩

omit [AuthDeps] [ChronoDeps] in
theorem lt_of_required {name : String} {fields : Fields} {n : Nat} (h : required name fields = some n) :
    n < UInt64.size := by
  unfold required at h
  split at h
  · rename_i f hf
    cases hv : f.2 with
    | number x =>
      rw [hv] at h
      obtain ⟨k, -, rfl⟩ := Option.map_eq_some_iff.1 h
      exact k.toNat_lt
    | _ =>
      rw [hv] at h
      cases h
  · cases h

omit [ChronoDeps] in
/-- A client's message that can be read has sizes in range. -/
theorem writable_of_fromStr {text : List Char} {m : ClientMessage} (h : fromStr text = some m) : m.Writable := by
  cases m with
  | taskComplete taskId localPath fileSize =>
    obtain ⟨v, -, hv⟩ := Option.bind_eq_some_iff.1 h
    obtain ⟨⟨tag, rest⟩, -, hrest⟩ := Option.bind_eq_some_iff.1 hv
    obtain ⟨fields, -, hread⟩ := Option.bind_eq_some_iff.1 hrest
    have hread : readClientMessage tag fields = some (.taskComplete taskId localPath fileSize) := hread
    unfold readClientMessage at hread
    split at hread
    all_goals
      simp [Option.bind_eq_some_iff] at hread
    exact lt_of_required hread.2.2
  | _ => trivial

end Wire

namespace WsServer
variable [JsonText] [AuthDeps] [ChronoDeps] [DefaultHasher] {S : WsServer} {capacity n : Nat} {db : Database}
  {as : List Act} {key : SessionKey} {c : Connection}

/-- From `S` to `S'` at most one handler is started or resumed, the latter by `a`. -/
def Moves (S : WsServer) (a : Act) (S' : WsServer) : Prop :=
  ∃ bs : List (Step Job Env), bs.length ≤ 1 ∧ S'.sys = Pool.run Job.code Server.act S.sys bs ∧
    (∀ j, .spawn j ∈ bs → j.Fits) ∧ ∀ i e, .resume i e ∈ bs → a = .resume i e

theorem moves_step (S : WsServer) (capacity : Nat) (a : Act) : Moves S a (S.step capacity a) := by
  have hstay {S' : WsServer} (h : S'.sys = S.sys) : Moves S a S' := ⟨[], by simp, h, by simp, by simp⟩
  have hspawn {S' : WsServer} (j : Job) (hj : j.Fits) (h : S'.sys = (S.spawn j).sys) : Moves S a S' :=
    ⟨[.spawn j], by simp, h, by simpa using hj, by simp⟩
  cases a with
  | accept key =>
    refine hstay ?_
    simp only [WsServer.step, WsServer.accept]
    split <;> rfl
  | settle key =>
    refine hstay ?_
    simp only [WsServer.step, WsServer.settle]
    repeat' split
    all_goals rfl
  | tick =>
    simp only [WsServer.step, WsServer.tick]
    split
    · exact hspawn .sweep trivial rfl
    · exact hstay rfl
  | write key sent =>
    simp only [WsServer.step, WsServer.write]
    repeat' split
    all_goals first | exact hstay rfl | exact hspawn (.disconnect key) trivial rfl
  | frame key f =>
    simp only [WsServer.step, WsServer.frame]
    split
    · split
      · cases f with
        | text text =>
          simp only [WsServer.onFirst]
          split
          · exact hspawn (.connect key (.ofList text)) trivial rfl
          · exact hstay rfl
        | _ => exact hstay rfl
      · split
        · cases f with
          | text text =>
            simp only [WsServer.onFrame]
            split
            · rename_i msg hmsg
              exact hspawn (.text key msg) (Wire.writable_of_fromStr hmsg) rfl
            · exact hstay rfl
          | close | error | ended => exact hspawn (.disconnect key) trivial rfl
          | ping | other => exact hstay rfl
        · exact hstay rfl
      · exact hstay rfl
    · exact hstay rfl
  | resume i e =>
    simp only [WsServer.step, WsServer.resume]
    split
    · split
      · exact hstay rfl
      · exact ⟨[.resume i e], by simp, rfl, by simp, by simp⟩
    · exact hstay rfl

theorem sys_run (S : WsServer) (capacity : Nat) (as : List Act) :
    ∃ bs : List (Step Job Env), bs.length ≤ as.length ∧
      (S.run capacity as).sys = Pool.run Job.code Server.act S.sys bs ∧
      (∀ j, .spawn j ∈ bs → j.Fits) ∧ ∀ i e, .resume i e ∈ bs → .resume i e ∈ as := by
  induction as generalizing S with
  | nil => exact ⟨[], by simp, rfl, by simp, by simp⟩
  | cons a as ih =>
    obtain ⟨bs, hlen, hsys, hfits, hresume⟩ := moves_step S capacity a
    obtain ⟨bs', hlen', hsys', hfits', hresume'⟩ := ih (S.step capacity a)
    refine ⟨bs ++ bs', ?_, ?_, fun j hj => ?_, fun i e he => ?_⟩
    · rw [List.length_append, List.length_cons]
      omega
    · rw [Pool.run_append, ← hsys]
      exact hsys'
    · rcases List.mem_append.1 hj with hj | hj
      · exact hfits j hj
      · exact hfits' j hj
    · rcases List.mem_append.1 he with he | he
      · exact hresume i e he ▸ List.mem_cons_self
      · exact List.mem_cons_of_mem _ (hresume' i e he)

/-- What was sent in a run can be written and read back. -/
theorem writable_of_sent (capacity : Nat) (htexts : Wire.TextsRead) (hdb : db.Within n) (hlen : n + as.length + 2 < 2 ^ 63)
    (hclock : ∀ i e, .resume i e ∈ as → InYears e.now) :
    ∀ p ∈ ((opened db).run capacity as).sys.state.sent, p.2.Writable := by
  let _ : ColumnText := Wire.columnText
  let _ : UuidError := ⟨id⟩
  have hrt : TextRoundTrip := ⟨htexts.uuid, htexts.time⟩
  obtain ⟨d, hd⟩ := Db.Represents.of_within hrt hdb
  obtain ⟨bs, hbs, hsys, hfits, hresume⟩ := sys_run (opened db) capacity as
  have hholds : StoredServer.Holds n ⟨db, .empty, .new, []⟩ ⟨d, .empty, .new, []⟩ :=
    ⟨hd, rfl, rfl, rfl, fun _ h => absurd h List.not_mem_nil⟩
  have hsim := StoredServer.simulates hrt hholds bs (by omega) hfits fun i e he => hclock i e (hresume i e he)
  rw [hsys]
  exact fun p hp => (hsim.state.within p hp).writable (by omega)

end WsServer

namespace Sample
open WsServer

/-- Device 1 creates a team and reports a progress. -/
def progressRun : List Act := createRun ++ [.frame 101 (.text (Wire.toText (ClientMessage.updateProgress 7 (1 / 2))))]

theorem progressRun_done :
    (((WsServer.opened (.new true)).run 100 progressRun).connections 101).map
        (fun c => (c.phase, c.read, c.written)) =
      some (.serving,
        [.text firstMsg.toList, .text (Wire.toText (ClientMessage.createTeam "T")),
          .text (Wire.toText (ClientMessage.updateProgress 7 (1 / 2)))],
        [Wire.toText (ServerMessage.teamCreated ⟨7, "T", "CODE", 0⟩)]) := by
  decide +kernel

end Sample
end XVideoDownloader
