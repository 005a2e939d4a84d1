import XVideoDownloader.Connections

/-!
# What holds of every connection (`server/ws.rs`)

In every run of the server with its sockets, a connection's messages are handled one after the other, in the order in
which they came (`handled_in_order`); what is written to its socket are the texts of what was sent to its session, from
the first on and none left out (`written_in_order`); and no session outlives its connection (`session_of_connection`).
-/

namespace XVideoDownloader
open Lib

namespace WsServer
open Connection

section
variable [AuthDeps]

/-- The sessions are inserted and removed by the handlers of their connections. -/
def Owns (j : Job) : Op → Prop
  | .insertSession key _ _ => ∃ msg, j = .connect key msg
  | .removeSession key => j = .disconnect key
  | _ => True

/-- What a handler has done when it ends. -/
def Ends : Job → List (Call Op.Ans) → Prop
  | .connect _ msg, h => (∃ key deviceId teamId, ⟨.insertSession key deviceId teamId, ()⟩ ∈ h) →
      ∀ token, authResult msg = some token → settled token h = .serving
  | .disconnect key, h => ⟨.removeSession key, ()⟩ ∈ h
  | _, _ => True

theorem settled_cases (token : AuthToken) (h : List (Call Op.Ans)) :
    settled token h = .serving ∨ ∃ message, settled token h = .refused message := by
  unfold settled
  split
  · split
    · exact .inl rfl
    · exact .inr ⟨_, rfl⟩
  · exact .inr ⟨_, rfl⟩

theorem owns_of_allowed {j : Job} (h : List (Call Op.Ans)) (o : Op) (ho : Allowed j h o) : Owns j o := by
  cases o with
  | insertSession key deviceId teamId =>
    obtain ⟨msg, -, -, hj, -⟩ := ho
    exact ⟨msg, hj⟩
  | removeSession key => exact ho
  | _ => trivial

theorem wp_connect (key : SessionKey) (msg : String) :
    (Job.connect key msg).code.wp (fun _ => Owns (.connect key msg)) (fun _ => Ends (.connect key msg)) [] := by
  have hno (h : List (Call Op.Ans)) (hn : ∀ key deviceId teamId, ⟨.insertSession key deviceId teamId, ()⟩ ∉ h) :
      Ends (.connect key msg) h := by
    rintro ⟨key, deviceId, teamId, hmem⟩
    exact absurd hmem (hn key deviceId teamId)
  show (handleConnection key msg).wp _ _ _
  unfold handleConnection
  split
  · rename_i token hauth
    simp only [call, Prog.wp_bind, Prog.wp_op]
    refine ⟨trivial, fun now => ?_⟩
    split
    · rename_i hverify
      have hend {h : List (Call Op.Ans)} (hclock : h.findSome? clockRead = some now) : Ends (.connect key msg) h := by
        intro _ token' htoken'
        cases hauth.symm.trans htoken'
        simp only [settled, hclock, hverify]
      unfold MessageHandler.registerClient
      split
      · simp only [call, Prog.wp_bind, Prog.wp_op]
        exact ⟨trivial, fun _ => ⟨⟨msg, rfl⟩, fun _ => hend rfl⟩⟩
      · exact ⟨⟨msg, rfl⟩, fun _ => hend rfl⟩
    · exact hno _ (by simp)
  · exact hno [] (by simp)

theorem code_bound (j : Job) : j.code.wp (fun _ => Owns j) (fun _ => Ends j) [] := by
  cases j with
  | connect key msg => exact wp_connect key msg
  | text key msg => exact (code_wp (.text key msg)).weaken owns_of_allowed
  | disconnect key => exact ⟨rfl, fun _ => List.mem_cons_self⟩
  | sweep => exact (code_wp .sweep).weaken owns_of_allowed

end

variable [JsonText] [AuthDeps] [ChronoDeps]

structure Inv (S : WsServer) : Prop where
  sound : ∀ key c, S.connections key = some c → c.Sound S.sys key
  known : ∀ th ∈ S.sys.threads, ∀ key, th.job.key? = some key → ∃ c, S.connections key = some c
  bound : Bound Owns Ends S.sys
  sentTo : ∀ p ∈ S.sys.state.sent, ∃ c, S.connections p.1 = some c
  inserted : ∀ x ∈ S.sys.state.sessions.rows, ∃ th ∈ S.sys.threads, ∃ deviceId teamId,
    ⟨.insertSession x.key deviceId teamId, ()⟩ ∈ th.hist
  removed : ∀ th ∈ S.sys.threads, ∀ key, ⟨.removeSession key, ()⟩ ∈ th.hist →
    ∀ x ∈ S.sys.state.sessions.rows, x.key ≠ key

namespace Inv
variable {S : WsServer} {key : SessionKey} {c c' : Connection} {j : Job}

theorem init (db : Database) : Inv (opened db) where
  sound := nofun
  known _ h := absurd h List.not_mem_nil
  bound := ⟨fun _ h => absurd h List.not_mem_nil, fun _ h => absurd h List.not_mem_nil⟩
  sentTo _ h := absurd h List.not_mem_nil
  inserted _ h := absurd h List.not_mem_nil
  removed _ h := absurd h List.not_mem_nil

omit [JsonText] [AuthDeps] [ChronoDeps] in
theorem exists_update {S : WsServer} {key key' : SessionKey} (h : ∃ c, S.connections key' = some c) (c' : Connection) :
    ∃ c, (S.set key c').connections key' = some c := by
  by_cases hk : key' = key
  · exact ⟨c', by rw [hk]; exact Function.update_self ..⟩
  · obtain ⟨c, hc⟩ := h
    exact ⟨c, (Function.update_of_ne hk ..).trans hc⟩

theorem sound_update {S : WsServer} (hkey : c'.Sound S.sys key)
    (hother : ∀ key' ≠ key, ∀ c, S.connections key' = some c → c.Sound S.sys key') :
    ∀ key' c, (S.set key c').connections key' = some c → c.Sound S.sys key' := by
  intro key' c hc
  by_cases hk : key' = key
  · subst hk
    have hc : Function.update S.connections key' (some c') key' = some c := hc
    rw [Function.update_self, Option.some.injEq] at hc
    rw [← hc]
    exact hkey
  · exact hother key' hk c ((Function.update_of_ne hk ..).symm.trans hc)

/-- The rule for a step that changes one connection. -/
theorem set (h : Inv S) (hc' : c'.Sound S.sys key) : Inv (S.set key c') where
  sound := sound_update hc' fun key' _ => h.sound key'
  known th hth key' hkey := exists_update (h.known th hth key' hkey) c'
  bound := h.bound
  sentTo p hp := exists_update (h.sentTo p hp) c'
  inserted := h.inserted
  removed := h.removed

variable [DefaultHasher]

theorem bound_step (h : Inv S) (a : Step Job Env) : Bound Owns Ends (S.sys.step Job.code Server.act a) :=
  h.bound.step code_bound a

/-- The rule for a step that starts a handler of a connection. -/
theorem spawn_set (h : Inv S) (hj : j.key? = some key) (hc' : c'.Sound (S.spawn j).sys key) :
    Inv ((S.spawn j).set key c') where
  sound := sound_update hc' fun key' hk c hc => (h.sound key' c hc).spawn (by rw [hj]; simpa using hk.symm)
  known th hth key' hkey := by
    rcases List.mem_append.1 hth with hth | hth
    · exact exists_update (h.known th hth key' hkey) c'
    · rw [List.mem_singleton.1 hth, hj, Option.some.injEq] at hkey
      exact ⟨c', by rw [← hkey]; exact Function.update_self ..⟩
  bound := h.bound_step (.spawn j)
  sentTo p hp := exists_update (h.sentTo p hp) c'
  inserted x hx := by
    obtain ⟨th, hth, hins⟩ := h.inserted x hx
    exact ⟨th, List.mem_append_left _ hth, hins⟩
  removed th hth key' hmem := by
    rcases List.mem_append.1 hth with hth | hth
    · exact h.removed th hth key' hmem
    · rw [List.mem_singleton.1 hth] at hmem
      cases hmem

theorem tick (h : Inv S) : Inv S.tick := by
  unfold WsServer.tick
  split
  · refine ⟨fun key c hc => (h.sound key c hc).spawn nofun, fun th hth key hkey => ?_, h.bound_step (.spawn .sweep),
      h.sentTo, fun x hx => ?_, fun th hth key hmem => ?_⟩
    · rcases List.mem_append.1 hth with hth | hth
      · exact h.known th hth key hkey
      · rw [List.mem_singleton.1 hth] at hkey
        cases hkey
    · obtain ⟨th, hth, hins⟩ := h.inserted x hx
      exact ⟨th, List.mem_append_left _ hth, hins⟩
    · rcases List.mem_append.1 hth with hth | hth
      · exact h.removed th hth key hmem
      · rw [List.mem_singleton.1 hth] at hmem
        cases hmem
  · exact h

omit [DefaultHasher] in
theorem accept (h : Inv S) (key : SessionKey) : Inv (S.accept key) := by
  unfold WsServer.accept
  split
  · rename_i hnone
    have hthreads : ∀ th ∈ S.sys.threads, th.job.key? ≠ some key := by
      intro th hth hkey
      obtain ⟨c, hc⟩ := h.known th hth key hkey
      rw [hnone] at hc
      cases hc
    have htexts : texts key S.sys.state.sent = [] := by
      refine List.map_eq_nil_iff.2 (List.filterMap_eq_nil_iff.2 fun p hp => if_neg ?_)
      rintro rfl
      obtain ⟨c, hc⟩ := h.sentTo p hp
      rw [hnone] at hc
      cases hc
    refine h.set ⟨List.nil_prefix, fun _ => ⟨rfl, fun _ => htexts.symm⟩, ?_, fun i th hth hkey => ?_, rfl⟩
    · refine List.filter_eq_nil_iff.2 fun j hj => ?_
      obtain ⟨th, hth, rfl⟩ := List.mem_map.1 hj
      simpa using hthreads th hth
    · exact absurd hkey (hthreads th (List.mem_of_getElem? hth))
  · exact h

omit [JsonText] [ChronoDeps] in
/-- What a call sends goes to sessions. -/
theorem sent_resume (sys : Sys) (i : Nat) (e : Env) :
    ∃ sent, (sys.step Job.code Server.act (.resume i e)).state.sent = sys.state.sent ++ sent ∧
      ∀ p ∈ sent, ∃ x ∈ sys.state.sessions.rows, x.key = p.1 := by
  rcases Pool.step_state Job.code Server.act sys (.resume i e) with ⟨-, hs⟩ | ⟨x, -, hs⟩
  · exact ⟨[], by rw [hs, List.append_nil], fun _ h => absurd h List.not_mem_nil⟩
  · refine ⟨_, by rw [hs, Server.act_sent], fun p hp => ?_⟩
    obtain ⟨q, hq, rfl⟩ := List.mem_map.1 hp
    exact ⟨q.1, Server.mem_of_posts hq, rfl⟩

omit [JsonText] [ChronoDeps] in
/-- A session was there before or is inserted by the call. -/
theorem rows_resume {sys : Sys} {i : Nat} {e : Env} {x : Session}
    (hx : x ∈ (sys.step Job.code Server.act (.resume i e)).state.sessions.rows) :
    (∃ y ∈ sys.state.sessions.rows, y.key = x.key) ∨ ∃ z deviceId teamId,
      sys.issued (.resume i e) = some z ∧ z.op = .insertSession x.key deviceId teamId := by
  rcases Pool.step_state Job.code Server.act sys (.resume i e) with ⟨-, hs⟩ | ⟨z, hz, hs⟩
  · rw [hs] at hx
    exact .inl ⟨x, hx, rfl⟩
  · rw [hs] at hx
    rcases act_sessions_backward hx with ⟨y, hy, hstep⟩ | hop
    · exact .inl ⟨y, hy, hstep.key_eq.symm⟩
    · exact .inr ⟨z, _, _, hz, hop⟩

omit [DefaultHasher] in
theorem known_of_session (h : Inv S) {x : Session} (hx : x ∈ S.sys.state.sessions.rows) :
    ∃ c, S.connections x.key = some c := by
  obtain ⟨th, hth, deviceId, teamId, hmem⟩ := h.inserted x hx
  obtain ⟨msg, hjob⟩ := h.bound.hist th hth _ hmem
  exact h.known th hth x.key (by rw [hjob]; rfl)

theorem inserted_resume (h : Inv S) (i : Nat) (e : Env) {x : Session}
    (hx : x ∈ (S.sys.step Job.code Server.act (.resume i e)).state.sessions.rows) :
    ∃ th ∈ (S.sys.step Job.code Server.act (.resume i e)).threads, ∃ deviceId teamId,
      ⟨.insertSession x.key deviceId teamId, ()⟩ ∈ th.hist := by
  rcases rows_resume hx with ⟨y, hy, hkey⟩ | ⟨z, deviceId, teamId, hz, hop⟩
  · obtain ⟨th, hth, deviceId, teamId, hmem⟩ := h.inserted y hy
    obtain ⟨k, hk⟩ := List.mem_iff_getElem?.1 hth
    obtain ⟨th', hth', -, hhist⟩ := Pool.exists_resume hk
    exact ⟨th', List.mem_of_getElem? hth', deviceId, teamId, hkey ▸ hhist hmem⟩
  · obtain ⟨th', hth', -, hmem⟩ := Pool.exists_of_issued hz
    obtain ⟨job, hist, op, env⟩ := z
    cases hop
    exact ⟨th', hth', deviceId, teamId, hmem⟩

/-- Who inserts a session is still being verified, and who has removed it has left. -/
theorem removed_resume (h : Inv S) {i : Nat} {e : Env} {th' : Thread Op.Ans Job}
    (hth' : th' ∈ (S.sys.step Job.code Server.act (.resume i e)).threads)
    (hmem : ⟨.removeSession key, ()⟩ ∈ th'.hist) {x : Session}
    (hx : x ∈ (S.sys.step Job.code Server.act (.resume i e)).state.sessions.rows) : x.key ≠ key := by
  intro hkey
  rcases Pool.hist_step hth' hmem with ⟨th, hth, -, hmem⟩ | ⟨z, hz, -, hcall⟩
  · rcases rows_resume hx with ⟨y, hy, hxy⟩ | ⟨z, deviceId, teamId, hz, hop⟩
    · exact h.removed th hth key hmem y hy (hxy.trans hkey)
    · have howns := h.bound.of_issued hz
      rw [hop, hkey] at howns
      obtain ⟨msg, hjob⟩ := howns
      obtain ⟨th₀, hth₀, hjob₀, hdone⟩ := Pool.of_issued hz
      have hleft : th.job = .disconnect key := h.bound.hist th hth _ hmem
      obtain ⟨c, hc⟩ := h.known th hth key (by rw [hleft]; rfl)
      have hphase := (h.sound key c hc).left_of_disconnect hth hleft
      obtain ⟨token, hphase'⟩ := (h.sound key c hc).verifying_of_connect hth₀ (hjob₀.trans hjob) hdone
      rw [hphase] at hphase'
      cases hphase'
  · rcases Pool.step_state Job.code Server.act S.sys (.resume i e) with ⟨hn, -⟩ | ⟨z', hz', hs⟩
    · rw [hz] at hn
      cases hn
    · rw [hz, Option.some.injEq] at hz'
      subst hz'
      obtain ⟨job, hist, op, env⟩ := z
      cases congrArg Sigma.fst hcall
      rw [hs] at hx
      have hx : x ∈ S.sys.state.sessions.rows.filter fun x => !decide (x.key = key) := hx
      simp [hkey] at hx

theorem resume (h : Inv S) (capacity i : Nat) (e : Env) : Inv (S.resume capacity i e) := by
  unfold WsServer.resume
  split
  · split
    · exact h
    · obtain ⟨sent, hsent, hposts⟩ := sent_resume S.sys i e
      have hdrop : (S.sys.step Job.code Server.act (.resume i e)).state.sent.drop S.sys.state.sent.length = sent := by
        rw [hsent, List.drop_left]
      have hexists {key : SessionKey} (hc : ∃ c, S.connections key = some c) :
          ∃ c, (S.connections key).map (deliver capacity sent key) = some c := by
        obtain ⟨c, hc⟩ := hc
        exact ⟨_, by rw [hc]; rfl⟩
      dsimp only
      rw [hdrop]
      constructor
      · intro key c' hc'
        obtain ⟨c, hc, rfl⟩ := Option.map_eq_some_iff.1 hc'
        exact (h.sound key c hc).resume capacity i e hsent
      · intro th' hth' key hkey
        have hth' : th' ∈ (S.sys.step Job.code Server.act (.resume i e)).threads := hth'
        obtain ⟨k, hk⟩ := List.mem_iff_getElem?.1 hth'
        obtain ⟨th, hth, hjob, -⟩ := Pool.getElem?_resume hk
        exact hexists (h.known th (List.mem_of_getElem? hth) key (by rw [hjob]; exact hkey))
      · exact h.bound_step (.resume i e)
      · intro p hp
        rw [hsent, List.mem_append] at hp
        rcases hp with hp | hp
        · exact hexists (h.sentTo p hp)
        · obtain ⟨x, hx, hkey⟩ := hposts p hp
          exact hexists (hkey ▸ h.known_of_session hx)
      · exact fun x hx => h.inserted_resume i e hx
      · exact fun th' hth' key hmem x hx => h.removed_resume hth' hmem hx
  · exact h

omit [DefaultHasher] in
/-- The authentication ends; who has inserted a session is served. -/
theorem sound_settle (h : Inv S) (hc : S.connections key = some c) {token : AuthToken} (hphase : c.phase = .verifying token)
    {i : Nat} {th : Thread Op.Ans Job} (hi : c.handler = some i) (hth : S.sys.threads[i]? = some th)
    (hdone : th.done = true) : Connection.Sound S.sys key { c with phase := settled token th.hist } := by
  have hsound := h.sound key c hc
  have hat := hsound.phase
  unfold At at hat
  rw [hphase] at hat
  obtain ⟨pre, text, hread, hpre, htoken, ⟨i', th', hi', hth', hjob⟩, honly⟩ := hat
  rw [hi, Option.some.injEq] at hi'
  subst hi'
  rw [hth, Option.some.injEq] at hth'
  subst hth'
  have hsame {th' : Thread Op.Ans Job} (hmem : th' ∈ S.sys.threads) (hkey : th'.job.key? = some key) : th' = th := by
    obtain ⟨k, hk⟩ := List.mem_iff_getElem?.1 hmem
    have hki := honly k th' hk hkey
    rw [hi, Option.some.injEq] at hki
    subst hki
    exact Option.some.inj (hk.symm.trans hth)
  have hlive := hsound.got (by rw [hphase]; trivial)
  have hleft : c.phase ≠ .left ∧ settled token th.hist ≠ .left := by
    refine ⟨by rw [hphase]; nofun, ?_⟩
    rcases settled_cases token th.hist with hs | ⟨message, hs⟩ <;> rw [hs] <;> nofun
  refine hsound.set hsound.written (fun _ => hlive) rfl hleft rfl ?_
  unfold At
  rcases settled_cases token th.hist with hs | ⟨message, hs⟩
  · simp only [hs]
    refine ⟨⟨pre, text, [], hread, hpre, by rw [htoken]; rfl⟩, fun th' hmem msg hmsg => ?_⟩
    rw [hsame hmem (by rw [hmsg]; rfl)]
    exact hdone
  · simp only [hs]
    intro th' hmem hkey
    rw [hsame hmem hkey]
    refine ⟨hdone, fun deviceId teamId hins => ?_⟩
    have hend := h.bound.of_done (List.mem_of_getElem? hth) hdone
    rw [hjob] at hend
    rw [hend ⟨key, deviceId, teamId, hins⟩ token htoken] at hs
    cases hs

omit [DefaultHasher] in
theorem settle (h : Inv S) (key : SessionKey) : Inv (S.settle key) := by
  unfold WsServer.settle
  split
  · rename_i c hc
    split
    · rename_i token th hphase hth
      obtain ⟨i, hi, hth⟩ := Option.bind_eq_some_iff.1 hth
      split
      · exact h.set (h.sound_settle hc hphase hi hth ‹_›)
      · exact h
    · exact h
  · exact h

theorem onFirst (h : Inv S) (hc : S.connections key = some c) {pinged : Bool} (hphase : c.phase = .waiting pinged)
    (f : Incoming) : Inv (S.onFirst key { c with read := c.read ++ [f] } pinged f) := by
  have hsound := h.sound key c hc
  have hrefuse (hf : ∀ text, f ≠ .text text) (message : Option String) :
      Inv (S.set key { c with phase := .refused message, read := c.read ++ [f] }) := by
    refine h.set (hsound.refuse hphase ?_ message)
    rcases hsound.read_of_waiting hphase with hread | hread <;> rw [hread] <;> cases f <;>
      first | rfl | exact absurd rfl (hf _)
  cases f with
  | text text =>
    cases htoken : authResult (.ofList text) with
    | some token =>
      simp only [WsServer.onFirst, htoken]
      exact h.spawn_set rfl (hsound.first hphase htoken)
    | none =>
      simp only [WsServer.onFirst, htoken]
      refine h.set (hsound.refuse hphase ?_ _)
      rcases hsound.read_of_waiting hphase with hread | hread <;> rw [hread] <;> exact if_neg (by simp [htoken])
  | ping =>
    cases pinged with
    | true => exact hrefuse (by simp) none
    | false => exact h.set (hsound.pinged hphase)
  | close | other | error | ended => exact hrefuse (by simp) none

theorem onFrame (h : Inv S) (hc : S.connections key = some c) (hphase : c.phase = .serving) (hidle : S.Idle c)
    (f : Incoming) : Inv (S.onFrame key { c with read := c.read ++ [f] } f) := by
  have hsound := h.sound key c hc
  have hleave (hf : textJob? key f = none) : Inv (S.leave key { c with read := c.read ++ [f] }) := by
    refine h.spawn_set rfl (hsound.leave hphase ((hsound.opened hphase).append f) ?_ c.rx)
    rw [jobsOf_append (hsound.opened hphase), hf, Option.toList_none, List.append_nil]
  cases f with
  | text text =>
    cases hmsg : (Wire.fromStr text : Option ClientMessage) with
    | some msg =>
      simp only [WsServer.onFrame, hmsg]
      exact h.spawn_set rfl (hsound.message hphase (by simp only [textJob?, hmsg, Option.map_some]) hidle)
    | none =>
      simp only [WsServer.onFrame, hmsg]
      exact h.set (hsound.skip hphase (by simp only [textJob?, hmsg, Option.map_none]))
  | close | error | ended => exact hleave rfl
  | ping | other => exact h.set (hsound.skip hphase rfl)

theorem frame (h : Inv S) (key : SessionKey) (f : Incoming) : Inv (S.frame key f) := by
  unfold WsServer.frame
  split
  · rename_i c hc
    split
    · exact h.onFirst hc ‹_› f
    · split
      · exact h.onFrame hc ‹_› ‹_› f
      · exact h
    · exact h
  · exact h

theorem write (h : Inv S) (key : SessionKey) (sent : Bool) : Inv (S.write key sent) := by
  unfold WsServer.write
  split
  · rename_i c hc
    have hsound := h.sound key c hc
    split
    · rename_i hphase
      have hleave (rx : Receiver (List Char)) : Inv (S.leave key { c with rx := rx }) :=
        h.spawn_set rfl (hsound.leave hphase (hsound.opened hphase) rfl rx)
      split
      · exact hleave c.rx
      · rename_i hmissed
        split
        · exact h
        · rename_i text texts' hw
          split
          · exact h.set (hsound.write hphase (not_not.1 hmissed) hw)
          · exact hleave c.rx.recv
    · exact h
  · exact h

theorem step (h : Inv S) (capacity : Nat) (a : Act) : Inv (S.step capacity a) := by
  cases a with
  | accept key => exact h.accept key
  | frame key f => exact h.frame key f
  | settle key => exact h.settle key
  | write key sent => exact h.write key sent
  | tick => exact h.tick
  | resume i e => exact h.resume capacity i e

theorem run (h : Inv S) (capacity : Nat) (as : List Act) : Inv (S.run capacity as) := by
  induction as generalizing S with
  | nil => exact h
  | cons a as ih => exact ih (h.step capacity a)

end Inv

variable [DefaultHasher] (db : Database) (capacity : Nat) (as : List Act)

/-- The handler is of a message of the connection, and it is not at its end. -/
def UnderWay (sys : Sys) (key : SessionKey) (i : Nat) : Prop :=
  ∃ th : Thread Op.Ans Job, sys.threads[i]? = some th ∧ th.job.key? = some key ∧ th.job ≠ .disconnect key ∧
    th.done = false

/-- Each message that is read is handled once, in the order in which they are read, and one after the other. -/
theorem handled_in_order (key : SessionKey) (c : Connection)
    (hc : ((opened db).run capacity as).connections key = some c) :
    (((opened db).run capacity as).sys.threads.map Thread.job).filter (fun j => j.key? = some key) =
        jobsOf key c.read ++ (if c.phase = .left then [.disconnect key] else []) ∧
      ∀ i i', UnderWay ((opened db).run capacity as).sys key i → UnderWay ((opened db).run capacity as).sys key i' →
        i = i' := by
  have hsound := ((Inv.init db).run capacity as).sound key c hc
  have hlast {i : Nat} (h : UnderWay ((opened db).run capacity as).sys key i) : c.handler = some i := by
    obtain ⟨th, hth, hkey, hjob, hdone⟩ := h
    rcases hsound.turn i th hth hkey with h | h | h
    · rw [h] at hdone
      cases hdone
    · exact h
    · exact absurd h hjob
  exact ⟨hsound.jobs, fun i i' hi hi' => Option.some.inj ((hlast hi).symm.trans (hlast hi'))⟩

/-- A session belongs to a connection that is being verified or served, or whose end has yet to remove it. -/
theorem session_of_connection (x : Session) (hx : x ∈ ((opened db).run capacity as).sys.state.sessions.rows) :
    ∃ c, ((opened db).run capacity as).connections x.key = some c ∧
      ((∃ token, c.phase = .verifying token) ∨ c.phase = .serving ∨
        c.phase = .left ∧ ∃ th ∈ ((opened db).run capacity as).sys.threads,
          th.job = .disconnect x.key ∧ th.done = false) := by
  have hinv := (Inv.init db).run capacity as
  obtain ⟨c, hc⟩ := hinv.known_of_session hx
  have hsound := hinv.sound x.key c hc
  obtain ⟨th, hth, deviceId, teamId, hmem⟩ := hinv.inserted x hx
  obtain ⟨msg, hjob⟩ := hinv.bound.hist th hth _ hmem
  have hkey : th.job.key? = some x.key := by rw [hjob]; rfl
  refine ⟨c, hc, ?_⟩
  cases hphase : c.phase with
  | waiting pinged => exact absurd hphase (hsound.not_waiting hth hkey pinged)
  | verifying token => exact .inl ⟨token, rfl⟩
  | serving => exact .inr (.inl rfl)
  | refused message =>
    have hat := hsound.phase
    unfold At at hat
    rw [hphase] at hat
    exact absurd hmem ((hat th hth hkey).2 deviceId teamId)
  | left =>
    refine .inr (.inr ⟨rfl, ?_⟩)
    have hdisc : .disconnect x.key ∈ ((opened db).run capacity as).sys.threads.map (·.job) := by
      have hmem : .disconnect x.key ∈ jobsOf x.key c.read ++ if c.phase = .left then [.disconnect x.key] else [] := by
        rw [if_pos hphase]
        exact List.mem_append_right _ List.mem_cons_self
      rw [← hsound.jobs] at hmem
      exact List.mem_of_mem_filter hmem
    obtain ⟨th', hth', hjob'⟩ := List.mem_map.1 hdisc
    refine ⟨th', hth', hjob', Bool.eq_false_iff.2 fun hdone => ?_⟩
    have hend := hinv.bound.of_done hth' hdone
    rw [hjob'] at hend
    exact hinv.removed th' hth' x.key hend x hx rfl

end WsServer

namespace Sample
open WsServer

/-- Device 1 connects and creates a team. -/
def createRun : List Act :=
  let e : Env := ⟨7, "CODE", 0, none⟩
  [.accept 101, .frame 101 (.text firstMsg.toList)] ++ List.replicate 3 (.resume 0 e) ++
    [.settle 101, .frame 101 (.text (Wire.toText (ClientMessage.createTeam "T")))] ++ List.replicate 7 (.resume 1 e) ++
    [.write 101 true]

theorem createRun_done :
    (((WsServer.opened (.new true)).run 100 createRun).connections 101).map (·.written) =
        some [Wire.toText (ServerMessage.teamCreated ⟨7, "T", "CODE", 0⟩)] ∧
      ((WsServer.opened (.new true)).run 100 createRun).sys.threads.length = 2 ∧
      ⟨101, 1, 7⟩ ∈ ((WsServer.opened (.new true)).run 100 createRun).sys.state.sessions.rows := by
  decide +kernel

theorem handled_in_order_createRun :
    ∃ c, ((WsServer.opened (.new true)).run 100 createRun).connections 101 = some c ∧
      ((WsServer.opened (.new true)).run 100 createRun).sys.threads.length = 2 ∧
      (((WsServer.opened (.new true)).run 100 createRun).sys.threads.map Thread.job).filter (fun j => j.key? = some 101) =
        jobsOf 101 c.read ++ (if c.phase = .left then [Job.disconnect 101] else []) := by
  obtain ⟨c, hc, -⟩ := Option.map_eq_some_iff.1 createRun_done.1
  exact ⟨c, hc, createRun_done.2.1, (handled_in_order (.new true) 100 createRun 101 c hc).1⟩

theorem session_of_connection_createRun :
    ∃ x : Session, x.key = 101 ∧ ∃ c, ((WsServer.opened (.new true)).run 100 createRun).connections x.key = some c ∧
      ((∃ token, c.phase = .verifying token) ∨ c.phase = .serving ∨
        c.phase = .left ∧ ∃ th ∈ ((WsServer.opened (.new true)).run 100 createRun).sys.threads,
          th.job = .disconnect x.key ∧ th.done = false) :=
  ⟨⟨101, 1, 7⟩, rfl, session_of_connection (.new true) 100 createRun ⟨101, 1, 7⟩ createRun_done.2.2⟩

end Sample
end XVideoDownloader
