import XVideoDownloader.Consistent
import XVideoDownloader.AuthMessage

/-!
# Where the identity of a session comes from

A session is inserted for a verified token. After that its device and its team are rewritten by `Register`
messages, which nobody verifies, and its team by teams that the connection creates or joins.
`session_justified` says that there is no other source. A connection is known by the key of its session.
-/

namespace XVideoDownloader
open Lib WsServer

section
variable [AuthDeps]

/-- The connection whose token is verified by the step's reading of the clock, and the token. -/
def tokenVerified (y : Event) : Option (SessionKey × AuthToken) :=
  match y.1.issued y.2 with
  | some ⟨.connect key firstMsg, _, .now, e⟩ =>
    match authResult firstMsg with
    | some token =>
      match token.verify e.now.asSecs with
      | .ok () => some (key, token)
      | .error _ => none
    | none => none
  | _ => none

omit [AuthDeps] in
def registerObeyed (y : Event) : Option (SessionKey × Uuid × Uuid) :=
  match y.1.issued y.2 with
  | some ⟨.text _ (.register ..), _, .updateSession key deviceId teamId, _⟩ => some (key, deviceId, teamId)
  | _ => none

omit [AuthDeps] in
/-- The connection that creates a team at the step, or that has presented the invite code of the team that
is found at the step; and the team. -/
def teamEntered [DefaultHasher] (y : Event) : Option (SessionKey × Team) :=
  match y.1.issued y.2 with
  | some ⟨.text key (.createTeam _), _, .createTeam name, e⟩ =>
    match (y.1.state.act (.createTeam name) e).1 with
    | .ok team => some (key, team)
    | .error _ => none
  | some ⟨.text key (.joinTeam code), _, .getTeamByCode code', e⟩ =>
    match (y.1.state.act (.getTeamByCode code') e).1 with
    | .ok (some team) => if code = code' then some (key, team) else none
    | _ => none
  | _ => none

variable [DefaultHasher]

/-- The session's device and team come from the token of its connection, or are a team that the connection
has entered. -/
def Proven (tr : List Event) (x : Session) : Prop :=
  ∃ y ∈ tr, ∃ token, tokenVerified y = some (x.key, token) ∧ x.deviceId = token.deviceId ∧
    (x.teamId = token.teamId ∨ ∃ z ∈ tr, ∃ team, teamEntered z = some (x.key, team) ∧ x.teamId = team.id)

/-- The same, or named by a `Register` message of the connection. -/
def Justified (tr : List Event) (x : Session) : Prop :=
  ∃ y ∈ tr, ∃ token, tokenVerified y = some (x.key, token) ∧
    (x.deviceId = token.deviceId ∨
      ∃ z ∈ tr, ∃ teamId, registerObeyed z = some (x.key, x.deviceId, teamId)) ∧
    (x.teamId = token.teamId ∨
      (∃ z ∈ tr, ∃ deviceId, registerObeyed z = some (x.key, deviceId, x.teamId)) ∨
      ∃ z ∈ tr, ∃ team, teamEntered z = some (x.key, team) ∧ x.teamId = team.id)

end

inductive SessionStep (o : Op) (x : Session) : Session → Prop
  | same : SessionStep o x x
  | setTeam {teamId : Uuid} (ho : o = .setTeam x.key teamId) : SessionStep o x { x with teamId := teamId }
  | update {deviceId teamId : Uuid} (ho : o = .updateSession x.key deviceId teamId) :
      SessionStep o x { x with deviceId := deviceId, teamId := teamId }

theorem SessionStep.key_eq {o : Op} {x x' : Session} (h : SessionStep o x x') : x'.key = x.key := by
  cases h <;> rfl

section
variable [DefaultHasher]

theorem act_sessions_backward {o : Op} {e : Env} {s : Server} {x' : Session}
    (h : x' ∈ (s.act o e).2.sessions.rows) :
    (∃ x ∈ s.sessions.rows, SessionStep o x x') ∨
      o = .insertSession x'.key x'.deviceId x'.teamId := by
  cases o with
  | setTeam key teamId =>
    obtain ⟨x, hx, rfl⟩ := List.mem_map.1 h
    refine .inl ⟨x, hx, ?_⟩
    split
    · subst ‹x.key = key›; exact .setTeam rfl
    · exact .same
  | updateSession key deviceId teamId =>
    obtain ⟨x, hx, rfl⟩ := List.mem_map.1 h
    refine .inl ⟨x, hx, ?_⟩
    split
    · subst ‹x.key = key›; exact .update rfl
    · exact .same
  | insertSession key deviceId teamId =>
    rcases List.mem_append.1 h with h | h
    · exact .inl ⟨x', List.mem_of_mem_filter h, .same⟩
    · rw [List.mem_singleton.1 h]
      exact .inr rfl
  | evictDevice | removeSession => exact .inl ⟨x', List.mem_of_mem_filter h, .same⟩
  | _ => exact .inl ⟨x', h, .same⟩

variable [AuthDeps] {s : Server} {as : List (Step Job Env)} {y : Event} {x : Issue Op.Ans Job Env}

theorem allowed_of_mem_trace (hy : y ∈ s.trace as) (hx : y.1.issued y.2 = some x) :
    Allowed x.job x.hist x.op :=
  ((Grounded.of_mem_trace (I := fun _ => True) (R := fun _ _ => True) (fun _ _ => True) code_wp
    (fun _ => trivial) (fun _ _ _ _ _ => trivial) (fun _ _ _ _ _ _ => ⟨trivial, trivial⟩)
    (.init trivial) (fun _ _ => trivial) hy).allowed hx).1

omit [DefaultHasher] in
theorem authResult_of_tokenVerified {key : SessionKey} {token : AuthToken}
    (h : tokenVerified y = some (key, token)) :
    ∃ x msg, y.1.issued y.2 = some x ∧ x.job = .connect key msg ∧ authResult msg = some token := by
  unfold tokenVerified at h
  split at h
  · rename_i hx
    split at h
    · rename_i htoken
      split at h
      · cases h
        exact ⟨_, _, hx, rfl, htoken⟩
      · cases h
    · cases h
  · cases h

theorem tokenVerified_of_insertSession {key : SessionKey} {deviceId teamId : Uuid} (hy : y ∈ s.trace as)
    (hx : y.1.issued y.2 = some x) (ho : x.op = .insertSession key deviceId teamId) :
    ∃ z ∈ s.trace as, ∃ token, tokenVerified z = some (key, token) ∧ deviceId = token.deviceId ∧
      teamId = token.teamId := by
  have ha := allowed_of_mem_trace hy hx
  rw [ho] at ha
  obtain ⟨firstMsg, token, now, hj, hauth, hmem, hv, hd, ht⟩ := ha
  obtain ⟨z, hz, ⟨j', h', o, e⟩, hx', hj', hc⟩ := Pool.hist_of_mem_trace hy hx hmem
  cases hj'.trans hj
  simp only [Sigma.mk.injEq] at hc
  obtain ⟨rfl, hc⟩ := hc
  have hnow : now = e.now := eq_of_heq hc
  subst hnow
  exact ⟨z, hz, token, by simp only [tokenVerified, hx', hauth, hv], hd, ht⟩

theorem teamEntered_of_setTeam {key : SessionKey} {teamId : Uuid} (hy : y ∈ s.trace as)
    (hx : y.1.issued y.2 = some x) (ho : x.op = .setTeam key teamId) :
    ∃ z ∈ s.trace as, ∃ team, teamEntered z = some (key, team) ∧ teamId = team.id := by
  have ha := allowed_of_mem_trace hy hx
  rw [ho] at ha
  generalize hjob : x.job = j at ha
  cases ha with
  | created hmem | joined hmem =>
    obtain ⟨z, hz, ⟨j', h', o, e⟩, hx', hj', hc⟩ := Pool.hist_of_mem_trace hy hx hmem
    cases hj'.trans hjob
    simp only [Sigma.mk.injEq] at hc
    obtain ⟨rfl, hc⟩ := hc
    have hans := (eq_of_heq hc).symm
    exact ⟨z, hz, _, by simp only [teamEntered, hx', hans, if_true], rfl⟩

/-- In every run from a server without sessions, at every moment: each session has a token that was
verified on its connection; its device is the token's or one named by a `Register` message of the
connection; its team is the token's, one named so, or one that the connection has created, or joined by
its invite code. -/
theorem session_justified (s : Server) (hs : s.sessions.rows = []) (as : List (Step Job Env)) :
    ∀ x ∈ (s.run as).state.sessions.rows, Justified (s.trace as) x := by
  refine Pool.run_keeps (K := fun s' : Server => ∀ x ∈ s'.sessions.rows, Justified (s.trace as) x) as
    (fun y hy i hi hJ x' hx' => ?_) fun x hx => by simp [hs] at hx
  rcases act_sessions_backward hx' with ⟨x, hx, hstep⟩ | ho
  · obtain ⟨v, hv, token, htok, hd, ht⟩ := hJ x hx
    cases hstep with
    | same => exact ⟨v, hv, token, htok, hd, ht⟩
    | setTeam ho => exact ⟨v, hv, token, htok, hd, .inr (.inr (teamEntered_of_setTeam hy hi ho))⟩
    | update ho =>
      have ha := allowed_of_mem_trace hy hi
      rw [ho] at ha
      obtain ⟨name, hj⟩ := ha
      obtain ⟨j, h, o, e⟩ := i
      rename_i deviceId teamId
      cases ho
      cases hj
      have hreg : registerObeyed y = some (x.key, deviceId, teamId) := by simp only [registerObeyed, hi]
      exact ⟨v, hv, token, htok, .inr ⟨y, hy, _, hreg⟩, .inr (.inl ⟨y, hy, _, hreg⟩)⟩
  · obtain ⟨z, hz, token, htok, hd, ht⟩ := tokenVerified_of_insertSession hy hi ho
    exact ⟨z, hz, token, htok, .inl hd, .inl ht⟩

end

namespace Sample

/-- Device 1 connects with its token and then registers as device 2 of another team. -/
def registerAsOther : List (Step Job Env) :=
  [.spawn (.connect 101 firstMsg)] ++ resume 0 3 1000000000000 ++
    [.spawn (.text 101 (.register 2 20 "other"))] ++ resume 1 2 1000000000000

theorem sessions_registerAsOther :
    ((Server.new true).run registerAsOther).state.sessions.rows = [⟨101, 2, 20⟩] := by
  -- the text of the token is not read by evaluation
  rw [registerAsOther, List.append_assoc, List.append_assoc, List.singleton_append, Server.run, Pool.run_cons,
    Pool.step, Job.code, WsServer.handleConnection, authResult_firstMsg]
  decide +kernel

theorem session_justified_registerAsOther :
    Justified ((Server.new true).trace registerAsOther) ⟨101, 2, 20⟩ :=
  session_justified (Server.new true) rfl registerAsOther _ (by simp [sessions_registerAsOther])

theorem not_proven_registerAsOther :
    ((Server.new true).run registerAsOther).state.sessions.rows = [⟨101, 2, 20⟩] ∧
      ¬ ∀ x ∈ ((Server.new true).run registerAsOther).state.sessions.rows,
        Proven ((Server.new true).trace registerAsOther) x := by
  refine ⟨sessions_registerAsOther, fun h => ?_⟩
  obtain ⟨y, hy, token, hv, hd, -⟩ := h ⟨101, 2, 20⟩ (by simp [sessions_registerAsOther])
  obtain ⟨x, msg, hx, hjob, htoken⟩ := authResult_of_tokenVerified hv
  have hmsg : msg = firstMsg := by
    rcases Pool.job_of_mem_trace hy hx with ⟨th, hth, -⟩ | hspawn
    · cases hth
    · simpa [registerAsOther, resume, hjob] using hspawn
  rw [hmsg, authResult_firstMsg] at htoken
  cases htoken
  cases hd

end Sample

end XVideoDownloader
