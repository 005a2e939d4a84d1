import XVideoDownloader.Identity
import XVideoDownloader.Mirror
import XVideoDownloader.Wire
import XVideoDownloader.Lib.Broadcast
import XVideoDownloader.Lib.Threads

/-!
# The connections of the server (`server/ws.rs`)

`WsServer` is the server with its sockets: the handlers under way, and for each connection how far its
`handle_connection` is, what its loop has read and written, and the channel that the handlers send on. A step is one
thing that happens to it: a socket yields a frame, a handler makes a call, the writing loop takes a text.

`Connection.Sound` is what holds of a connection in every run, with a rule for each kind of step. A handler that is
dropped with its connection is not resumed. `Uuid::new_v4` draws no key twice. The channel's capacity is a parameter:
tokio rounds the 100 that the source asks for up to a power of two.
-/

namespace XVideoDownloader
open Lib

/-- What `read.next()` yields. -/
inductive Incoming
  | text (text : List Char)
  | ping
  | close
  | other
  | error
  | ended
  deriving DecidableEq

/-- How far `handle_connection` is. -/
inductive Phase
  | waiting (pinged : Bool)
  | verifying (token : AuthToken)
  | serving
  /-- The `select!` is over, and the session is being removed. -/
  | left
  | refused (message : Option String)
  deriving DecidableEq

namespace Phase

/-- `rx` is there. -/
def Live : Phase → Prop
  | waiting _ | verifying _ | serving => True
  | left | refused _ => False

instance : DecidablePred Live := fun p => by cases p <;> unfold Live <;> infer_instance

end Phase

structure Connection where
  phase : Phase
  /-- The handler that was started last. -/
  handler : Option Nat
  rx : Receiver (List Char)
  read : List Incoming
  written : List (List Char)

def Connection.new : Connection := ⟨.waiting false, none, ⟨0, [], [], 0⟩, [], []⟩

structure WsServer where
  sys : Sys
  connections : SessionKey → Option Connection

def AuthError.debug : AuthError → String
  | tokenExpired => "TokenExpired"
  | invalidSignature => "InvalidSignature"
  | invalidFormat => "InvalidFormat"

namespace Job

def key? : Job → Option SessionKey
  | connect key _ | text key _ | disconnect key => some key
  | sweep => none

def isSweep : Job → Bool
  | sweep => true
  | _ => false

end Job

namespace WsServer

inductive Act
  | accept (key : SessionKey)
  | frame (key : SessionKey) (f : Incoming)
  /-- The token is verified, or it is not. -/
  | settle (key : SessionKey)
  /-- A round of the writing loop, whose `send` succeeds or fails. -/
  | write (key : SessionKey) (sent : Bool)
  | tick
  | resume (i : Nat) (e : Env)

/-- The server at its start, with the database as it was opened. -/
def opened (db : Database) : WsServer := ⟨⟨⟨db, .empty, .new, []⟩, []⟩, fun _ => none⟩

variable [JsonText] [AuthDeps] [ChronoDeps] [DefaultHasher] (capacity : Nat) (S : WsServer)

def set (key : SessionKey) (c : Connection) : WsServer :=
  { S with connections := Function.update S.connections key (some c) }

def spawn (j : Job) : WsServer := { S with sys := S.sys.step Job.code Server.act (.spawn j) }

/-- The handler `j` is started for the connection. -/
def start (key : SessionKey) (c : Connection) (j : Job) : WsServer :=
  (S.spawn j).set key { c with handler := some S.sys.threads.length }

/-- One of the two loops ends. -/
def leave (key : SessionKey) (c : Connection) : WsServer :=
  (S.spawn (.disconnect key)).set key { c with phase := .left }

/-- The handler that was started last has ended. -/
def Idle (c : Connection) : Prop := ∀ i ∈ c.handler, ∀ th ∈ S.sys.threads[i]?, th.done

instance (c : Connection) : Decidable (S.Idle c) := by unfold Idle; infer_instance

def onFirst (key : SessionKey) (c : Connection) (pinged : Bool) : Incoming → WsServer
  | .text text =>
    match authResult (.ofList text) with
    | some token => S.start key { c with phase := .verifying token } (.connect key (.ofList text))
    | none => S.set key { c with phase := .refused (some "无效的认证格式") }
  | .ping => S.set key { c with phase := if pinged then .refused none else .waiting true }
  | _ => S.set key { c with phase := .refused none }

def onFrame (key : SessionKey) (c : Connection) : Incoming → WsServer
  | .text text =>
    match Wire.fromStr text with
    | some msg => S.start key c (.text key msg)
    | none => S.set key c
  | .close | .error | .ended => S.leave key c
  | .ping | .other => S.set key c

def frame (key : SessionKey) (f : Incoming) : WsServer :=
  match S.connections key with
  | some c =>
    match c.phase with
    | .waiting pinged => S.onFirst key { c with read := c.read ++ [f] } pinged f
    -- the next frame is read when the last one is dealt with
    | .serving => if S.Idle c then S.onFrame key { c with read := c.read ++ [f] } f else S
    | _ => S
  | none => S

def clockRead : Call Op.Ans → Option Time
  | ⟨.now, t⟩ => some t
  | _ => none

/-- The end of the authentication: its handler has read the clock once. -/
def settled (token : AuthToken) (h : List (Call Op.Ans)) : Phase :=
  match h.findSome? clockRead with
  | some now =>
    match token.verify now.asSecs with
    | .ok () => .serving
    | .error e => .refused (some ("认证失败: " ++ e.debug))
  | none => .refused none

def settle (key : SessionKey) : WsServer :=
  match S.connections key with
  | some c =>
    match c.phase, c.handler.bind fun i => S.sys.threads[i]? with
    | .verifying token, some th =>
      if th.done then S.set key { c with phase := settled token th.hist } else S
    | _, _ => S
  | none => S

def write (key : SessionKey) (sent : Bool) : WsServer :=
  match S.connections key with
  | some c =>
    match c.phase with
    | .serving =>
      -- `recv` says that messages were lost, and the loop ends
      if c.rx.missed ≠ 0 then S.leave key c
      else
        match c.rx.waiting with
        | [] => S
        | text :: _ =>
          if sent then S.set key { c with rx := c.rx.recv, written := c.written ++ [text] }
          else S.leave key { c with rx := c.rx.recv }
    | _ => S
  | none => S

def tick : WsServer := if S.sys.threads.all fun th => !th.job.isSweep || th.done then S.spawn .sweep else S

def accept (key : SessionKey) : WsServer :=
  match S.connections key with
  | none => S.set key .new
  | some _ => S

/-- The handler of a message is dropped with its connection. -/
def Dropped (th : Thread Op.Ans Job) : Prop :=
  match th.job with
  | .text key _ => ∀ c ∈ S.connections key, ¬ c.phase.Live
  | _ => False

instance (th : Thread Op.Ans Job) : Decidable (S.Dropped th) := by
  unfold Dropped
  split <;> infer_instance

/-- The texts for the session `key` among what was sent. -/
def texts (key : SessionKey) (sent : List (SessionKey × ServerMessage)) : List (List Char) :=
  (inbox key sent).map Wire.toText

/-- What was sent arrives at the receivers that are there. -/
def deliver (sent : List (SessionKey × ServerMessage)) (key : SessionKey) (c : Connection) : Connection :=
  if c.phase.Live then { c with rx := (texts key sent).foldl (Receiver.push · capacity) c.rx } else c

def resume (i : Nat) (e : Env) : WsServer :=
  match S.sys.threads[i]? with
  | some th =>
    if S.Dropped th then S
    else
      let sys := S.sys.step Job.code Server.act (.resume i e)
      ⟨sys, fun key => (S.connections key).map (deliver capacity (sys.state.sent.drop S.sys.state.sent.length) key)⟩
  | none => S

def step : Act → WsServer
  | .accept key => S.accept key
  | .frame key f => S.frame key f
  | .settle key => S.settle key
  | .write key sent => S.write key sent
  | .tick => S.tick
  | .resume i e => S.resume capacity i e

def run (as : List Act) : WsServer := as.foldl (step capacity) S

/-! ### What a connection has done -/

def textJob? (key : SessionKey) : Incoming → Option Job
  | .text text => (Wire.fromStr text).map (Job.text key)
  | _ => none

def jobsFor (key : SessionKey) (text : List Char) (frames : List Incoming) : List Job :=
  if (authResult (.ofList text)).isSome then .connect key (.ofList text) :: frames.filterMap (textJob? key) else []

/-- The handlers that the frames of a connection call for. -/
def jobsOf (key : SessionKey) : List Incoming → List Job
  | .text text :: frames | .ping :: .text text :: frames => jobsFor key text frames
  | _ => []

/-- They begin with a token. -/
def Opened (frames : List Incoming) : Prop :=
  ∃ pre text rest, frames = pre ++ .text text :: rest ∧ (pre = [] ∨ pre = [.ping]) ∧
    (authResult (.ofList text)).isSome = true

omit [JsonText] [ChronoDeps] [DefaultHasher] in
theorem Opened.append {frames : List Incoming} (h : Opened frames) (f : Incoming) : Opened (frames ++ [f]) := by
  obtain ⟨pre, text, rest, rfl, hpre, htoken⟩ := h
  exact ⟨pre, text, rest ++ [f], by simp, hpre, htoken⟩

omit [ChronoDeps] [DefaultHasher] in
theorem jobsOf_opened {key : SessionKey} {pre rest : List Incoming} {text : List Char} (hpre : pre = [] ∨ pre = [.ping])
    (htoken : (authResult (.ofList text)).isSome = true) :
    jobsOf key (pre ++ .text text :: rest) = .connect key (.ofList text) :: rest.filterMap (textJob? key) := by
  rcases hpre with rfl | rfl <;> exact if_pos htoken

omit [ChronoDeps] [DefaultHasher] in
theorem jobsOf_append {key : SessionKey} {frames : List Incoming} (h : Opened frames) (f : Incoming) :
    jobsOf key (frames ++ [f]) = jobsOf key frames ++ (textJob? key f).toList := by
  obtain ⟨pre, text, rest, rfl, hpre, htoken⟩ := h
  rw [List.append_assoc, List.cons_append, jobsOf_opened hpre htoken, jobsOf_opened hpre htoken, List.filterMap_append,
    List.cons_append]
  cases h : textJob? key f <;> simp [h]

omit [ChronoDeps] [DefaultHasher] in
theorem disconnect_not_mem_jobsOf (key key' : SessionKey) (frames : List Incoming) :
    .disconnect key' ∉ jobsOf key frames := by
  have hfor (text : List Char) (rest : List Incoming) : .disconnect key' ∉ jobsFor key text rest := by
    unfold jobsFor
    split
    · refine List.not_mem_cons_of_ne_of_not_mem nofun fun hmem => ?_
      obtain ⟨f, -, hf⟩ := List.mem_filterMap.1 hmem
      cases f with
      | text text =>
        obtain ⟨msg, -, hmsg⟩ := Option.map_eq_some_iff.1 hf
        cases hmsg
      | _ => cases hf
    · exact List.not_mem_nil
  unfold jobsOf
  split
  · exact hfor _ _
  · exact hfor _ _
  · exact List.not_mem_nil

omit [DefaultHasher] in
theorem texts_append (key : SessionKey) (sent sent' : List (SessionKey × ServerMessage)) :
    texts key (sent ++ sent') = texts key sent ++ texts key sent' := by
  rw [texts, inbox_append, List.map_append]
  rfl

end WsServer

namespace Connection
open WsServer
variable [JsonText] [AuthDeps] [ChronoDeps]

/-- What a phase says about the frames that were read and about the handlers. -/
def At (sys : Sys) (key : SessionKey) (c : Connection) : Prop :=
  match c.phase with
  | .waiting pinged => c.read = if pinged then [.ping] else []
  | .verifying token => ∃ pre text, c.read = pre ++ [.text text] ∧ (pre = [] ∨ pre = [.ping]) ∧
      authResult (.ofList text) = some token ∧
      (∃ i th, c.handler = some i ∧ sys.threads[i]? = some th ∧ th.job = .connect key (.ofList text)) ∧
      ∀ i th, sys.threads[i]? = some th → th.job.key? = some key → c.handler = some i
  | .serving | .left => Opened c.read ∧ ∀ th ∈ sys.threads, ∀ msg, th.job = .connect key msg → th.done = true
  | .refused _ => ∀ th ∈ sys.threads, th.job.key? = some key →
      th.done = true ∧ ∀ deviceId teamId, ⟨.insertSession key deviceId teamId, ()⟩ ∉ th.hist

structure Sound (sys : Sys) (key : SessionKey) (c : Connection) : Prop where
  written : c.written <+: texts key sys.state.sent
  got : c.phase.Live → c.rx.taken = c.written ∧ (c.rx.missed = 0 → c.rx.got = texts key sys.state.sent)
  jobs : (sys.threads.map (·.job)).filter (fun j => j.key? = some key) =
    jobsOf key c.read ++ if c.phase = .left then [.disconnect key] else []
  /-- Only the handler that was started last can be under way, and the removal of the session. -/
  turn : ∀ i th, sys.threads[i]? = some th → th.job.key? = some key →
    th.done = true ∨ c.handler = some i ∨ th.job = .disconnect key
  phase : c.At sys key

namespace Sound
variable {sys : Sys} {key : SessionKey} {c c' : Connection} {j : Job}

/-- The rule for a step that is not about the handlers. -/
theorem set (h : Sound sys key c) (hwritten : c'.written <+: texts key sys.state.sent)
    (hgot : c'.phase.Live → c'.rx.taken = c'.written ∧ (c'.rx.missed = 0 → c'.rx.got = texts key sys.state.sent))
    (hjobs : jobsOf key c'.read = jobsOf key c.read) (hleft : c.phase ≠ .left ∧ c'.phase ≠ .left)
    (hhandler : c'.handler = c.handler) (hat : c'.At sys key) : Sound sys key c' := by
  refine ⟨hwritten, hgot, ?_, fun i th hth hkey => ?_, hat⟩
  · rw [h.jobs, hjobs, if_neg hleft.1, if_neg hleft.2]
  · rw [hhandler]
    exact h.turn i th hth hkey

variable [DefaultHasher]

/-- The rule for a step that starts a handler of the connection. -/
theorem start (h : Sound sys key c) (hj : j.key? = some key) (hwritten : c'.written <+: texts key sys.state.sent)
    (hgot : c'.phase.Live → c'.rx.taken = c'.written ∧ (c'.rx.missed = 0 → c'.rx.got = texts key sys.state.sent))
    (hjobs : (jobsOf key c'.read ++ if c'.phase = .left then [.disconnect key] else []) =
      (jobsOf key c.read ++ if c.phase = .left then [.disconnect key] else []) ++ [j])
    (hturn : ∀ i th, sys.threads[i]? = some th → th.job.key? = some key →
      th.done = true ∨ c'.handler = some i ∨ th.job = .disconnect key)
    (hnew : c'.handler = some sys.threads.length ∨ j = .disconnect key)
    (hat : c'.At (sys.step Job.code Server.act (.spawn j)) key) :
    Sound (sys.step Job.code Server.act (.spawn j)) key c' := by
  refine ⟨hwritten, hgot, ?_, fun i th hth hkey => ?_, hat⟩
  · show ((sys.threads ++ [_]).map Thread.job).filter _ = _
    rw [List.map_append, List.filter_append, h.jobs, hjobs, List.map_singleton,
      List.filter_cons_of_pos (by simpa using hj), List.filter_nil]
  · rcases Pool.getElem?_spawn hth with hth | ⟨rfl, rfl⟩
    · exact hturn i th hth hkey
    · exact .inr hnew

/-- The rule for a step that starts a handler of another connection, or a sweep. -/
theorem spawn (h : Sound sys key c) (hj : j.key? ≠ some key) :
    Sound (sys.step Job.code Server.act (.spawn j)) key c := by
  have hold {th : Thread Op.Ans Job} (hth : th ∈ (sys.step Job.code Server.act (.spawn j)).threads)
      (hkey : th.job.key? = some key) : th ∈ sys.threads := by
    rcases List.mem_append.1 hth with hth | hth
    · exact hth
    · rw [List.mem_singleton.1 hth] at hkey
      exact absurd hkey hj
  refine ⟨h.written, h.got, ?_, fun i th hth hkey => ?_, ?_⟩
  · show ((sys.threads ++ [_]).map Thread.job).filter _ = _
    rw [List.map_append, List.filter_append, h.jobs, List.map_singleton,
      List.filter_cons_of_neg (by simpa using hj), List.filter_nil, List.append_nil]
  · rcases Pool.getElem?_spawn hth with hth | ⟨-, rfl⟩
    · exact h.turn i th hth hkey
    · exact absurd hkey hj
  · have hat := h.phase
    unfold At at hat ⊢
    cases hphase : c.phase with
    | waiting pinged => rwa [hphase] at hat
    | verifying token =>
      rw [hphase] at hat
      obtain ⟨pre, text, hread, hpre, htoken, ⟨i, th, hi, hth, hjob⟩, honly⟩ := hat
      refine ⟨pre, text, hread, hpre, htoken, ⟨i, th, hi, ?_, hjob⟩, fun k th' hth' hkey => ?_⟩
      · exact (List.getElem?_append_left (List.getElem?_eq_some_iff.1 hth).1).trans hth
      · rcases Pool.getElem?_spawn hth' with hth' | ⟨-, rfl⟩
        · exact honly k th' hth' hkey
        · exact absurd hkey hj
    | serving | left =>
      rw [hphase] at hat
      exact ⟨hat.1, fun th hth msg hmsg => hat.2 th (hold hth (by rw [hmsg]; rfl)) msg hmsg⟩
    | refused message =>
      rw [hphase] at hat
      exact fun th hth hkey => hat th (hold hth hkey) hkey

theorem resume (h : Sound sys key c) (capacity i : Nat) (e : Env) {sent : List (SessionKey × ServerMessage)}
    (hsent : (sys.step Job.code Server.act (.resume i e)).state.sent = sys.state.sent ++ sent) :
    Sound (sys.step Job.code Server.act (.resume i e)) key (deliver capacity sent key c) := by
  have hsame : (deliver capacity sent key c).phase = c.phase ∧ (deliver capacity sent key c).handler = c.handler ∧
      (deliver capacity sent key c).read = c.read ∧ (deliver capacity sent key c).written = c.written := by
    unfold deliver
    split <;> exact ⟨rfl, rfl, rfl, rfl⟩
  obtain ⟨hphase, hhandler, hread, hwritten⟩ := hsame
  have hdone {th' : Thread Op.Ans Job} (hth' : th' ∈ (sys.step Job.code Server.act (.resume i e)).threads) :
      ∃ th ∈ sys.threads, th.job = th'.job ∧ (th.done = true → th' = th) := by
    obtain ⟨k, hk⟩ := List.mem_iff_getElem?.1 hth'
    obtain ⟨th, hth, hjob, hcase⟩ := Pool.getElem?_resume hk
    refine ⟨th, List.mem_of_getElem? hth, hjob, fun hd => hcase.elim id fun hn => ?_⟩
    rw [hd] at hn
    cases hn.2
  constructor
  · rw [hwritten, hsent, texts_append]
    exact h.written.trans (List.prefix_append _ _)
  · intro hlive
    rw [hphase] at hlive
    obtain ⟨htaken, hgot⟩ := h.got hlive
    have hrx : (deliver capacity sent key c).rx = (texts key sent).foldl (Receiver.push · capacity) c.rx := by
      rw [deliver, if_pos hlive]
    rw [hrx, hwritten, Receiver.taken_pushes]
    refine ⟨htaken, fun hm => ?_⟩
    obtain ⟨hmissed, hpushed⟩ := Receiver.got_pushes hm
    rw [hpushed, hgot hmissed, hsent, texts_append]
  · rw [Pool.map_job_resume, h.jobs, hread, hphase]
  · intro k th' hth' hkey
    obtain ⟨th, hth, hjob, hcase⟩ := Pool.getElem?_resume hth'
    rw [hhandler]
    rcases hcase with rfl | ⟨-, hnot⟩
    · exact h.turn k th' hth hkey
    · rcases h.turn k th hth (by rw [hjob]; exact hkey) with hd | hrest
      · rw [hd] at hnot
        cases hnot
      · rw [← hjob]
        exact .inr hrest
  · have hat := h.phase
    unfold At at hat ⊢
    rw [hphase, hread, hhandler]
    cases hc : c.phase with
    | waiting pinged => rwa [hc] at hat
    | verifying token =>
      rw [hc] at hat
      obtain ⟨pre, text, hread, hpre, htoken, ⟨k, th, hk, hth, hjob⟩, honly⟩ := hat
      obtain ⟨th', hth', hjob', -⟩ := Pool.exists_resume hth
      refine ⟨pre, text, hread, hpre, htoken, ⟨k, th', hk, hth', hjob'.trans hjob⟩, fun m th' hth' hkey => ?_⟩
      obtain ⟨th, hth, hjob, -⟩ := Pool.getElem?_resume hth'
      exact honly m th hth (by rw [hjob]; exact hkey)
    | serving | left =>
      rw [hc] at hat
      refine ⟨hat.1, fun th' hth' msg hmsg => ?_⟩
      obtain ⟨th, hth, hjob, hcase⟩ := hdone hth'
      have hd := hat.2 th hth msg (hjob.trans hmsg)
      rw [hcase hd]
      exact hd
    | refused message =>
      rw [hc] at hat
      intro th' hth' hkey
      obtain ⟨th, hth, hjob, hcase⟩ := hdone hth'
      obtain ⟨hd, hins⟩ := hat th hth (by rw [hjob]; exact hkey)
      rw [hcase hd]
      exact ⟨hd, hins⟩

omit [DefaultHasher] in
theorem mem_jobs (h : Sound sys key c) {th : Thread Op.Ans Job} (hth : th ∈ sys.threads)
    (hkey : th.job.key? = some key) :
    th.job ∈ jobsOf key c.read ++ if c.phase = .left then [.disconnect key] else [] := by
  rw [← h.jobs]
  exact List.mem_filter.2 ⟨List.mem_map_of_mem hth, by simpa using hkey⟩

omit [DefaultHasher] in
theorem left_of_disconnect (h : Sound sys key c) {th : Thread Op.Ans Job} (hth : th ∈ sys.threads)
    (hjob : th.job = .disconnect key) : c.phase = .left := by
  have hmem := h.mem_jobs hth (by rw [hjob]; rfl)
  rw [hjob] at hmem
  by_contra hnot
  rw [if_neg hnot, List.append_nil] at hmem
  exact disconnect_not_mem_jobsOf key key c.read hmem

omit [DefaultHasher] in
/-- Who waits for the first message has started nothing. -/
theorem not_waiting (h : Sound sys key c) {th : Thread Op.Ans Job} (hth : th ∈ sys.threads)
    (hkey : th.job.key? = some key) (pinged : Bool) : c.phase ≠ .waiting pinged := by
  intro hphase
  have hmem := h.mem_jobs hth hkey
  have hread := h.phase
  unfold At at hread
  rw [hphase] at hread
  have hread : c.read = if pinged then [.ping] else [] := hread
  rw [hphase, hread] at hmem
  cases pinged <;> cases hmem

omit [DefaultHasher] in
theorem verifying_of_connect (h : Sound sys key c) {th : Thread Op.Ans Job} (hth : th ∈ sys.threads) {msg : String}
    (hjob : th.job = .connect key msg) (hdone : th.done = false) : ∃ token, c.phase = .verifying token := by
  have hkey : th.job.key? = some key := by rw [hjob]; rfl
  have hat := h.phase
  unfold At at hat
  cases hphase : c.phase with
  | waiting pinged => exact absurd hphase (h.not_waiting hth hkey pinged)
  | verifying token => exact ⟨token, rfl⟩
  | serving | left =>
    rw [hphase] at hat
    rw [hat.2 th hth msg hjob] at hdone
    cases hdone
  | refused message =>
    rw [hphase] at hat
    rw [(hat th hth hkey).1] at hdone
    cases hdone

omit [DefaultHasher] in
theorem opened (h : Sound sys key c) (hc : c.phase = .serving) : Opened c.read := by
  have hat := h.phase
  unfold At at hat
  rw [hc] at hat
  exact hat.1

omit [DefaultHasher] in
theorem admitted (h : Sound sys key c) (hc : c.phase = .serving) :
    ∀ th ∈ sys.threads, ∀ msg, th.job = .connect key msg → th.done = true := by
  have hat := h.phase
  unfold At at hat
  rw [hc] at hat
  exact hat.2

/-- A message is read. -/
theorem message (h : Sound sys key c) (hc : c.phase = .serving) {f : Incoming} (hj : textJob? key f = some j)
    (hidle : ∀ i ∈ c.handler, ∀ th ∈ sys.threads[i]?, th.done = true) :
    Sound (sys.step Job.code Server.act (.spawn j)) key
      { c with read := c.read ++ [f], handler := some sys.threads.length } := by
  have hjob : j.key? = some key ∧ ∀ msg, j ≠ .connect key msg := by
    cases f with
    | text text =>
      obtain ⟨msg, -, rfl⟩ := Option.map_eq_some_iff.1 hj
      exact ⟨rfl, nofun⟩
    | _ => cases hj
  refine h.start hjob.1 h.written (fun hl => h.got hl) ?_ (fun i th hth hkey => .inl ?_) (.inl rfl) ?_
  · simp only [jobsOf_append (h.opened hc), hj, hc, reduceCtorEq, if_false, List.append_nil, Option.toList_some]
  · rcases h.turn i th hth hkey with hdone | hi | hdisc
    · exact hdone
    · exact hidle i hi th hth
    · rw [h.left_of_disconnect (List.mem_of_getElem? hth) hdisc] at hc
      cases hc
  · unfold At
    simp only [hc]
    refine ⟨(h.opened hc).append f, fun th hth msg hmsg => ?_⟩
    rcases List.mem_append.1 hth with hth | hth
    · exact h.admitted hc th hth msg hmsg
    · rw [List.mem_singleton.1 hth] at hmsg
      exact absurd hmsg (hjob.2 msg)

/-- One of the loops ends. -/
theorem leave (h : Sound sys key c) (hc : c.phase = .serving) {read : List Incoming} (hread : Opened read)
    (hjobs : jobsOf key read = jobsOf key c.read) (rx : Receiver (List Char)) :
    Sound (sys.step Job.code Server.act (.spawn (.disconnect key))) key
      { c with phase := .left, read := read, rx := rx } := by
  refine h.start rfl h.written (fun hl => hl.elim) ?_ h.turn (.inr rfl) ⟨hread, fun th hth msg hmsg => ?_⟩
  · simp only [hjobs, hc, reduceCtorEq, if_false, if_true, List.append_nil]
  · rcases List.mem_append.1 hth with hth | hth
    · exact h.admitted hc th hth msg hmsg
    · rw [List.mem_singleton.1 hth] at hmsg
      cases hmsg

omit [DefaultHasher] in
/-- A frame that starts nothing is read. -/
theorem skip (h : Sound sys key c) (hc : c.phase = .serving) {f : Incoming} (hf : textJob? key f = none) :
    Sound sys key { c with read := c.read ++ [f] } := by
  have hleft : c.phase ≠ .left := by rw [hc]; nofun
  refine h.set h.written (fun hl => h.got hl) ?_ ⟨hleft, hleft⟩ rfl ?_
  · simp only [jobsOf_append (h.opened hc), hf, Option.toList_none, List.append_nil]
  · unfold At
    simp only [hc]
    exact ⟨(h.opened hc).append f, h.admitted hc⟩

omit [DefaultHasher] in
/-- A text is written. -/
theorem write (h : Sound sys key c) (hc : c.phase = .serving) (hm : c.rx.missed = 0) {text : List Char}
    {texts' : List (List Char)} (hw : c.rx.waiting = text :: texts') :
    Sound sys key { c with rx := c.rx.recv, written := c.written ++ [text] } := by
  have hleft : c.phase ≠ .left := by rw [hc]; nofun
  obtain ⟨htaken, hgot⟩ := h.got (by rw [hc]; trivial)
  have hrecv : c.rx.recv.taken = c.written ++ [text] := by
    unfold Receiver.recv
    rw [hw, htaken]
  have hall : c.written ++ text :: texts' = texts key sys.state.sent := by
    rw [← hgot hm, Receiver.got, htaken, hw]
  refine h.set ?_ (fun _ => ⟨hrecv, fun _ => ?_⟩) rfl ⟨hleft, hleft⟩ rfl h.phase
  · rw [← hall]
    exact ⟨texts', by simp⟩
  · rw [Receiver.got_recv]
    exact hgot hm

omit [DefaultHasher] in
theorem read_of_waiting (h : Sound sys key c) {pinged : Bool} (hc : c.phase = .waiting pinged) :
    c.read = [] ∨ c.read = [.ping] := by
  have hat := h.phase
  unfold At at hat
  rw [hc] at hat
  cases pinged
  · exact .inl hat
  · exact .inr hat

omit [DefaultHasher] in
theorem jobsOf_waiting (h : Sound sys key c) {pinged : Bool} (hc : c.phase = .waiting pinged) :
    jobsOf key c.read = [] := by
  rcases h.read_of_waiting hc with hread | hread <;> rw [hread] <;> rfl

/-- The first text has a token. -/
theorem first (h : Sound sys key c) {pinged : Bool} (hc : c.phase = .waiting pinged) {text : List Char}
    {token : AuthToken} (htoken : authResult (.ofList text) = some token) :
    Sound (sys.step Job.code Server.act (.spawn (.connect key (.ofList text)))) key
      { c with
        phase := .verifying token, read := c.read ++ [.text text], handler := some sys.threads.length } := by
  have hnone {i : Nat} {th : Thread Op.Ans Job} (hth : sys.threads[i]? = some th) (hkey : th.job.key? = some key) :
      False := h.not_waiting (List.mem_of_getElem? hth) hkey pinged hc
  have hread := h.read_of_waiting hc
  have hsome : (authResult (.ofList text)).isSome = true := by rw [htoken]; rfl
  refine h.start rfl h.written (fun _ => h.got (by rw [hc]; trivial)) ?_
    (fun i th hth hkey => (hnone hth hkey).elim) (.inl rfl) ?_
  · simp only [jobsOf_opened hread hsome, h.jobsOf_waiting hc, hc, reduceCtorEq, if_false, List.append_nil,
      List.filterMap_nil, List.nil_append]
  · refine ⟨c.read, text, rfl, hread, htoken,
      ⟨sys.threads.length, ⟨_, (Job.connect key (.ofList text)).code, []⟩, rfl, ?_, rfl⟩, fun i th hth hkey => ?_⟩
    · exact List.getElem?_concat_length
    · rcases Pool.getElem?_spawn hth with hth | ⟨rfl, -⟩
      · exact (hnone hth hkey).elim
      · rfl

omit [DefaultHasher] in
/-- The first frame is no token. -/
theorem refuse (h : Sound sys key c) {pinged : Bool} (hc : c.phase = .waiting pinged) {read : List Incoming}
    (hread : jobsOf key read = []) (message : Option String) :
    Sound sys key { c with phase := .refused message, read := read } := by
  refine h.set h.written (fun hl => hl.elim) (hread.trans (h.jobsOf_waiting hc).symm) ⟨by rw [hc]; nofun, nofun⟩ rfl ?_
  exact fun th hth hkey => absurd hc (h.not_waiting hth hkey pinged)

omit [DefaultHasher] in
theorem pinged (h : Sound sys key c) (hc : c.phase = .waiting false) :
    Sound sys key { c with phase := .waiting true, read := c.read ++ [.ping] } := by
  have hread : c.read = [] := by
    have hat := h.phase
    unfold At at hat
    rw [hc] at hat
    exact hat
  refine h.set h.written (fun _ => h.got (by rw [hc]; trivial)) ?_ ⟨by rw [hc]; nofun, nofun⟩ rfl ?_
  · rw [hread]
    rfl
  · unfold At
    rw [hread]
    rfl

end Sound
end Connection

end XVideoDownloader
