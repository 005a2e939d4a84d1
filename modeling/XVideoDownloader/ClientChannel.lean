import XVideoDownloader.Types
import XVideoDownloader.Lib.Broadcast

/-!
# The message channels of the client (`client/ws.rs`)

`connect` creates the broadcast channel that `subscribe` listens to, and each connection creates one of its own, to
which its reading loop sends what it reads. A receiver gets what the loops of its channel read (`received`); no
loop's channel is the client's (`Separate`), so a subscriber gets nothing (`messages_delivered_iff`).

Of the writing half only what a connection needs to be established is here: whether the token and the `Register`
message can be sent. The pauses between two attempts are left out.
-/

namespace XVideoDownloader
open Lib

/-- `serde_json::from_str::<ServerMessage>`. -/
class ServerMessageText where
  fromStr : String → Option ServerMessage

/-- What `read.next()` yields while the socket is open. -/
inductive Frame
  | text (text : String)
  | other
  | error
  deriving DecidableEq

/-- How far the connection to the server gets, and the error that stops it. -/
inductive Handshake
  | refused (e : String)
  | tokenNotSent (e : String)
  | registerNotSent (e : String)
  | established
  deriving DecidableEq

/-- The reading loop of a connection, with the channel that it captured. -/
structure ReadLoop where
  msgTx : Nat
  running : Bool
  deriving DecidableEq

/-- The client and what it shares with its tasks. -/
structure CollaborationClient where
  msgTx : Nat
  state : Nat
  /-- Whether a failure callback is set, and how often it was called. -/
  onFailure : Bool
  failures : Nat
  channels : Broadcast ServerMessage
  readLoops : List ReadLoop
  deriving DecidableEq

namespace CollaborationClient

def channelCapacity : Nat := 100

def maxReconnectAttempts : Nat := 10

def initWsConnectionWithReceiver (c : CollaborationClient) : Handshake → Except String Unit × CollaborationClient
  | .refused e | .tokenNotSent e => (.error e, c)
  | .registerNotSent e => (.error e, { c with channels := c.channels.channel.2 })
  | .established =>
    let (msgTx, channels) := c.channels.channel
    (.ok (), { c with channels := channels, readLoops := c.readLoops ++ [⟨msgTx, true⟩], state := 2 })

def connect (h : Handshake) : Except String CollaborationClient :=
  let (msgTx, channels) := Broadcast.empty.channel
  let client : CollaborationClient := ⟨msgTx, 1, false, 0, channels, []⟩
  match client.initWsConnectionWithReceiver h with
  | (.ok (), client) => .ok client
  | (.error e, _) => .error e

/-- One round of the loop of `reconnect`. -/
def attempt (c : CollaborationClient) (attempt : Nat) (h : Handshake) : Except String Unit × CollaborationClient :=
  { c with state := 4 + attempt }.initWsConnectionWithReceiver h

def giveUp (c : CollaborationClient) : CollaborationClient :=
  { c with state := 3, failures := c.failures + if c.onFailure then 1 else 0 }

/-- The loop of `reconnect`, with `left` rounds to come. -/
def reconnectLoop (hs : Nat → Handshake) : Nat → CollaborationClient → Except String Unit × CollaborationClient
  | 0, c => (.error "达到最大重连次数", c.giveUp)
  | left + 1, c =>
    match c.attempt (maxReconnectAttempts - left) (hs (maxReconnectAttempts - left)) with
    | (.ok (), c) => (.ok (), c)
    | (.error _, c) => reconnectLoop hs left c

def reconnect (c : CollaborationClient) (hs : Nat → Handshake) : Except String Unit × CollaborationClient :=
  reconnectLoop hs maxReconnectAttempts c

def onConnectionFailed (c : CollaborationClient) : CollaborationClient := { c with onFailure := true }

def subscribe (c : CollaborationClient) : CollaborationClient :=
  { c with channels := c.channels.subscribe c.msgTx }

variable [ServerMessageText]

/-- The message that a loop reads, and the channel of the loop. -/
def message? (c : CollaborationClient) (i : Nat) : Frame → Option (Nat × ServerMessage)
  | .text text =>
    match c.readLoops[i]? with
    | some ⟨msgTx, true⟩ => (ServerMessageText.fromStr text).map fun m => (msgTx, m)
    | _ => none
  | _ => none

/-- A round of the reading loop `i`. -/
def read (c : CollaborationClient) (i : Nat) (f : Frame) : CollaborationClient :=
  match c.message? i f with
  | some (msgTx, m) => { c with channels := c.channels.send channelCapacity msgTx m }
  | none => c

/-- The socket of the reading loop `i` is closed, and the loop ends. -/
def close (c : CollaborationClient) (i : Nat) : CollaborationClient :=
  { c with readLoops := c.readLoops.modify i fun l => { l with running := false } }

/-- What happens to a client, one thing at a time; the rounds of a `reconnect` may lie between other events. -/
inductive Event
  | attempt (n : Nat) (h : Handshake)
  | giveUp
  | onConnectionFailed
  | subscribe
  | read (i : Nat) (f : Frame)
  | close (i : Nat)
  | recv (j : Nat)
  deriving DecidableEq

def step (c : CollaborationClient) : Event → CollaborationClient
  | .attempt n h => (c.attempt n h).2
  | .giveUp => c.giveUp
  | .onConnectionFailed => c.onConnectionFailed
  | .subscribe => c.subscribe
  | .read i f => c.read i f
  | .close i => c.close i
  | .recv j => { c with channels := c.channels.recv j }

def run (c : CollaborationClient) (as : List Event) : CollaborationClient := as.foldl step c

theorem run_append (c : CollaborationClient) (as bs : List Event) : c.run (as ++ bs) = (c.run as).run bs :=
  List.foldl_append

/-- A `reconnect` is a run of its rounds. -/
theorem reconnectLoop_eq_run (hs : Nat → Handshake) (left : Nat) (c : CollaborationClient) :
    ∃ as : List Event, (∀ a ∈ as, a = .giveUp ∨ ∃ n, a = .attempt n (hs n)) ∧
      (reconnectLoop hs left c).2 = c.run as := by
  induction left generalizing c with
  | zero => exact ⟨[.giveUp], List.forall_mem_singleton.2 (Or.inl rfl), rfl⟩
  | succ left ih =>
    unfold reconnectLoop
    generalize maxReconnectAttempts - left = n
    have hround : c.run [.attempt n (hs n)] = (c.attempt n (hs n)).2 := rfl
    split
    · rename_i c' hc'
      refine ⟨[.attempt n (hs n)], List.forall_mem_singleton.2 (Or.inr ⟨n, rfl⟩), ?_⟩
      rw [hround, hc']
    · rename_i e c' hc'
      obtain ⟨as, has, hrun⟩ := ih c'
      refine ⟨.attempt n (hs n) :: as, List.forall_mem_cons.2 ⟨Or.inr ⟨n, rfl⟩, has⟩, ?_⟩
      rw [hrun, ← List.singleton_append, run_append, hround, hc']

/-! ### What a receiver gets -/

/-- The message that an event reads, and the channel of the loop that reads it. -/
def hears (c : CollaborationClient) : Event → Option (Nat × ServerMessage)
  | .read i f => c.message? i f
  | _ => none

/-- The messages that are read from the sockets, in order. -/
def heard (c : CollaborationClient) : List Event → List (Nat × ServerMessage)
  | [] => []
  | a :: as => (c.hears a).toList ++ (c.step a).heard as

/-- Those that go to one channel. -/
def onChannel (channel : Nat) (l : List (Nat × ServerMessage)) : List ServerMessage :=
  (l.filter fun x => x.1 = channel).map Prod.snd

omit [ServerMessageText] in
theorem onChannel_append (channel : Nat) (l l' : List (Nat × ServerMessage)) :
    onChannel channel (l ++ l') = onChannel channel l ++ onChannel channel l' := by
  simp only [onChannel, List.filter_append, List.map_append]

variable {c : CollaborationClient} {j : Nat} {r : Receiver ServerMessage}

omit [ServerMessageText] in
theorem channels_attempt (c : CollaborationClient) (n : Nat) (h : Handshake) :
    (c.attempt n h).2.channels = c.channels ∨ (c.attempt n h).2.channels = c.channels.channel.2 := by
  cases h with
  | refused | tokenNotSent => exact Or.inl rfl
  | registerNotSent | established => exact Or.inr rfl

theorem received_step (c : CollaborationClient) (a : Event) :
    Broadcast.Delivered c.channels (c.step a).channels j r (onChannel r.channel (c.hears a).toList) := by
  cases a with
  | attempt n h =>
    show Broadcast.Delivered _ (c.attempt n h).2.channels _ _ []
    rcases c.channels_attempt n h with h | h
    · rw [h]
      exact .refl
    · rw [h]
      exact Broadcast.delivered_channel
  | giveUp | onConnectionFailed | close => exact .refl
  | subscribe => exact Broadcast.delivered_subscribe c.msgTx
  | recv i => exact Broadcast.delivered_recv i
  | read i f =>
    show Broadcast.Delivered _ (c.read i f).channels _ _ (onChannel _ (c.message? i f).toList)
    unfold read
    split
    · rename_i msgTx m hm
      have hon : onChannel r.channel (some (msgTx, m)).toList = if r.channel = msgTx then [m] else [] := by
        by_cases hc : msgTx = r.channel
        · simp [onChannel, hc]
        · simp [onChannel, hc, Ne.symm hc]
      rw [hm, hon]
      exact Broadcast.delivered_send channelCapacity msgTx m
    · rename_i hm
      rw [hm]
      exact .refl

/-- A receiver that has missed nothing gets what the loops of its channel read, each message once and in order. -/
theorem received (c : CollaborationClient) (as : List Event) (r : Receiver ServerMessage) :
    Broadcast.Delivered c.channels (c.run as).channels j r (onChannel r.channel (c.heard as)) := by
  induction as generalizing c r with
  | nil => exact .refl
  | cons a as ih =>
    show Broadcast.Delivered _ _ _ _ (onChannel _ ((c.hears a).toList ++ (c.step a).heard as))
    rw [onChannel_append]
    refine (c.received_step a).trans fun r' hr' => ?_
    rw [← hr']
    exact ih (c.step a) r'

/-! ### What a subscriber gets -/

/-- The subscribers are on the client's channel, which no loop sends to. -/
structure Separate (c : CollaborationClient) : Prop where
  created : c.msgTx < c.channels.channels
  loops : ∀ l ∈ c.readLoops, l.msgTx ≠ c.msgTx
  subscribers : ∀ r ∈ c.channels.receivers, r.channel = c.msgTx ∧ r.missed = 0

theorem message?_eq_some {i : Nat} {f : Frame} {x : Nat × ServerMessage} (h : c.message? i f = some x) :
    ∃ l ∈ c.readLoops, l.msgTx = x.1 := by
  unfold message? at h
  split at h
  · split at h
    · rename_i msgTx hl
      obtain ⟨m, -, rfl⟩ := Option.map_eq_some_iff.1 h
      exact ⟨_, List.mem_of_getElem? hl, rfl⟩
    · cases h
  · cases h

omit [ServerMessageText] in
theorem Separate.attempt (h : c.Separate) (n : Nat) (hs : Handshake) :
    (c.attempt n hs).2.Separate ∧ (c.attempt n hs).2.msgTx = c.msgTx := by
  cases hs with
  | refused | tokenNotSent => exact ⟨⟨h.created, h.loops, h.subscribers⟩, rfl⟩
  | registerNotSent => exact ⟨⟨Nat.lt_succ_of_lt h.created, h.loops, h.subscribers⟩, rfl⟩
  | established =>
    refine ⟨⟨Nat.lt_succ_of_lt h.created, ?_, h.subscribers⟩, rfl⟩
    -- the new loop has a channel that did not exist before
    refine List.forall_mem_append.2 ⟨h.loops, List.forall_mem_singleton.2 ?_⟩
    exact Nat.ne_of_gt h.created

theorem Separate.step (h : c.Separate) (a : Event) : (c.step a).Separate ∧ (c.step a).msgTx = c.msgTx := by
  cases a with
  | attempt n hs => exact h.attempt n hs
  | giveUp | onConnectionFailed => exact ⟨⟨h.created, h.loops, h.subscribers⟩, rfl⟩
  | subscribe =>
    refine ⟨⟨h.created, h.loops, ?_⟩, rfl⟩
    exact List.forall_mem_append.2 ⟨h.subscribers, List.forall_mem_singleton.2 ⟨rfl, rfl⟩⟩
  | close i =>
    refine ⟨⟨h.created, forall_mem_modify i fun l hl => ?_, h.subscribers⟩, rfl⟩
    exact ⟨h.loops l hl, h.loops l hl⟩
  | recv j =>
    refine ⟨⟨h.created, h.loops, forall_mem_modify j fun r hr => ⟨h.subscribers r hr, ?_⟩⟩, rfl⟩
    rw [r.channel_recv, r.missed_recv]
    exact h.subscribers r hr
  | read i f =>
    show (c.read i f).Separate ∧ (c.read i f).msgTx = c.msgTx
    unfold read
    split
    · rename_i msgTx m hm
      obtain ⟨l, hl, hmsgTx⟩ := message?_eq_some hm
      have hne : msgTx ≠ c.msgTx := fun he => h.loops l hl (hmsgTx.trans he)
      refine ⟨⟨h.created, h.loops, ?_⟩, rfl⟩
      refine List.forall_mem_map.2 fun r hr => ?_
      rw [if_neg fun he => hne (he.symm.trans (h.subscribers r hr).1)]
      exact h.subscribers r hr
    · exact ⟨h, rfl⟩

theorem Separate.run (h : c.Separate) (as : List Event) : (c.run as).Separate ∧ (c.run as).msgTx = c.msgTx := by
  induction as generalizing c with
  | nil => exact ⟨h, rfl⟩
  | cons a as ih =>
    obtain ⟨hstep, hmsgTx⟩ := h.step a
    obtain ⟨hrun, hrest⟩ := ih hstep
    exact ⟨hrun, hrest.trans hmsgTx⟩

/-- Nothing that is read goes to the client's channel. -/
theorem Separate.heard (h : c.Separate) (as : List Event) : onChannel c.msgTx (c.heard as) = [] := by
  induction as generalizing c with
  | nil => rfl
  | cons a as ih =>
    obtain ⟨hstep, hmsgTx⟩ := h.step a
    show onChannel _ ((c.hears a).toList ++ (c.step a).heard as) = []
    rw [onChannel_append, ← hmsgTx, ih hstep, List.append_nil, hmsgTx]
    cases hx : c.hears a with
    | none => rfl
    | some x =>
      cases a with
      | read i f =>
        obtain ⟨l, hl, hlx⟩ := message?_eq_some hx
        have hne : x.1 ≠ c.msgTx := fun he => h.loops l hl (hlx.trans he)
        simp [onChannel, hne]
      | _ => cases hx

omit [ServerMessageText] in
theorem Separate.of_connect {h : Handshake} (hc : connect h = .ok c) : c.Separate := by
  cases h with
  | established =>
    cases hc
    refine ⟨by decide, List.forall_mem_singleton.2 (by decide), fun r hr => absurd hr List.not_mem_nil⟩
  | _ => cases hc

/-- Each receiver that has missed nothing has got what was read since it subscribed, each message once and in order. -/
def Delivers (c : CollaborationClient) (as : List Event) : Prop :=
  ∀ as₁ as₂, as = as₁ ++ .subscribe :: as₂ →
    ∀ r, (c.run as).channels.receivers[(c.run as₁).channels.receivers.length]? = some r → r.missed = 0 →
      r.got = ((c.run as₁).subscribe.heard as₂).map Prod.snd

/-- From a connection on, in whatever way it is renewed: the messages that are read are delivered exactly if none is
read after a `subscribe`. -/
theorem messages_delivered_iff (h : Handshake) (c : CollaborationClient) (hc : connect h = .ok c) (as : List Event) :
    c.Delivers as ↔ ∀ as₁ as₂, as = as₁ ++ .subscribe :: as₂ → (c.run as₁).subscribe.heard as₂ = [] := by
  have hgot : ∀ as₁ as₂, as = as₁ ++ .subscribe :: as₂ →
      ∃ r, (c.run as).channels.receivers[(c.run as₁).channels.receivers.length]? = some r ∧ r.missed = 0 ∧
        r.got = [] := by
    rintro as₁ as₂ rfl
    obtain ⟨hsub, hmsgTx⟩ := ((Separate.of_connect hc).run as₁).1.step .subscribe
    have hnew : ((c.run as₁).step .subscribe).channels.receivers[(c.run as₁).channels.receivers.length]? =
        some ⟨(c.run as₁).msgTx, [], [], 0⟩ := List.getElem?_concat_length ..
    obtain ⟨r, hr, -, hmissed⟩ := received ((c.run as₁).step .subscribe) as₂ _ hnew
    have hrun : c.run (as₁ ++ .subscribe :: as₂) = ((c.run as₁).step .subscribe).run as₂ := run_append c as₁ _
    have h0 := ((hsub.run as₂).1.subscribers r (List.mem_of_getElem? hr)).2
    refine ⟨r, hrun ▸ hr, h0, ?_⟩
    rw [(hmissed h0).2, ← hmsgTx, hsub.heard as₂]
    rfl
  constructor
  · intro hdel as₁ as₂ has
    obtain ⟨r, hr, hm, hr0⟩ := hgot as₁ as₂ has
    exact List.map_eq_nil_iff.1 ((hdel as₁ as₂ has r hr hm).symm.trans hr0)
  · intro hno as₁ as₂ has r hr _
    obtain ⟨r', hr', -, hr0⟩ := hgot as₁ as₂ has
    rw [hno as₁ as₂ has, Option.some.inj (hr.symm.trans hr'), hr0]
    rfl

end CollaborationClient

namespace Sample
open CollaborationClient

scoped instance messageText : ServerMessageText where
  fromStr text := if text = "registered" then some (.registered 1) else none

/-- The client, with its first connection. -/
def opened : CollaborationClient := ⟨0, 2, false, 0, ⟨2, []⟩, [⟨1, true⟩]⟩

def readsFirst : List Event := [.read 0 (.text "registered"), .subscribe, .read 0 (.text "")]

theorem messages_delivered_readsFirst : opened.Delivers readsFirst := by
  refine (messages_delivered_iff .established opened rfl readsFirst).2 fun as₁ as₂ has => ?_
  rcases as₁ with _ | ⟨a, _ | ⟨b, _ | ⟨d, as₁⟩⟩⟩
  · cases has
  · cases has
    rfl
  · cases has
  · have := congrArg List.length has
    simp [readsFirst] at this

def subscribesFirst : List Event := [.subscribe, .read 0 (.text "registered"), .recv 0]

/-- One message is read while there is a subscriber, and nothing is there for the subscriber. -/
theorem not_delivered_subscribesFirst :
    connect .established = .ok opened ∧
      opened.heard subscribesFirst = [(1, .registered 1)] ∧
      (opened.run subscribesFirst).channels.receivers = [⟨0, [], [], 0⟩] ∧ ¬ opened.Delivers subscribesFirst := by
  refine ⟨rfl, by decide, by decide, fun h => ?_⟩
  have hgot := h [] _ rfl ⟨0, [], [], 0⟩ (by decide) rfl
  revert hgot
  decide

end Sample

end XVideoDownloader
