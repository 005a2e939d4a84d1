import Mathlib.Data.List.Basic

/-!
# Broadcast channels

A `Broadcast μ` is any number of channels and the receivers of all of them. What is sent on a channel waits for each
of its receivers, the last `capacity` messages at most; older ones are lost to a receiver that has not taken them.
A receiver that has lost nothing has got what was sent while it was there, each message once and in order
(`got_push`, `got_recv`).
-/

namespace Lib
variable {μ : Type}

theorem forall_mem_modify {p : μ → Prop} {f : μ → μ} {l : List μ} (i : Nat) (h : ∀ x ∈ l, p x ∧ p (f x)) :
    ∀ x ∈ l.modify i f, p x := by
  intro x hx
  obtain ⟨j, hj⟩ := List.mem_iff_getElem?.1 hx
  rw [List.getElem?_modify] at hj
  obtain ⟨y, hy, rfl⟩ := Option.map_eq_some_iff.1 hj
  have hmem := h y (List.mem_of_getElem? hy)
  split
  · exact hmem.2
  · exact hmem.1

structure Receiver (μ : Type) where
  channel : Nat
  taken : List μ
  waiting : List μ
  missed : Nat
  deriving DecidableEq

namespace Receiver
variable (r : Receiver μ)

def push (capacity : Nat) (m : μ) : Receiver μ :=
  if r.waiting.length < capacity then { r with waiting := r.waiting ++ [m] }
  else { r with waiting := (r.waiting ++ [m]).tail, missed := r.missed + 1 }

def recv : Receiver μ :=
  match r.waiting with
  | [] => r
  | m :: ms => { r with taken := r.taken ++ [m], waiting := ms }

/-- What it has taken, and what it will take. -/
def got : List μ := r.taken ++ r.waiting

/-- The message comes last, unless one was lost to make room. -/
theorem got_push {capacity : Nat} {m : μ} (h : (r.push capacity m).missed = 0) :
    r.missed = 0 ∧ (r.push capacity m).got = r.got ++ [m] := by
  unfold push at h ⊢
  split at h
  · rename_i hc
    rw [if_pos hc]
    exact ⟨h, (List.append_assoc ..).symm⟩
  · exact absurd h (Nat.succ_ne_zero _)

@[simp] theorem channel_push (capacity : Nat) (m : μ) : (r.push capacity m).channel = r.channel := by
  unfold push
  split <;> rfl

@[simp] theorem taken_push (capacity : Nat) (m : μ) : (r.push capacity m).taken = r.taken := by
  unfold push
  split <;> rfl

variable {r} in
/-- What is sent is got, each message once and in order, if none was lost. -/
theorem got_pushes {capacity : Nat} {ms : List μ} (h : (ms.foldl (push · capacity) r).missed = 0) :
    r.missed = 0 ∧ (ms.foldl (push · capacity) r).got = r.got ++ ms := by
  induction ms generalizing r with
  | nil => exact ⟨h, (List.append_nil _).symm⟩
  | cons m ms ih =>
    obtain ⟨hm, hgot⟩ := ih h
    obtain ⟨hr, hgot'⟩ := r.got_push hm
    exact ⟨hr, by rw [List.foldl_cons, hgot, hgot', List.append_assoc, List.singleton_append]⟩

variable {r} in
theorem taken_pushes (capacity : Nat) (ms : List μ) : (ms.foldl (push · capacity) r).taken = r.taken := by
  induction ms generalizing r with
  | nil => rfl
  | cons m ms ih => rw [List.foldl_cons, ih, taken_push]

@[simp] theorem channel_recv : r.recv.channel = r.channel := by
  unfold recv
  split <;> rfl

@[simp] theorem missed_recv : r.recv.missed = r.missed := by
  unfold recv
  split <;> rfl

@[simp] theorem got_recv : r.recv.got = r.got := by
  unfold recv
  split
  · rfl
  · rename_i m ms hw
    simp only [got, hw, List.append_assoc, List.singleton_append]

end Receiver

structure Broadcast (μ : Type) where
  /-- How many there are; they are numbered from 0. -/
  channels : Nat
  receivers : List (Receiver μ)
  deriving DecidableEq

namespace Broadcast

def empty : Broadcast μ := ⟨0, []⟩

variable (b : Broadcast μ)

/-- A new channel, which nobody receives from yet. -/
def channel : Nat × Broadcast μ := (b.channels, { b with channels := b.channels + 1 })

def send (capacity c : Nat) (m : μ) : Broadcast μ :=
  { b with receivers := b.receivers.map fun r => if r.channel = c then r.push capacity m else r }

def subscribe (c : Nat) : Broadcast μ := { b with receivers := b.receivers ++ [⟨c, [], [], 0⟩] }

def recv (j : Nat) : Broadcast μ := { b with receivers := b.receivers.modify j Receiver.recv }

/-- From `b` to `b'`, the receiver `r` stays where it is, and `ms` is what is sent on its channel. -/
def Delivered (b b' : Broadcast μ) (j : Nat) (r : Receiver μ) (ms : List μ) : Prop :=
  b.receivers[j]? = some r → ∃ r', b'.receivers[j]? = some r' ∧ r'.channel = r.channel ∧
    (r'.missed = 0 → r.missed = 0 ∧ r'.got = r.got ++ ms)

variable {b} {b' : Broadcast μ} {j : Nat} {r : Receiver μ}

theorem Delivered.refl : Delivered b b j r [] :=
  fun h => ⟨r, h, rfl, fun hm => ⟨hm, (List.append_nil _).symm⟩⟩

theorem Delivered.trans {b'' : Broadcast μ} {ms ms' : List μ} (h : Delivered b b' j r ms)
    (h' : ∀ r' : Receiver μ, r'.channel = r.channel → Delivered b' b'' j r' ms') : Delivered b b'' j r (ms ++ ms') := by
  intro hr
  obtain ⟨r₁, hr₁, hc₁, h₁⟩ := h hr
  obtain ⟨r₂, hr₂, hc₂, h₂⟩ := h' r₁ hc₁ hr₁
  refine ⟨r₂, hr₂, hc₂.trans hc₁, fun hm => ?_⟩
  obtain ⟨hm₁, hgot₂⟩ := h₂ hm
  obtain ⟨hm₀, hgot₁⟩ := h₁ hm₁
  exact ⟨hm₀, by rw [hgot₂, hgot₁, List.append_assoc]⟩

theorem delivered_channel : Delivered b b.channel.2 j r [] := Delivered.refl

theorem delivered_subscribe (c : Nat) : Delivered b (b.subscribe c) j r [] := by
  intro h
  refine ⟨r, ?_, rfl, fun hm => ⟨hm, (List.append_nil _).symm⟩⟩
  show (b.receivers ++ [_])[j]? = some r
  rw [List.getElem?_append_left (List.getElem?_eq_some_iff.1 h).1]
  exact h

theorem delivered_recv (i : Nat) : Delivered b (b.recv i) j r [] := by
  intro h
  by_cases hi : i = j
  · refine ⟨r.recv, ?_, r.channel_recv, fun hm => ⟨r.missed_recv ▸ hm, ?_⟩⟩
    · show (b.receivers.modify i Receiver.recv)[j]? = some r.recv
      rw [hi, List.getElem?_modify_eq, h]
      rfl
    · rw [r.got_recv, List.append_nil]
  · refine ⟨r, ?_, rfl, fun hm => ⟨hm, (List.append_nil _).symm⟩⟩
    show (b.receivers.modify i Receiver.recv)[j]? = some r
    rw [List.getElem?_modify_ne _ _ hi]
    exact h

/-- Only the receivers of the channel get what is sent on it. -/
theorem delivered_send (capacity c : Nat) (m : μ) :
    Delivered b (b.send capacity c m) j r (if r.channel = c then [m] else []) := by
  intro h
  refine ⟨if r.channel = c then r.push capacity m else r, ?_, ?_, ?_⟩
  · show (b.receivers.map _)[j]? = _
    rw [List.getElem?_map, h]
    rfl
  · split
    · exact r.channel_push capacity m
    · rfl
  · split
    · exact fun hm => r.got_push hm
    · exact fun hm => ⟨hm, (List.append_nil _).symm⟩

end Broadcast

end Lib
