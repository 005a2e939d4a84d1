import XVideoDownloader.Messages

/-!
# Sessions of one device

`register_client` evicts the sessions of its device and inserts its own in two critical sections, and
`update_session` gives a session any device id at all. Whether a device has one session is decided at these
insertions and updates alone: none may take a device id that the session of another connection has.
-/

namespace XVideoDownloader
open Lib MessageHandler

/-- The calls that connections make on the sessions. -/
inductive SessionJob
  | registerClient (key : SessionKey) (deviceId teamId : Uuid)
  | updateSession (key : SessionKey) (deviceId teamId : Uuid)
  | unregisterClientByKey (key : SessionKey)

def SessionJob.code : SessionJob → M Unit
  | registerClient key deviceId teamId => MessageHandler.registerClient key deviceId teamId
  | updateSession key deviceId teamId => call (.updateSession key deviceId teamId)
  | unregisterClientByKey key => call (.removeSession key)

/-- Sessions of one device, if it is not the nil device, are one. -/
def Server.OneSession (s : Server) : Prop :=
  ∀ x ∈ s.sessions.rows, ∀ y ∈ s.sessions.rows, x.deviceId = y.deviceId → x.deviceId ≠ Uuid.nil → x = y

instance (s : Server) : Decidable s.OneSession := inferInstanceAs (Decidable (∀ x ∈ s.sessions.rows, _))

/-- No session but that of `key` is one of the device. -/
def Server.FreeFor (s : Server) (key : SessionKey) (deviceId : Uuid) : Prop :=
  deviceId ≠ Uuid.nil → ∀ x ∈ s.sessions.rows, x.deviceId = deviceId → x.key = key

instance (s : Server) (key : SessionKey) (deviceId : Uuid) : Decidable (s.FreeFor key deviceId) :=
  inferInstanceAs (Decidable (_ → _))

/-- An operation that gives a session a device id finds it free. -/
def Server.TakesFree (s : Server) : Op → Prop
  | .insertSession key deviceId _ => s.FreeFor key deviceId
  | .updateSession key deviceId _ => s.session key ≠ none → s.FreeFor key deviceId
  | _ => True

instance (s : Server) : DecidablePred s.TakesFree := fun o => by
  unfold Server.TakesFree
  split <;> infer_instance

namespace Server
variable {s : Server} {key : SessionKey}

theorem OneSession.of_subset {s' : Server} (h : s.OneSession) (hs : s'.sessions.rows ⊆ s.sessions.rows) :
    s'.OneSession :=
  fun x hx y hy => h x (hs hx) y (hs hy)

theorem OneSession.of_map {s' : Server} {f : Session → Session} (h : s.OneSession)
    (hs : s'.sessions.rows = s.sessions.rows.map f) (hf : ∀ x ∈ s.sessions.rows, (f x).deviceId = x.deviceId) :
    s'.OneSession := by
  intro x' hx' y' hy' he hne
  rw [hs] at hx' hy'
  obtain ⟨x, hx, rfl⟩ := List.mem_map.1 hx'
  obtain ⟨y, hy, rfl⟩ := List.mem_map.1 hy'
  rw [hf x hx] at he hne
  rw [hf y hy] at he
  rw [h x hx y hy he hne]

/-- The sessions of other connections stay, and the one of `key` is now of the device. -/
theorem oneSession_of_taken {s' : Server} {deviceId : Uuid} (teamId : Uuid) (h : s.OneSession)
    (hs : ∀ x, x ∈ s'.sessions.rows ↔ x ∈ s.sessions.rows ∧ x.key ≠ key ∨ x = ⟨key, deviceId, teamId⟩) :
    s'.OneSession ↔ s.FreeFor key deviceId := by
  constructor
  · intro h' hne x hx hxd
    by_contra hxk
    have he : x = ⟨key, deviceId, teamId⟩ :=
      h' x ((hs x).2 (Or.inl ⟨hx, hxk⟩)) _ ((hs _).2 (Or.inr rfl)) hxd (hxd ▸ hne)
    exact hxk (congrArg Session.key he)
  · intro hfree x hx y hy he hne
    rcases (hs x).1 hx with ⟨hx, hxk⟩ | rfl
    · rcases (hs y).1 hy with ⟨hy, -⟩ | rfl
      · exact h x hx y hy he hne
      · have hxd : x.deviceId = deviceId := he
        exact absurd (hfree (hxd ▸ hne) x hx hxd) hxk
    · rcases (hs y).1 hy with ⟨hy, hyk⟩ | rfl
      · exact absurd (hfree hne y hy he.symm) hyk
      · rfl

/-- Two sessions that a message to a device goes to are one. -/
theorem OneSession.posts_le_one (h : s.OneSession) {deviceId : Uuid} (hne : deviceId ≠ Uuid.nil)
    (message : ServerMessage) : (s.posts (.sendToDevice deviceId message)).length ≤ 1 := by
  have hnodup : (s.sessions.rows.filter fun x => x.deviceId = deviceId).Nodup := by
    refine (s.sessions.unique.imp fun {a b} hab he => ?_).filter _
    exact hab (congrArg Session.key he)
  show ((s.sessions.rows.filter fun x => x.deviceId = deviceId).map _).length ≤ 1
  rw [List.length_map]
  rcases hl : s.sessions.rows.filter (fun x => x.deviceId = deviceId) with _ | ⟨x, _ | ⟨y, l⟩⟩
  · rw [hl]
    exact Nat.zero_le 1
  · rw [hl]
    exact Nat.le_refl 1
  · have hmem : ∀ z ∈ x :: y :: l, z ∈ s.sessions.rows ∧ z.deviceId = deviceId := by
      intro z hz
      rw [← hl] at hz
      simpa using hz
    obtain ⟨hx, hxd⟩ := hmem x List.mem_cons_self
    obtain ⟨hy, hyd⟩ := hmem y (List.mem_cons_of_mem x List.mem_cons_self)
    have hxy : x = y := h x hx y hy (hxd.trans hyd.symm) (hxd ▸ hne)
    rw [hl, hxy] at hnodup
    simp at hnodup

end Server

section
variable [DefaultHasher]

/-- One operation: a device keeps its one session exactly if the operation takes a free device id. -/
theorem act_oneSession (o : Op) (e : Env) (s : Server) (h : s.OneSession) :
    (s.act o e).2.OneSession ↔ s.TakesFree o := by
  cases o with
  | insertSession key deviceId teamId =>
    refine Server.oneSession_of_taken teamId h fun x => ?_
    show x ∈ s.sessions.rows.filter _ ++ [_] ↔ _
    simp
  | updateSession key deviceId teamId =>
    have hrows : (s.act (.updateSession key deviceId teamId) e).2.sessions.rows = s.sessions.rows.map fun x =>
        if x.key = key then { x with deviceId := deviceId, teamId := teamId } else x := rfl
    cases hs : s.session key with
    | none =>
      have hno : ∀ x ∈ s.sessions.rows, x.key ≠ key := fun x hx hk => by
        rw [Server.session_eq_some.2 ⟨hx, hk⟩] at hs
        cases hs
      refine iff_of_true (h.of_map hrows fun x hx => ?_) fun hsome => absurd hs hsome
      rw [if_neg (hno x hx)]
    | some x₀ =>
      obtain ⟨hx₀, hk₀⟩ := Server.session_eq_some.1 hs
      have htakes : s.TakesFree (.updateSession key deviceId teamId) ↔ s.FreeFor key deviceId := by
        show (s.session key ≠ none → _) ↔ _
        simp [hs]
      rw [htakes]
      refine Server.oneSession_of_taken teamId h fun x => ?_
      rw [hrows, List.mem_map]
      constructor
      · rintro ⟨y, hy, rfl⟩
        split
        · rename_i hk
          subst hk
          exact Or.inr rfl
        · exact Or.inl ⟨hy, ‹_›⟩
      · rintro (⟨hx, hk⟩ | rfl)
        · exact ⟨x, hx, if_neg hk⟩
        · subst hk₀
          exact ⟨x₀, hx₀, if_pos rfl⟩
  | setTeam key teamId =>
    refine iff_of_true (h.of_map rfl fun x _ => ?_) trivial
    split <;> rfl
  | evictDevice deviceId => exact iff_of_true (h.of_subset List.filter_sublist.subset) trivial
  | removeSession key => exact iff_of_true (h.of_subset List.filter_sublist.subset) trivial
  | _ => exact iff_of_true h trivial

/-- The calls `as` of connections, each making its way lock by lock, with none under way at first. -/
abbrev Server.sessionRun (s : Server) (as : List (Step SessionJob Env)) : Pool Op.Ans SessionJob Server :=
  Pool.run SessionJob.code Server.act ⟨s, []⟩ as

abbrev Server.sessionTrace (s : Server) (as : List (Step SessionJob Env)) :
    List (Pool Op.Ans SessionJob Server × Step SessionJob Env) :=
  Pool.trace SessionJob.code Server.act ⟨s, []⟩ as

/-- At every moment of a run a device has one session at most, and what is sent to it reaches one connection at most,
exactly if every operation of the run that gives a session a device id finds it free. -/
theorem one_session_iff (s : Server) (hs : s.OneSession) (as : List (Step SessionJob Env)) :
    (∀ as₁ as₂, as = as₁ ++ as₂ → (s.sessionRun as₁).state.OneSession ∧
      ∀ deviceId ≠ Uuid.nil, ∀ message,
        ((s.sessionRun as₁).state.posts (.sendToDevice deviceId message)).length ≤ 1) ↔
      ∀ y ∈ s.sessionTrace as, ∀ x ∈ y.1.issued y.2, y.1.state.TakesFree x.op := by
  have hposts : ∀ s : Server, s.OneSession ∧ (∀ deviceId ≠ Uuid.nil, ∀ message,
      (s.posts (.sendToDevice deviceId message)).length ≤ 1) ↔ s.OneSession :=
    fun s => ⟨fun h => h.1, fun h => ⟨h, fun _ hne message => h.posts_le_one hne message⟩⟩
  simp only [hposts]
  exact Pool.always_iff act_oneSession hs as

/-- So it is in a run of all that the server does. -/
theorem one_session_of_handlers [AuthDeps] (s : Server) (hs : s.OneSession) (as : List (Step Job Env)) :
    (∀ as₁ as₂, as = as₁ ++ as₂ → (s.run as₁).state.OneSession) ↔
      ∀ y ∈ s.trace as, ∀ x ∈ y.1.issued y.2, y.1.state.TakesFree x.op :=
  Pool.always_iff act_oneSession hs as

end

namespace Sample

def advance (i n : Nat) : List (Step SessionJob Env) := List.replicate n (.resume i ⟨0, "", 0, none⟩)

/-- Device 1 comes back on a second connection, which registers it again, and then the first one ends. -/
def comesBack : List (Step SessionJob Env) :=
  [.spawn (.registerClient 103 1 10)] ++ advance 0 2 ++ [.spawn (.registerClient 104 1 10)] ++ advance 1 2 ++
    [.spawn (.updateSession 104 1 11)] ++ advance 2 1 ++ [.spawn (.unregisterClientByKey 103)] ++ advance 3 1

theorem one_session_comesBack :
    ((Server.new true).sessionRun comesBack).state.sessions.rows = [⟨104, 1, 11⟩] ∧
      ∀ deviceId ≠ Uuid.nil, ∀ message,
        (((Server.new true).sessionRun comesBack).state.posts (.sendToDevice deviceId message)).length ≤ 1 :=
  ⟨by decide +kernel,
    ((one_session_iff (Server.new true) (fun _ h => absurd h List.not_mem_nil) comesBack).2 (by decide +kernel)
      comesBack [] (List.append_nil _).symm).2⟩

/-- Two connections of device 1 register, and both evict before either inserts. -/
def registerAtOnce : List (Step SessionJob Env) :=
  [.spawn (.registerClient 103 1 10), .spawn (.registerClient 104 1 10)] ++
    advance 0 1 ++ advance 1 1 ++ advance 0 1 ++ advance 1 1

/-- The connection of device 2 sends a `Register` with the id of device 1. -/
def takesOver : List (Step SessionJob Env) :=
  [.spawn (.registerClient 103 1 10)] ++ advance 0 2 ++ [.spawn (.registerClient 104 2 10)] ++ advance 1 2 ++
    [.spawn (.updateSession 104 1 10)] ++ advance 2 1

/-- Either way, when all calls have returned, a message to device 1 reaches two connections. -/
theorem two_sessions :
    ((∀ th ∈ ((Server.new true).sessionRun registerAtOnce).threads, th.prog = .ret ()) ∧
      ¬ ((Server.new true).sessionRun registerAtOnce).state.OneSession ∧
      (((Server.new true).sessionRun registerAtOnce).state.posts (.sendToDevice 1 (.registered 1))).map (·.1.key) =
        [103, 104]) ∧
    (∀ th ∈ ((Server.new true).sessionRun takesOver).threads, th.prog = .ret ()) ∧
      ¬ ((Server.new true).sessionRun takesOver).state.OneSession ∧
      (((Server.new true).sessionRun takesOver).state.posts (.sendToDevice 1 (.registered 1))).map (·.1.key) =
        [103, 104] := by
  refine ⟨⟨?_, by decide +kernel, by decide +kernel⟩, ?_, by decide +kernel, by decide +kernel⟩
  · exact List.forall_mem_cons.2 ⟨rfl, List.forall_mem_singleton.2 rfl⟩
  · exact List.forall_mem_cons.2 ⟨rfl, List.forall_mem_cons.2 ⟨rfl, List.forall_mem_singleton.2 rfl⟩⟩

end Sample

end XVideoDownloader
