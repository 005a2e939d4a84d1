import XVideoDownloader.Conduct
import XVideoDownloader.Sweep

/-!
# Only what is stored is announced

`Honest` says it of the calls that a job makes: what a message says is stored when it is sent, and of a write
that fails nothing is said at all. Claims, reports, completions and the sweep are honest whatever fails. The
assignment of a new task is not when its `update_task` fails, whose result nobody looks at; and entering a team
is not unless the device was a member before, since the row that is written for it is not the device's.
-/

namespace XVideoDownloader
open Lib MessageHandler

/-- The `devices` table knows the device as a member of the team. -/
def Server.Member (s : Server) (deviceId teamId : Uuid) : Prop :=
  ∃ r ∈ s.db.devices.rows, r.id = deviceId ∧ r.teamId = teamId

/-- What the message tells the session is stored now. -/
def Holds (s : Server) (x : Session) : ServerMessage → Prop
  | .taskAdded task | .taskUpdated task => task ∈ s.tasks
  | .taskClaimed taskId deviceId =>
    ∃ r ∈ s.tasks, r.id = taskId ∧ r.status = .claimed ∧ r.claimedBy = some deviceId
  | .taskReleased taskId _ => ∃ r ∈ s.tasks, r.id = taskId ∧ r.status = .queued ∧ r.claimedBy = none
  | .teamCreated team | .teamJoined team => s.Member x.deviceId team.id
  | _ => True

/-- The operation writes what the message tells. -/
def Op.About : Op → ServerMessage → Prop
  | .createTask task _, m | .updateTask task _, m => m.taskId? = some task.id
  | .releaseTask taskId, m => m.taskId? = some taskId
  | .createTeam _, m => m.entered? ≠ none
  | .registerDevice device, m => ∃ team, m.entered? = some team ∧ team.id = device.teamId
  | _, _ => False

section
variable [DefaultHasher]

structure Honest (l : Calls) : Prop where
  holds : ∀ c ∈ l, ∀ p ∈ c.state.posts c.op, Holds c.state p.1 p.2
  silent : ∀ c ∈ l, failed c → ∀ c' ∈ l, ∀ p ∈ c'.state.posts c'.op, ¬ c.op.About p.2

namespace Honest
variable {l l' : Calls} {c : Prog.Made Op Env Server}

theorem nil : Honest [] := ⟨fun _ hc => absurd hc List.not_mem_nil, fun _ hc => absurd hc List.not_mem_nil⟩

theorem append (h : Honest l) (h' : Honest l')
    (hl : ∀ c ∈ l, ∀ c' ∈ l', (∀ p ∈ c'.state.posts c'.op, ¬ c.op.About p.2) ∧
      ∀ p ∈ c.state.posts c.op, ¬ c'.op.About p.2) : Honest (l ++ l') := by
  constructor
  · intro c hc
    rcases List.mem_append.1 hc with hc | hc
    · exact h.holds c hc
    · exact h'.holds c hc
  · intro c hc hf c' hc'
    rcases List.mem_append.1 hc with hc | hc <;> rcases List.mem_append.1 hc' with hc' | hc'
    · exact h.silent c hc hf c' hc'
    · exact (hl c hc c' hc').1
    · exact (hl c' hc' c hc).2
    · exact h'.silent c hc hf c' hc'

/-- A call that sends nothing and does not fail as a write does not matter. -/
theorem cons_iff (hp : c.state.posts c.op = []) (hf : failed c = false) : Honest (c :: l) ↔ Honest l := by
  constructor
  · intro h
    exact ⟨fun c' hc' => h.holds c' (List.mem_cons_of_mem _ hc'), fun c' hc' hf' c'' hc'' =>
      h.silent c' (List.mem_cons_of_mem _ hc') hf' c'' (List.mem_cons_of_mem _ hc'')⟩
  · intro h
    have hnil : ∀ p, p ∉ c.state.posts c.op := fun p hp' => by
      rw [hp] at hp'
      cases hp'
    constructor
    · rw [List.forall_mem_cons]
      exact ⟨fun p hp' => absurd hp' (hnil p), h.holds⟩
    · rw [List.forall_mem_cons]
      constructor
      · intro hf'
        rw [hf] at hf'
        cases hf'
      · intro c' hc' hf'
        rw [List.forall_mem_cons]
        exact ⟨fun p hp' => absurd hp' (hnil p), h.silent c' hc' hf'⟩

theorem of_plain (h : ∀ c ∈ l, c.op.Plain) : Honest l := by
  have hholds : ∀ (s : Server) (x : Session) (m : ServerMessage), m.taskId? = none → m.entered? = none →
      Holds s x m := by
    intro s x m ht he
    cases m <;> trivial
  have habout : ∀ (o : Op) (m : ServerMessage), m.taskId? = none → m.entered? = none → ¬ o.About m := by
    intro o m ht he ha
    cases o <;> simp [Op.About, ht, he] at ha
  constructor
  · intro c hc p hp
    obtain ⟨ht, he⟩ := h c hc _ p hp
    exact hholds _ _ _ ht he
  · intro c _ _ c' hc' p hp
    obtain ⟨ht, he⟩ := h c' hc' _ p hp
    exact habout _ _ ht he

theorem of_holds (hf : ∀ c ∈ l, failed c = false) (h : ∀ c ∈ l, ∀ p ∈ c.state.posts c.op, Holds c.state p.1 p.2) :
    Honest l := by
  refine ⟨h, ?_⟩
  intro c hc hf'
  rw [hf c hc] at hf'
  cases hf'

end Honest

/-! ### Adding a task -/

variable {s : Server} {x : Session}

theorem Honest.read_append {l l' : Calls} (hl : l.Read s) : Honest (l ++ l') ↔ Honest l' := by
  induction l with
  | nil => rfl
  | cons c l ih =>
    rw [Calls.Read, List.forall_mem_cons] at hl
    rw [List.cons_append, Honest.cons_iff (Op.posts_of_reads hl.1.2 _) (failed_of_reads hl.1.2)]
    exact ih hl.2

theorem not_failed_updateTask {task : Task} {teamId : Uuid} {e : Env} (hf : e.fail = none) :
    failed ⟨s, .updateTask task teamId, e⟩ = false :=
  congrArg (Op.failed (.updateTask task teamId)) (act_updateTask_ok.2 hf)

theorem holds_broadcast {teamId : Uuid} {message : ServerMessage} {e : Env} (hf : ∀ y, Holds s y message) :
    Honest [⟨s, .broadcastToTeam teamId message, e⟩] := by
  refine .of_holds (by simp [failed, Op.failed]) ?_
  rw [List.forall_mem_singleton]
  intro p hp
  rw [(Server.mem_addressed.1 hp).2.2]
  exact hf _

/-- The two messages about an assignment say what is stored if and only if it was. -/
theorem honest_assigned {task claimed : Task} {ownerId : Uuid} {now : Time} {e e' e'' : Env} {s' s'' : Server}
    (hx : x ∈ s.sessions.rows) (hmem : task ∈ s.tasks) (hq : task.claimedBy = none)
    (ht : claimed = { task with status := .claimed, claimedBy := some ownerId, claimedAt := some now })
    (hs : s' = (s.act (.updateTask claimed x.teamId) e).2)
    (hs' : s'' = (s'.act (.sendToDevice ownerId (.taskClaimed task.id ownerId)) e').2) :
    Honest [⟨s, .updateTask claimed x.teamId, e⟩, ⟨s', .sendToDevice ownerId (.taskClaimed task.id ownerId), e'⟩,
      ⟨s'', .broadcastToTeam x.teamId (.taskAdded claimed), e''⟩] ↔ e.fail = none := by
  have hsame := Task.sameIdentity_assigned ht
  have htasks := s.tasks_updateTask e claimed x.teamId
  rw [← hs] at htasks
  have htasks' : s''.tasks = s'.tasks := by
    rw [hs']
    rfl
  constructor
  · intro h
    by_contra hf
    rw [if_neg hf] at htasks
    have hx' : x ∈ s''.sessions.rows := by
      rw [hs', hs]
      exact hx
    have hpost : (x, ServerMessage.taskAdded claimed) ∈ s''.posts (.broadcastToTeam x.teamId (.taskAdded claimed)) :=
      Server.mem_addressed.2 ⟨hx', decide_eq_true rfl, rfl⟩
    have hstored : claimed ∈ s''.tasks :=
      h.holds ⟨s'', .broadcastToTeam x.teamId (.taskAdded claimed), e''⟩ (by simp) _ hpost
    rw [htasks', htasks] at hstored
    have heq : task = claimed := Server.eq_of_id hmem hstored hsame.id
    rw [heq, ht] at hq
    cases hq
  · intro hf
    rw [if_pos hf] at htasks
    have hstored : claimed ∈ s'.tasks := by
      rw [htasks]
      exact List.mem_map.2 ⟨task, hmem, by rw [if_pos hsame.id, Task.overwrite_eq hsame]⟩
    rw [Honest.cons_iff rfl (not_failed_updateTask hf)]
    refine .of_holds (by simp [failed, Op.failed]) ?_
    rw [List.forall_mem_cons, List.forall_mem_singleton]
    constructor
    · intro p hp
      rw [(Server.mem_addressed.1 hp).2.2]
      refine ⟨claimed, hstored, hsame.id.symm, ?_⟩
      rw [ht]
      exact ⟨rfl, rfl⟩
    · intro p hp
      rw [(Server.mem_addressed.1 hp).2.2]
      rw [← htasks'] at hstored
      exact hstored

theorem honest_adds {ω : Stream' Env} {task : Task} {l : Calls} (hx : x ∈ s.sessions.rows)
    (hteam : task.teamId = x.teamId) (hq : task.claimedBy = none)
    (h : Adds s x ω task (s.act (.createTask task x.teamId) (ω.get 2)) l) :
    Honest l ↔ ((s.db.createTask (ω.get 2).fail task x.teamId).1 = .ok () →
      s.hashRing.getOwner task.url ≠ none → (ω.get 5).fail = none) := by
  have hfail : (s.act (.createTask task x.teamId) (ω.get 2)).1 = .ok () →
      failed ⟨s, .createTask task x.teamId, ω.get 2⟩ = false :=
    fun hr => congrArg (Op.failed (.createTask task x.teamId)) hr
  have hmem : (s.act (.createTask task x.teamId) (ω.get 2)).1 = .ok () →
      task ∈ (s.act (.createTask task x.teamId) (ω.get 2)).2.tasks := by
    intro hr
    have hins := Database.createTask_eq_ok hr
    have heta : { task with teamId := x.teamId } = task := by rw [← hteam]
    rw [heta] at hins
    exact hins
  have hx' : x ∈ (s.act (.createTask task x.teamId) (ω.get 2)).2.sessions.rows := hx
  cases h with
  | refused hl hr hs =>
    constructor
    · intro _ hok
      cases hr.symm.trans hok
    · intro _
      exact .of_plain (Calls.Idle.refused hl hs _ _ _).plain
  | queued hl hl' hr ho =>
    rw [Honest.read_append hl, Honest.cons_iff rfl (hfail hr), Honest.read_append hl']
    constructor
    · intro _ _ hne
      exact absurd ho hne
    · intro _
      exact holds_broadcast fun _ => hmem hr
  | assigned hl hl' hr ho ht hs hs' =>
    rw [Honest.read_append hl, Honest.cons_iff rfl (hfail hr), Honest.read_append hl',
      honest_assigned hx' (hmem hr) hq ht hs hs']
    constructor
    · intro hf _ _
      exact hf
    · intro h
      exact h hr (by rw [ho]; simp)

/-- Whatever fails, a handler that stores a row and then tells the team is honest. -/
theorem honest_reports {teamId taskId : Uuid} {ready : Task → Prop} {new : Task → Task}
    {message : Task → ServerMessage} {e e' : Env} {l : Calls}
    (hnew : ∀ q ∈ s.tasks, q.id = taskId → q.SameIdentity (new q))
    (hm : ∀ (s' : Server) (y : Session), ∀ q ∈ s.tasks, q.id = taskId → new q ∈ s'.tasks → Holds s' y (message q))
    (h : Reports s teamId taskId ready new message e e' l) : Honest l := by
  rcases h with ⟨q, hq, hid, -, -, -, hr⟩ | ⟨hidle, -⟩
  · cases hr with
    | failed hl hf =>
      rw [Honest.read_append hl]
      refine .of_plain ?_
      rw [List.forall_mem_singleton]
      exact Op.plain_of_posts fun _ => rfl
    | stored hl hf =>
      have hsame := hnew q hq hid
      have hstored : new q ∈ (s.act (.updateTask (new q) teamId) e').2.tasks := by
        rw [Server.tasks_updateTask, if_pos hf]
        exact List.mem_map.2 ⟨q, hq, by rw [if_pos hsame.id, Task.overwrite_eq hsame]⟩
      rw [Honest.read_append hl, Honest.cons_iff rfl (not_failed_updateTask hf)]
      exact holds_broadcast fun y => hm _ y q hq hid hstored
  · exact .of_plain hidle.plain

/-! ### Entering a team -/

omit [DefaultHasher] in
theorem Database.referencesTeam_of_mem {db : Database} {team : Team} (h : team ∈ db.teams.rows) :
    db.referencesTeam team.id := by
  rw [referencesTeam, Bool.or_eq_true]
  exact .inr (List.any_eq_true.2 ⟨team, h, decide_eq_true rfl⟩)

omit [DefaultHasher] in
theorem Database.registerDevice_entering {db : Database} {team : Team} {name : String} {now : Time}
    {fail : Option String} (hr : db.referencesTeam team.id) :
    (db.registerDevice fail (.entering team name now)).1 = .ok () ↔ fail = none := by
  have hvalid : validateDevice (.entering team name now) = .ok () := rfl
  cases fail with
  | some e => simp [registerDevice, hvalid, execute]
  | none =>
    have hr' : db.referencesTeam (Device.entering team name now).teamId = true := hr
    have hup : ∃ db', db.upsertDevice (.entering team name now) = .ok ((), db') := by
      unfold upsertDevice
      cases db.devices.insert (.entering team name now) with
      | none => exact ⟨_, rfl⟩
      | some devices => exact ⟨_, if_pos hr'⟩
    obtain ⟨db', hup⟩ := hup
    simp only [registerDevice, hvalid, execute, hup]

omit [DefaultHasher] in
theorem holds_entered {message : ServerMessage} {team : Team} (he : message.entered? = some team) (y : Session) :
    Holds s y message ↔ s.Member y.deviceId team.id := by
  cases message <;> cases he <;> rfl

/-- What is sent is true if and only if the device was a member before; and then the row must be written. -/
theorem honest_enterTeam {key : SessionKey} {team : Team} {message : ServerMessage} (name : String)
    (ω : Stream' Env) (hx : s.session key = some x) (hr : s.db.referencesTeam team.id)
    (he : message.entered? = some team) :
    Honest ((enterTeam key team message name).calls Server.act ω s) ↔
      s.Member x.deviceId team.id ∧ (ω.get 4).fail = none := by
  obtain ⟨s₁, s₂, hs₁, hs₂, hcalls⟩ := calls_enterTeam hx team message name ω
  rw [hcalls, Honest.cons_iff rfl rfl, Honest.cons_iff rfl rfl]
  have hdb₁ : s₁.db = s.db := by rw [hs₁]; rfl
  have hdb₂ : s₂.db = s.db := by rw [hs₂]; exact hdb₁
  have hmember : ∀ d, s₁.Member d team.id ↔ s.Member d team.id := by
    intro d
    unfold Server.Member
    rw [hdb₁]
  have hreg : failed ⟨s₂, .registerDevice (.entering team name (ω.get 3).now), ω.get 4⟩ = false ↔
      (ω.get 4).fail = none := by
    have hwritten : (s.db.registerDevice (ω.get 4).fail (.entering team name (ω.get 3).now)).1 = .ok () ↔
        (ω.get 4).fail = none := Database.registerDevice_entering hr
    rw [← hwritten, ← hdb₂]
    show Op.failed (.registerDevice _) (s₂.db.registerDevice (ω.get 4).fail _).1 = false ↔ _
    cases (s₂.db.registerDevice (ω.get 4).fail (.entering team name (ω.get 3).now)).1 <;> simp [Op.failed]
  have hpost : ({ x with teamId := team.id }, message) ∈ s₁.posts (.sendToDevice x.deviceId message) := by
    rw [hs₁]
    exact mem_posts_setTeam hx team.id message (ω.get 1)
  constructor
  · intro h
    constructor
    · have hholds := h.holds ⟨s₁, .sendToDevice x.deviceId message, ω.get 2⟩ (by simp) _ hpost
      exact (hmember _).1 ((holds_entered he _).1 hholds)
    · by_contra hf
      have hfail := Bool.of_not_eq_false (mt hreg.1 hf)
      exact h.silent _ (by simp) hfail ⟨s₁, .sendToDevice x.deviceId message, ω.get 2⟩ (by simp) _ hpost
        ⟨team, he, rfl⟩
  · rintro ⟨hm, hf⟩
    apply Honest.of_holds
    · rw [List.forall_mem_cons, List.forall_mem_cons, List.forall_mem_singleton]
      exact ⟨rfl, rfl, hreg.2 hf⟩
    · rw [List.forall_mem_cons, List.forall_mem_cons, List.forall_mem_singleton]
      refine ⟨fun p hp => ?_, fun p hp => absurd hp List.not_mem_nil, fun p hp => absurd hp List.not_mem_nil⟩
      obtain ⟨-, hdev, hmsg⟩ := Server.mem_addressed.1 hp
      rw [hmsg]
      refine (holds_entered he _).2 ((hmember _).2 ?_)
      rw [of_decide_eq_true hdev]
      exact hm

/-! ### The sweep -/

/-- The task that the operation writes or tells of. -/
def Op.task? : Op → Option Uuid
  | .createTask task _ | .updateTask task _ => some task.id
  | .releaseTask taskId => some taskId
  | .sendToDevice _ message | .broadcastToTeam _ message => message.taskId?
  | _ => none

omit [DefaultHasher] in
theorem Op.task?_of_reads {o : Op} (h : o.reads) : o.task? = none := by
  cases o <;> first | rfl | cases h

/-- Honest calls that speak of no team that was entered, and only of tasks in `S`. -/
structure Clean (S : Uuid → Prop) (l : Calls) : Prop where
  honest : Honest l
  entered : ∀ c ∈ l, ∀ p ∈ c.state.posts c.op, p.2.entered? = none
  within : ∀ c ∈ l, ∀ id ∈ c.op.task?, S id

namespace Clean
variable {S S' : Uuid → Prop} {l l' : Calls}

omit [DefaultHasher] in
theorem about_task? {o o' : Op} {s : Server} {p : Session × ServerMessage} (hp : p ∈ s.posts o)
    (he : p.2.entered? = none) (ha : o'.About p.2) : ∃ id, o.task? = some id ∧ o'.task? = some id := by
  have hid : ∃ id, p.2.taskId? = some id ∧ o'.task? = some id := by
    cases o' <;> simp [Op.About, he] at ha <;> exact ⟨_, ha, rfl⟩
  obtain ⟨id, hid, ho'⟩ := hid
  refine ⟨id, ?_, ho'⟩
  cases o with
  | sendToDevice | broadcastToTeam =>
    rw [(Server.mem_addressed.1 hp).2.2] at hid
    exact hid
  | sendError =>
    rw [(Server.mem_addressed.1 hp).2.2] at hid
    cases hid
  | _ => cases hp

theorem append (h : Clean S l) (h' : Clean S' l') (hd : ∀ id, S id → ¬ S' id) :
    Clean (fun id => S id ∨ S' id) (l ++ l') := by
  refine ⟨h.honest.append h'.honest fun c hc c' hc' => ⟨?_, ?_⟩, ?_, ?_⟩
  · intro p hp ha
    obtain ⟨id, hid, hid'⟩ := about_task? hp (h'.entered c' hc' p hp) ha
    exact hd id (h.within c hc id hid') (h'.within c' hc' id hid)
  · intro p hp ha
    obtain ⟨id, hid, hid'⟩ := about_task? hp (h.entered c hc p hp) ha
    exact hd id (h.within c hc id hid) (h'.within c' hc' id hid')
  · rw [List.forall_mem_append]
    exact ⟨h.entered, h'.entered⟩
  · rw [List.forall_mem_append]
    exact ⟨fun c hc id hid => .inl (h.within c hc id hid), fun c hc id hid => .inr (h'.within c hc id hid)⟩

theorem mono (h : Clean S l) (hS : ∀ id, S id → S' id) : Clean S' l :=
  ⟨h.honest, h.entered, fun c hc id hid => hS id (h.within c hc id hid)⟩

theorem of_reads (hl : l.Read s) : Clean S l := by
  refine ⟨.of_plain (Calls.Idle.of_reads hl).plain, fun c hc p hp => ((Calls.Idle.of_reads hl).plain c hc _ p hp).2, ?_⟩
  intro c hc id hid
  rw [Op.task?_of_reads (hl c hc).2] at hid
  cases hid

theorem of_releases {teamId : Uuid} {q : Task} (hq : ∃ r ∈ s.tasks, r.id = q.id) (h : Releases s teamId q.id l) :
    Clean (fun id => q.id = id) l := by
  cases h with
  | skipped => exact ⟨.nil, fun _ hc => absurd hc List.not_mem_nil, fun _ hc => absurd hc List.not_mem_nil⟩
  | failed hf =>
    have hplain : (Op.releaseTask q.id).Plain := Op.plain_of_posts fun _ => rfl
    refine ⟨.of_plain (List.forall_mem_singleton.2 hplain), ?_, ?_⟩
    · exact List.forall_mem_singleton.2 fun p hp => absurd hp List.not_mem_nil
    · exact List.forall_mem_singleton.2 fun _ hid => Option.some.inj hid
  | released hf =>
    have hfail : failed ⟨s, .releaseTask q.id, _⟩ = false :=
      congrArg (Op.failed (.releaseTask q.id)) (act_releaseTask_ok.2 hf)
    refine ⟨(Honest.cons_iff rfl hfail).2 (holds_broadcast fun y => ?_), ?_, ?_⟩
    · obtain ⟨r, hr, hid⟩ := hq
      refine ⟨r.released, ?_, hid, rfl, rfl⟩
      rw [Server.tasks_releaseTask, if_pos hf]
      exact List.mem_map.2 ⟨r, hr, if_pos hid⟩
    · rw [List.forall_mem_cons, List.forall_mem_singleton]
      refine ⟨fun p hp => absurd hp List.not_mem_nil, fun p hp => ?_⟩
      rw [(Server.mem_addressed.1 hp).2.2]
      rfl
    · rw [List.forall_mem_cons, List.forall_mem_singleton]
      exact ⟨fun _ hid => Option.some.inj hid, fun _ hid => Option.some.inj hid⟩

end Clean

theorem clean_releaseAll (teamId : Uuid) (now : Time) {rest : List Task} (hd : rest.Pairwise fun q r => q.id ≠ r.id)
    (hst : ∀ q ∈ rest, q ∈ s.tasks) (ω : Stream' Env) :
    Clean (fun id => ∃ q ∈ rest, q.id = id) ((rest.forM (releaseOverdue teamId now)).calls Server.act ω s) := by
  induction rest generalizing s ω with
  | nil => exact .of_reads (s := s) fun _ hc => absurd hc List.not_mem_nil
  | cons q rest ih =>
    obtain ⟨hne, hd⟩ := List.pairwise_cons.1 hd
    rw [List.forall_mem_cons] at hst
    have hst' : ∀ p ∈ rest, p ∈ ((releaseOverdue teamId now q).exec Server.act ω s).2.2.tasks := by
      intro p hp
      rw [exec_releaseOverdue]
      split
      · exact List.mem_map.2 ⟨p, hst.2 p hp, if_neg (hne p hp).symm⟩
      · exact hst.2 p hp
    have hhead := Clean.of_releases ⟨q, hst.1, rfl⟩ (calls_releaseOverdue s teamId now q ω)
    rw [Prog.calls_forM_cons]
    refine (hhead.append (ih hd hst' _) ?_).mono ?_
    · rintro id rfl ⟨p, hp, hid⟩
      exact hne p hp hid.symm
    · rintro id (rfl | ⟨p, hp, rfl⟩)
      · exact ⟨q, List.mem_cons_self, rfl⟩
      · exact ⟨p, List.mem_cons_of_mem _ hp, rfl⟩

theorem clean_checkTaskTimeouts (teamId : Uuid) (ω : Stream' Env) (s : Server) :
    Clean (fun id => ∃ r ∈ s.tasks, r.id = id ∧ r.teamId = teamId)
      ((checkTaskTimeouts teamId).calls Server.act ω s) := by
  simp only [checkTaskTimeouts, call, Prog.calls_bind, Prog.calls_op, Prog.exec_op]
  have hs : (s.act (.getClaimedTasks teamId) ω.head).2 = s := rfl
  rw [hs]
  split
  · rename_i rows ha
    have hrows := Server.answer_getClaimedTasks ha.symm
    have hmem : ∀ q ∈ rows, q ∈ s.tasks ∧ q.teamId = teamId := by
      intro q hq
      rw [hrows, List.mem_filter, decide_eq_true_eq] at hq
      exact ⟨hq.1, hq.2.1⟩
    have hd : rows.Pairwise fun q r => q.id ≠ r.id := by
      rw [hrows]
      exact (s.db.tasks.unique.imp fun h hid => h (.inl hid)).filter _
    have hloop := clean_releaseAll teamId ω.tail.head.now hd (fun q hq => (hmem q hq).1) ω.tail.tail
    have hread : Calls.Read s [⟨s, .getClaimedTasks teamId, ω.head⟩, ⟨s, .now, ω.tail.head⟩] := .pair s rfl rfl _ _
    simp only [Prog.calls_bind, Prog.calls_op, Prog.exec_op]
    refine ((Clean.of_reads (S := fun _ => False) hread).append hloop fun _ h => h.elim).mono ?_
    rintro id (h | ⟨q, hq, rfl⟩)
    · exact h.elim
    · exact ⟨q, (hmem q hq).1, rfl, (hmem q hq).2⟩
  · exact .of_reads (.single s rfl _)

theorem clean_sweepTeams {teams : List Uuid} (hd : teams.Nodup) (ω : Stream' Env) (s : Server) :
    Clean (fun id => ∃ r ∈ s.tasks, r.id = id ∧ r.teamId ∈ teams)
      ((teams.forM checkTaskTimeouts).calls Server.act ω s) := by
  induction teams generalizing s ω with
  | nil => exact .of_reads (s := s) fun _ hc => absurd hc List.not_mem_nil
  | cons t teams ih =>
    obtain ⟨hnot, hd⟩ := List.nodup_cons.1 hd
    have ht : t ∈ [t] := List.mem_cons_self
    have hsw := (exec_checkTaskTimeouts ht ω s).1
    have hback : ∀ r' ∈ ((checkTaskTimeouts t).exec Server.act ω s).2.2.tasks,
        ∃ r ∈ s.tasks, r.id = r'.id ∧ r.teamId = r'.teamId := by
      intro r' hr'
      obtain ⟨r, hr, rfl | ⟨-, -, rfl⟩⟩ := hsw.backward r' hr'
      · exact ⟨r', hr, rfl, rfl⟩
      · exact ⟨r, hr, rfl, rfl⟩
    rw [Prog.calls_forM_cons]
    refine ((clean_checkTaskTimeouts t ω s).append (ih hd _ _) ?_).mono ?_
    · rintro _ ⟨r, hr, rfl, hteam⟩ ⟨r', hr', hid, hteam'⟩
      obtain ⟨r₀, hr₀, hid₀, hteam₀⟩ := hback r' hr'
      have heq : r₀ = r := Server.eq_of_id hr₀ hr (hid₀.trans hid)
      rw [← hteam₀, heq, hteam] at hteam'
      exact hnot hteam'
    · rintro id (⟨r, hr, hid, hteam⟩ | ⟨r', hr', hid, hteam⟩)
      · exact ⟨r, hr, hid, hteam ▸ List.mem_cons_self⟩
      · obtain ⟨r₀, hr₀, hid₀, hteam₀⟩ := hback r' hr'
        exact ⟨r₀, hr₀, hid₀.trans hid, hteam₀ ▸ List.mem_cons_of_mem _ hteam⟩

theorem honest_checkAllTaskTimeouts (ω : Stream' Env) (s : Server) :
    Honest (checkAllTaskTimeouts.calls Server.act ω s) := by
  simp only [checkAllTaskTimeouts, call, Prog.calls_bind, Prog.calls_op, Prog.exec_op]
  have hs : (s.act .getAllTeamIds ω.head).2 = s := rfl
  have hread : Calls.Read s [⟨s, .getAllTeamIds, ω.head⟩] := .single s rfl _
  rw [hs, Honest.read_append hread]
  split
  · rename_i teamIds ha
    have ha' : (s.db.getAllTeamIds ω.head.fail).1 = .ok teamIds := ha
    have hteams := Database.query_eq_ok ha'
    refine (clean_sweepTeams ?_ _ s).honest
    rw [hteams]
    exact List.nodup_dedup _
  · exact .nil

/-! ### Every job -/

/-- What is announced will be stored: an assignment by an `update_task` that does not fail, a membership that is
there before and whose row is written without failure. -/
def AnnouncesStored (s : Server) (ω : Stream' Env) : Job → Prop
  | .text key (.addTask url) => ∀ x, s.session key = some x →
    (s.db.createTask (ω.get 3).fail (.added (ω.get 1).uuid (ω.get 2).now url x) x.teamId).1 = .ok () →
      s.hashRing.getOwner url ≠ none → (ω.get 6).fail = none
  | .text key (.createTeam name) => ∀ x team, s.session key = some x →
    (s.db.createTeam (ω.get 1).fail (ω.get 1).uuid (ω.get 1).code (ω.get 1).now name).1 = .ok team →
      s.Member x.deviceId team.id ∧ (ω.get 6).fail = none
  | .text key (.joinTeam code) => ∀ x team, s.session key = some x →
    (s.db.getTeamByCode (ω.get 1).fail code).1 = .ok (some team) →
      s.Member x.deviceId team.id ∧ (ω.get 6).fail = none
  | _ => True

theorem honest_entry {ω : Stream' Env} {team : Team} {l : Calls} (hl : Entry s ω x team l) :
    Honest l ↔ s.Member x.deviceId team.id ∧ (ω.get 6).fail = none := by
  obtain @⟨c, c', s', key, message, name, hc, hf, hc', hf', hx, hdevices, hteam, he⟩ := hl
  rw [Honest.cons_iff hc hf, Honest.cons_iff hc' hf',
    honest_enterTeam name (ω.drop 2) hx (Database.referencesTeam_of_mem hteam) he]
  unfold Server.Member
  rw [hdevices]
  rfl

variable [AuthDeps]

theorem honest_of_entry {j : Job} {ω : Stream' Env}
    (h : (∃ x team, s.entry ω j = some (x, team) ∧ Entry s ω x team (s.calls (j, ω))) ∨
      s.entry ω j = none ∧ ∀ c ∈ s.calls (j, ω), c.op.Plain) :
    Honest (s.calls (j, ω)) ↔ ∀ x team, s.entry ω j = some (x, team) →
      s.Member x.deviceId team.id ∧ (ω.get 6).fail = none := by
  rcases h with ⟨x, team, hentry, hl⟩ | ⟨hentry, hplain⟩
  · rw [honest_entry hl]
    constructor
    · intro h x' team' hentry'
      cases hentry.symm.trans hentry'
      exact h
    · intro h
      exact h x team hentry
  · refine iff_of_true (.of_plain hplain) fun x team hentry' => ?_
    cases hentry.symm.trans hentry'

theorem honest_text {key : SessionKey} {msg : ClientMessage} {p : Session → M Unit}
    (hp : (Job.text key msg).code = do if let some session ← call (.getSession key) then p session)
    (ω : Stream' Env) :
    Honest (s.calls (.text key msg, ω)) ↔ ∀ x, s.session key = some x → Honest ((p x).calls Server.act ω.tail s) := by
  rw [Server.calls_text hp, Honest.cons_iff rfl rfl]
  cases hs : s.session key with
  | none => simp [Honest.nil]
  | some x => simp

/-- Of every job, on every server and whatever fails: it is honest if and only if what it announces will be
stored. -/
theorem honest_iff (s : Server) (j : Job) (ω : Stream' Env) : Honest (s.calls (j, ω)) ↔ AnnouncesStored s ω j := by
  have hplain : j.plain → Honest (s.calls (j, ω)) := fun hj => .of_plain (Server.calls_plain hj ω s)
  cases j with
  | connect | disconnect => exact iff_of_true (hplain rfl) trivial
  | sweep => exact iff_of_true (honest_checkAllTaskTimeouts ω s) trivial
  | text key msg =>
    cases msg with
    | register | heartbeat | requestFile | leaveTeam => exact iff_of_true (hplain rfl) trivial
    | createTeam name =>
      refine (honest_of_entry (entry_createTeam s key name ω)).trans (forall₂_congr fun x team => ?_)
      rw [entry_createTeam_eq_some, and_imp]
    | joinTeam code =>
      refine (honest_of_entry (entry_joinTeam s key code ω)).trans (forall₂_congr fun x team => ?_)
      rw [entry_joinTeam_eq_some, and_imp]
    | addTask url =>
      refine (honest_text (p := fun x => handleAddTask x.deviceId x.teamId url) rfl ω).trans ?_
      exact forall₂_congr fun x hx => honest_adds (Server.session_eq_some.1 hx).1 rfl rfl
        (calls_handleAddTask s x url ω.tail)
    | claimTask taskId =>
      refine iff_of_true ((honest_text
        (p := fun x => handleClaimTask x.deviceId x.teamId taskId) rfl ω).2 fun x _ => ?_) trivial
      refine honest_reports ?_ ?_ (calls_handleClaimTask s x.deviceId x.teamId taskId ω.tail)
      · intro q _ _
        exact ⟨rfl, rfl, rfl, rfl, rfl⟩
      · intro s' y q _ hid hq
        exact ⟨_, hq, hid, rfl, rfl⟩
    | updateProgress taskId progress =>
      refine iff_of_true ((honest_text
        (p := fun x => handleUpdateProgress x.deviceId x.teamId taskId progress) rfl ω).2 fun x _ => ?_) trivial
      refine honest_reports ?_ ?_ (calls_handleUpdateProgress s x.deviceId x.teamId taskId progress ω.tail)
      · intro q _ _
        exact ⟨rfl, rfl, rfl, rfl, rfl⟩
      · intro s' y q _ _ hq
        exact hq
    | taskComplete taskId localPath fileSize =>
      refine iff_of_true ((honest_text
        (p := fun x => handleTaskComplete x.deviceId x.teamId taskId localPath fileSize) rfl ω).2 fun x _ => ?_) trivial
      refine honest_reports ?_ ?_
        (calls_handleTaskComplete s x.deviceId x.teamId taskId localPath fileSize ω.tail)
      · intro q _ _
        exact ⟨rfl, rfl, rfl, rfl, rfl⟩
      · intro s' y q _ _ hq
        exact hq

end

namespace Sample

/-- The ring holds device 2. -/
def serverWithOwner : Server :=
  { server with hashRing := HashRing.new.addDevice ⟨2, 10, "two", none, none, 0, true⟩ }

/-- The seventh call fails. -/
def failingAssignment : Stream' Env := fun n => ⟨7, "", 0, if n = 6 then some "database is locked" else none⟩

theorem not_honest_createTeam : ¬ Honest (server.calls (.text 101 (.createTeam "a"), always 20 "edoc" 1000)) := by
  intro h
  have hentry : server.entry (always 20 "edoc" 1000) (.text 101 (.createTeam "a")) =
      some (⟨101, 1, 10⟩, ⟨20, "a", "edoc", 1000000000000⟩) := by decide
  have hmember := ((honest_of_entry (entry_createTeam server 101 "a" (always 20 "edoc" 1000))).1 h _ _ hentry).1
  exact absurd hmember (by unfold Server.Member; decide)

/-- The assignment is not stored, and announced; and device 1 is told to be in a team that it is no member of. -/
theorem not_honest_serverWithOwner :
    ¬ Honest (serverWithOwner.calls (.text 101 (.addTask "u"), failingAssignment)) ∧
      ¬ Honest (server.calls (.text 101 (.createTeam "a"), always 20 "edoc" 1000)) := by
  refine ⟨?_, not_honest_createTeam⟩
  intro h
  have hs : serverWithOwner.session 101 = some ⟨101, 1, 10⟩ := by decide
  have hadd := (honest_text (p := fun x => handleAddTask x.deviceId x.teamId "u") rfl _).1 h _ hs
  have hf := (honest_adds (Server.session_eq_some.1 hs).1 rfl rfl
    (calls_handleAddTask serverWithOwner ⟨101, 1, 10⟩ "u" failingAssignment.tail)).1 hadd (by decide) (by decide)
  exact absurd hf (by decide)

end Sample

end XVideoDownloader
