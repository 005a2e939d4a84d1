import XVideoDownloader.Assignment
import XVideoDownloader.Conduct
import XVideoDownloader.Identity
import XVideoDownloader.Lifecycle
import XVideoDownloader.NonInterference

/-!
# Leaving a team

`handle_leave_team` marks the device as offline and takes it off the hash ring; the session stays in the team. So
as long as the session is registered, leaving has no effect: whatever is written in the team is announced to it,
and it can write itself (`leaving_iff`).
-/

namespace XVideoDownloader
open Lib MessageHandler

section
variable [DefaultHasher] {s : Server}

/-! ### The sweep -/

/-- In the calls of a sweep that began in `s`, the releases that succeed and the tasks that are told of are the
same, and each is told to the team of its task. -/
structure Paired (s : Server) (l : Calls) : Prop where
  told : ∀ c ∈ l, ∀ p ∈ c.state.posts c.op, ∀ id, p.2.taskId? = some id →
    ∃ c' ∈ l, c'.op = .releaseTask id ∧ c'.env.fail = none
  tells : ∀ c ∈ l, ∀ id, c.op = .releaseTask id → c.env.fail = none →
    ∃ r ∈ s.tasks, r.id = id ∧
      ∃ c' ∈ l, c'.op = .broadcastToTeam r.teamId (.taskReleased id "timeout") ∧ c'.state.sessions = s.sessions

theorem paired_checkAllTaskTimeouts (ω : Stream' Env) (s : Server) :
    Paired s (checkAllTaskTimeouts.calls Server.act ω s) := by
  refine calls_checkAllTaskTimeouts (P := Paired s) ?_ ?_ ?_ ω
  · intro s' l hl
    constructor
    · intro c hc p hp
      rw [Op.posts_of_reads (hl c hc).2] at hp
      cases hp
    · intro c hc id ho
      have hr := (hl c hc).2
      rw [ho] at hr
      cases hr
  · intro l l' h h'
    constructor
    · intro c hc p hp id hid
      rcases List.mem_append.1 hc with hc | hc
      · obtain ⟨c', hc', h⟩ := h.told c hc p hp id hid
        exact ⟨c', List.mem_append_left _ hc', h⟩
      · obtain ⟨c', hc', h⟩ := h'.told c hc p hp id hid
        exact ⟨c', List.mem_append_right _ hc', h⟩
    · intro c hc id ho hf
      rcases List.mem_append.1 hc with hc | hc
      · obtain ⟨r, hr, hid, c', hc', h⟩ := h.tells c hc id ho hf
        exact ⟨r, hr, hid, c', List.mem_append_left _ hc', h⟩
      · obtain ⟨r, hr, hid, c', hc', h⟩ := h'.tells c hc id ho hf
        exact ⟨r, hr, hid, c', List.mem_append_right _ hc', h⟩
  · intro s' t id l hs hr hl
    obtain ⟨r, hr, hid, rfl⟩ := hr
    cases hl with
    | skipped => exact ⟨fun _ hc => absurd hc List.not_mem_nil, fun _ hc => absurd hc List.not_mem_nil⟩
    | failed hf =>
      refine ⟨List.forall_mem_singleton.2 fun p hp => absurd hp List.not_mem_nil, ?_⟩
      exact List.forall_mem_singleton.2 fun _ _ h => absurd h hf
    | released hf =>
      constructor
      · rw [List.forall_mem_cons, List.forall_mem_singleton]
        refine ⟨fun p hp => absurd hp List.not_mem_nil, fun p hp id' hid' => ?_⟩
        rw [(Server.mem_addressed.1 hp).2.2] at hid'
        cases hid'
        exact ⟨_, List.mem_cons_self, rfl, hf⟩
      · rw [List.forall_mem_cons, List.forall_mem_singleton]
        refine ⟨fun id' ho _ => ?_, fun id' ho => by cases ho⟩
        cases ho
        exact ⟨r, hr, hid, _, List.mem_cons_of_mem _ List.mem_cons_self, rfl, hs.sessions⟩

/-! ### Writing in a team -/

/-- The message, handled for the session, stores a row of the session's team. -/
def Accepts (s : Server) (ω : Stream' Env) (x : Session) : ClientMessage → Prop
  | .addTask url =>
    (s.db.createTask (ω.get 3).fail (.added (ω.get 1).uuid (ω.get 2).now url x) x.teamId).1 = .ok ()
  | .claimTask taskId => (ω.get 1).fail = none ∧ (ω.get 3).fail = none ∧
    ∃ q ∈ s.tasks, q.id = taskId ∧ q.teamId = x.teamId ∧ q.status = .queued
  | .updateProgress taskId _ | .taskComplete taskId _ _ => (ω.get 1).fail = none ∧ (ω.get 2).fail = none ∧
    ∃ q ∈ s.tasks, q.id = taskId ∧ q.teamId = x.teamId ∧ q.claimedBy = some x.deviceId
  | _ => False

variable [AuthDeps]

/-- A message of a member is accepted, or the sweep succeeds in releasing a task of the team. -/
def WritesIn (s : Server) (teamId : Uuid) (ω : Stream' Env) : Job → Prop
  | .text key msg => ∃ x, s.session key = some x ∧ x.teamId = teamId ∧ Accepts s ω x msg
  | .sweep => ∃ c ∈ s.calls (.sweep, ω), c.env.fail = none ∧
    ∃ r ∈ s.tasks, c.op = .releaseTask r.id ∧ r.teamId = teamId
  | _ => False

/-- The session `key` has no part in the team: no message of its own changes a row of it, and no message it gets
is about one. -/
structure Apart (s : Server) (key : SessionKey) (teamId : Uuid) (y : Job × Stream' Env) : Prop where
  rows : ∀ msg, y.1 = .text key msg → (s.handle y).own teamId = s.own teamId
  messages : ∀ p ∈ s.posted y, p.1.key = key → ∀ r ∈ (s.handle y).own teamId, p.2.taskId? ≠ some r.id

/-- One row of the team is stored, all that is sent about tasks is about it, and all members are sent something. -/
def TellsTeam (s : Server) (teamId : Uuid) (y : Job × Stream' Env) : Prop :=
  ∃ r ∈ (s.handle y).tasks, r.teamId = teamId ∧
    (∀ p ∈ s.posted y, ∀ id, p.2.taskId? = some id → id = r.id) ∧
    ∃ m : ServerMessage, m.taskId? = some r.id ∧
      ∀ x ∈ s.sessions.rows, x.teamId = teamId → (x, m) ∈ s.posted y

structure Quiet (s : Server) (y : Job × Stream' Env) : Prop where
  tasks : (s.handle y).tasks = s.tasks
  messages : ∀ p ∈ s.posted y, p.2.taskId? = none

section
variable {y : Job × Stream' Env} {l : Calls} {key : SessionKey} {x : Session}

theorem Quiet.of_idle (h : (s.calls y).Idle s) : Quiet s y := by
  refine ⟨Server.tasks_of_idle h, fun p hp => ?_⟩
  obtain ⟨c, hc, hp⟩ := List.mem_flatMap.1 hp
  exact (h.plain c hc _ p hp).1

omit [DefaultHasher] [AuthDeps] in
theorem Calls.Read.flatMap_posts (hl : l.Read s) : (l.flatMap fun c => c.state.posts c.op) = [] := by
  rw [List.flatMap_eq_nil_iff]
  exact fun c hc => Op.posts_of_reads (hl c hc).2 _

/-- What is sent about the row comes in two parts, the second for the members of its team. -/
theorem TellsTeam.of_posted {r : Task} {m : ServerMessage} {a : List (Session × ServerMessage)}
    (hr : r ∈ (s.handle y).tasks) (hm : m.taskId? = some r.id) (ha : ∀ p ∈ a, p.2.taskId? = some r.id)
    (h : s.posted y = a ++ s.addressed (fun x => x.teamId = r.teamId) m) : TellsTeam s r.teamId y := by
  refine ⟨r, hr, rfl, fun p hp id hid => ?_, m, hm, fun x hx hteam => ?_⟩
  · have hp' : p.2.taskId? = some r.id := by
      rw [h] at hp
      rcases List.mem_append.1 hp with hp | hp
      · exact ha p hp
      · rw [(Server.mem_addressed.1 hp).2.2, hm]
    exact Option.some.inj (hid.symm.trans hp')
  · rw [h]
    exact List.mem_append_right _ (Server.mem_addressed.2 ⟨hx, decide_eq_true hteam, rfl⟩)

theorem tells_reports {e₀ : Env} (hcalls : s.calls y = ⟨s, .getSession key, e₀⟩ :: l) {t taskId : Uuid}
    {ready : Task → Prop} {new : Task → Task} {message : Task → ServerMessage} {e e' : Env}
    (hsame : ∀ q : Task, q.SameIdentity (new q)) (hm : ∀ q : Task, q.id = taskId → (message q).taskId? = some q.id)
    (hl : Reports s t taskId ready new message e e' l) :
    (e.fail = none ∧ e'.fail = none ∧ ∃ q ∈ s.tasks, q.id = taskId ∧ q.teamId = t ∧ ready q) ∧ TellsTeam s t y ∨
      ¬ (e.fail = none ∧ e'.fail = none ∧ ∃ q ∈ s.tasks, q.id = taskId ∧ q.teamId = t ∧ ready q) ∧ Quiet s y := by
  have hget : Calls.Read s [⟨s, .getSession key, e₀⟩] := .single s rfl _
  rw [← List.singleton_append] at hcalls
  rcases hl with ⟨q, hq, hid, rfl, hready, hf, hr⟩ | ⟨hidle, hnot⟩
  · cases hr with
    | failed hl hf' =>
      refine .inr ⟨fun h => hf' h.2.1, .of_idle ?_⟩
      rw [hcalls]
      exact (Calls.Idle.of_reads hget).append ((Calls.Idle.of_reads hl).append (.update_failed hf'))
    | stored hl hf' =>
      refine .inl ⟨⟨hf, hf', q, hq, hid, rfl, hready⟩, ?_⟩
      rw [(hsame q).teamId]
      refine .of_posted (r := new q) (m := message q) (a := []) ?_ ?_ (fun _ hp => absurd hp List.not_mem_nil) ?_
      · rw [Server.handle_eq_last, hcalls]
        simp only [List.singleton_append, Calls.last_cons_append_cons, Calls.last_cons_cons, Calls.last_singleton]
        show new q ∈ (s.act (.updateTask (new q) q.teamId) e').2.tasks
        rw [Server.tasks_updateTask, if_pos hf']
        exact List.mem_map.2 ⟨q, hq, by rw [if_pos (hsame q).id, Task.overwrite_eq (hsame q)]⟩
      · rw [hm q hid, (hsame q).id]
      · rw [Server.posted, hcalls, List.flatMap_append, List.flatMap_append, hget.flatMap_posts, hl.flatMap_posts,
          (hsame q).teamId]
        exact List.append_nil _
  · refine .inr ⟨?_, .of_idle ?_⟩
    · rintro ⟨hf, -, q, hq, hid, hteam, hready⟩
      exact hnot hf q hq hid hteam hready
    · rw [hcalls]
      exact (Calls.Idle.of_reads hget).append hidle

theorem tells_adds {e₀ : Env} (hcalls : s.calls y = ⟨s, .getSession key, e₀⟩ :: l) {ω : Stream' Env} {task : Task}
    (ht : task.teamId = x.teamId) (hl : Adds s x ω task (s.act (.createTask task x.teamId) (ω.get 2)) l) :
    (s.act (.createTask task x.teamId) (ω.get 2)).1 = .ok () ∧ TellsTeam s x.teamId y ∨
      ¬ (s.act (.createTask task x.teamId) (ω.get 2)).1 = .ok () ∧ Quiet s y := by
  have hget : Calls.Read s [⟨s, .getSession key, e₀⟩] := .single s rfl _
  have hins := Server.tasks_createTask_of_ok (s := s) (e := ω.get 2) ht
  rw [← List.singleton_append] at hcalls
  cases hl with
  | refused hl hr hs =>
    refine .inr ⟨fun h => ?_, .of_idle ?_⟩
    · cases hr.symm.trans h
    · rw [hcalls]
      exact (Calls.Idle.of_reads hget).append (.refused hl hs _ _ _)
  | queued hl hl' hr ho =>
    obtain ⟨-, htasks⟩ := hins hr
    refine .inl ⟨hr, ?_⟩
    rw [← ht]
    refine .of_posted (r := task) (m := .taskAdded task) (a := []) ?_ rfl (fun _ hp => absurd hp List.not_mem_nil) ?_
    · rw [Server.handle_eq_last, hcalls]
      simp only [List.singleton_append, Calls.last_cons_append_cons, Calls.last_singleton]
      show task ∈ (s.act (.createTask task x.teamId) (ω.get 2)).2.tasks
      rw [htasks]
      exact List.mem_append_right _ (List.mem_singleton.2 rfl)
    · rw [Server.posted, hcalls, ht]
      simp only [List.flatMap_append, List.flatMap_cons, List.flatMap_nil, hl.flatMap_posts, hl'.flatMap_posts]
      simp only [Server.posts, List.nil_append, List.append_nil]
      rfl
  | @assigned l l' ownerId now claimed s₁ s₂ hl hl' hr ho hclaimed hs₁ hs₂ =>
    obtain ⟨-, htasks⟩ := hins hr
    have hsame := Task.sameIdentity_assigned hclaimed
    -- the assignment may not be stored, but the row is there
    obtain ⟨row, hrow, hstep⟩ := act_tasks_forward (o := .updateTask claimed x.teamId) (e := ω.get 5)
      (s := (s.act (.createTask task x.teamId) (ω.get 2)).2) (r := task)
      (htasks ▸ List.mem_append_right _ (List.mem_singleton.2 rfl))
    have hrow' := hstep.sameIdentity
    refine .inl ⟨hr, ?_⟩
    rw [← ht, hrow'.teamId]
    refine .of_posted (r := row) (m := .taskAdded claimed)
      (a := s₁.addressed (fun x => x.deviceId = ownerId) (.taskClaimed task.id ownerId)) ?_ ?_ ?_ ?_
    · rw [Server.handle_eq_last, hcalls]
      simp only [List.singleton_append, Calls.last_cons_append_cons, Calls.last_cons_cons, Calls.last_singleton]
      show row ∈ s₂.tasks
      rw [hs₂, hs₁]
      exact hrow
    · rw [← hrow'.id, hsame.id]
      rfl
    · intro p hp
      rw [(Server.mem_addressed.1 hp).2.2, ← hrow'.id]
      rfl
    · rw [Server.posted, hcalls, ← hrow'.teamId, ht]
      simp only [List.flatMap_append, List.flatMap_cons, List.flatMap_nil, hl.flatMap_posts, hl'.flatMap_posts]
      simp only [Server.posts, List.nil_append, List.append_nil]
      rw [hs₂, hs₁]
      rfl

end

/-! ### One job -/

/-- The job may bring the session `key` to a team: the connection enters one, registers or authenticates. -/
def Job.Rejoins (key : SessionKey) : Job → Prop
  | .connect key' _ => key' = key
  | .text key' (.createTeam _) | .text key' (.joinTeam _) | .text key' (.register ..) => key' = key
  | _ => False

section
variable {key : SessionKey} {x : Session} {teamId : Uuid} {y : Job × Stream' Env} {j : Job} {ω : Stream' Env}

theorem accepts_or_quiet {key' : SessionKey} (msg : ClientMessage) (hx : s.session key' = some x)
    (ω : Stream' Env) :
    Accepts s ω x msg ∧ TellsTeam s x.teamId (.text key' msg, ω) ∨
      ¬ Accepts s ω x msg ∧ Quiet s (.text key' msg, ω) := by
  have hquiet : (Job.text key' msg).ofTasks = false → Quiet s (.text key' msg, ω) := fun hj =>
    ⟨Server.handle_taskless hj ω s, Server.posted_taskless hj ω s⟩
  cases msg with
  | register | createTeam | joinTeam | heartbeat | requestFile | leaveTeam => exact .inr ⟨id, hquiet rfl⟩
  | addTask url =>
    exact tells_adds (Server.calls_text_some (p := fun x => handleAddTask x.deviceId x.teamId url) rfl hx ω) rfl
      (calls_handleAddTask s x url ω.tail)
  | claimTask taskId =>
    refine tells_reports (Server.calls_text_some
      (p := fun x => handleClaimTask x.deviceId x.teamId taskId) rfl hx ω) ?_ ?_
      (calls_handleClaimTask s x.deviceId x.teamId taskId ω.tail)
    · intro q
      exact ⟨rfl, rfl, rfl, rfl, rfl⟩
    · rintro q rfl
      rfl
  | updateProgress taskId progress =>
    refine tells_reports (Server.calls_text_some
      (p := fun x => handleUpdateProgress x.deviceId x.teamId taskId progress) rfl hx ω) ?_ ?_
      (calls_handleUpdateProgress s x.deviceId x.teamId taskId progress ω.tail)
    · intro q
      exact ⟨rfl, rfl, rfl, rfl, rfl⟩
    · intro q _
      rfl
  | taskComplete taskId localPath fileSize =>
    refine tells_reports (Server.calls_text_some
      (p := fun x => handleTaskComplete x.deviceId x.teamId taskId localPath fileSize) rfl hx ω) ?_ ?_
      (calls_handleTaskComplete s x.deviceId x.teamId taskId localPath fileSize ω.tail)
    · intro q
      exact ⟨rfl, rfl, rfl, rfl, rfl⟩
    · intro q _
      rfl

theorem quiet_of_no_session {msg : ClientMessage} (hs : s.session key = none) (ω : Stream' Env) :
    Quiet s (.text key msg, ω) := by
  by_cases hmsg : ∃ deviceId teamId name, msg = .register deviceId teamId name
  · obtain ⟨deviceId, teamId, name, rfl⟩ := hmsg
    exact ⟨Server.handle_taskless rfl ω s, Server.posted_taskless rfl ω s⟩
  · obtain ⟨k, hk, hnone⟩ := Job.code_text key fun deviceId teamId name h => hmsg ⟨deviceId, teamId, name, h⟩
    have hcalls : s.calls (.text key msg, ω) = [⟨s, .getSession key, ω.head⟩] := by
      simp only [Server.calls, hk, Prog.calls, Server.act, hs, hnone]
    refine .of_idle ?_
    rw [hcalls]
    exact .of_reads (.single s rfl _)

theorem Quiet.apart (h : Quiet s y) : Apart s key teamId y := by
  constructor
  · intro msg _
    rw [Server.own, h.tasks]
    rfl
  · intro p hp _ r _ hid
    cases (h.messages p hp).symm.trans hid

theorem TellsTeam.not_apart (h : TellsTeam s x.teamId y) (hx : s.session key = some x) :
    ¬ Apart s key x.teamId y := by
  obtain ⟨hmem, rfl⟩ := Server.session_eq_some.1 hx
  obtain ⟨r, hr, hteam, -, m, hm, hall⟩ := h
  intro h
  exact h.messages (x, m) (hall x hmem rfl) rfl r (List.mem_filter.2 ⟨hr, decide_eq_true hteam⟩) hm

/-- What is told to another team is about no row of this one. -/
theorem TellsTeam.apart {t : Uuid} (h : TellsTeam s t y) (ht : t ≠ teamId) (hy : ∀ msg, y.1 ≠ .text key msg) :
    Apart s key teamId y := by
  obtain ⟨r, hr, hteam, honly, -⟩ := h
  constructor
  · intro msg hj
    exact absurd hj (hy msg)
  · intro p hp _ r' hr' hid
    obtain ⟨hr', hteam'⟩ := List.mem_filter.1 hr'
    rw [decide_eq_true_eq] at hteam'
    have heq : r' = r := Server.eq_of_id hr' hr (honly p hp _ hid)
    exact ht (hteam.symm.trans (heq ▸ hteam'))

theorem apart_sweep_iff (hx : s.session key = some x) (ω : Stream' Env) :
    Apart s key x.teamId (.sweep, ω) ↔ ¬ WritesIn s x.teamId ω .sweep := by
  obtain ⟨hmem, rfl⟩ := Server.session_eq_some.1 hx
  have hpaired : Paired s (s.calls (.sweep, ω)) := paired_checkAllTaskTimeouts ω s
  obtain ⟨teams, -, hswept, -⟩ := exec_checkAllTaskTimeouts ω s
  have hstep : ∀ {r r' : Task}, r.SweepStep ω teams r' → r'.id = r.id ∧ r'.teamId = r.teamId := by
    rintro r r' (rfl | ⟨-, -, rfl⟩) <;> exact ⟨rfl, rfl⟩
  constructor
  · rintro h ⟨c, hc, hf, r, hr, ho, hteam⟩
    obtain ⟨r₀, hr₀, hid, c', hc', ho', hsessions⟩ := hpaired.tells c hc r.id ho hf
    have heq : r₀ = r := Server.eq_of_id hr₀ hr hid
    obtain ⟨r', hr', hs⟩ := hswept.forward r hr
    rw [heq, hteam] at ho'
    refine h.messages (x, .taskReleased r.id "timeout") (List.mem_flatMap.2 ⟨c', hc', ?_⟩) rfl r'
      (List.mem_filter.2 ⟨hr', decide_eq_true ((hstep hs).2.trans hteam)⟩) (congrArg some (hstep hs).1.symm)
    rw [ho']
    exact Server.mem_addressed.2 ⟨hsessions ▸ hmem, decide_eq_true rfl, rfl⟩
  · intro h
    constructor
    · intro msg hj
      cases hj
    · intro p hp _ r' hr' hid
      obtain ⟨hr', hteam'⟩ := List.mem_filter.1 hr'
      rw [decide_eq_true_eq] at hteam'
      obtain ⟨c, hc, hp⟩ := List.mem_flatMap.1 hp
      obtain ⟨c', hc', ho, hf⟩ := hpaired.told c hc p hp r'.id hid
      obtain ⟨r, hr, hs⟩ := hswept.backward r' hr'
      rw [(hstep hs).1] at ho
      exact h ⟨c', hc', hf, r, hr, ho, (hstep hs).2.symm.trans hteam'⟩

/-- The step lemma for a session that is registered: it has no part in its team exactly when nobody writes there. -/
theorem apart_iff (hx : s.session key = some x) (y : Job × Stream' Env) :
    Apart s key x.teamId y ↔ ¬ WritesIn s x.teamId y.2 y.1 := by
  obtain ⟨j, ω⟩ := y
  have hquiet : j.ofTasks = false → Quiet s (j, ω) := fun hj =>
    ⟨Server.handle_taskless hj ω s, Server.posted_taskless hj ω s⟩
  cases j with
  | connect | disconnect => exact iff_of_true (hquiet rfl).apart id
  | sweep => exact apart_sweep_iff hx ω
  | text key' msg =>
    cases hx' : s.session key' with
    | none =>
      refine iff_of_true (quiet_of_no_session hx' ω).apart ?_
      rintro ⟨x', hx'', -⟩
      cases hx'.symm.trans hx''
    | some x' =>
      rcases accepts_or_quiet msg hx' ω with ⟨hacc, htells⟩ | ⟨hacc, hq⟩
      · by_cases ht : x'.teamId = x.teamId
        · refine iff_of_false ((ht ▸ htells).not_apart hx) fun h => h ⟨x', hx', ht, hacc⟩
        · refine iff_of_true (htells.apart ht ?_) ?_
          · rintro _ ⟨⟩
            cases hx'.symm.trans hx
            exact ht rfl
          · rintro ⟨x'', hx'', ht', -⟩
            cases hx'.symm.trans hx''
            exact ht ht'
      · refine iff_of_true hq.apart ?_
        rintro ⟨x'', hx'', -, hacc'⟩
        cases hx'.symm.trans hx''
        exact hacc hacc'

/-- A connection whose session is gone gets no message. -/
theorem apart_of_no_session (hs : s.session key = none) (y : Job × Stream' Env) : Apart s key teamId y := by
  obtain ⟨j, ω⟩ := y
  by_cases hj : ∃ msg, j = .text key msg
  · obtain ⟨msg, rfl⟩ := hj
    exact (quiet_of_no_session hs ω).apart
  by_cases hc : ∃ key' firstMsg, j = .connect key' firstMsg
  · obtain ⟨key', firstMsg, rfl⟩ := hc
    exact Quiet.apart ⟨Server.handle_taskless rfl ω s, Server.posted_taskless rfl ω s⟩
  -- no other job inserts a session, so no call finds one with the key
  have hgone : ∀ c ∈ s.calls (j, ω), ∀ x ∈ c.state.sessions.rows, x.key ≠ key := by
    intro c hc'
    refine ((code_wp j).calls (J := fun s' : Server => ∀ x ∈ s'.sessions.rows, x.key ≠ key) ?_ ω ?_ c hc').1
    · intro h o e s' ha hJ x' hx'
      rcases act_sessions_backward hx' with ⟨x, hx, hstep⟩ | rfl
      · rw [hstep.key_eq]
        exact hJ x hx
      · obtain ⟨firstMsg, -, -, hj', -⟩ := ha
        exact absurd ⟨_, _, hj'⟩ hc
    · intro x hx hkey
      cases hs.symm.trans (Server.session_eq_some.2 ⟨hx, hkey⟩)
  constructor
  · intro msg hj'
    exact absurd ⟨msg, hj'⟩ hj
  · intro p hp hkey
    obtain ⟨c, hc', hp⟩ := List.mem_flatMap.1 hp
    exact absurd hkey (hgone c hc' p.1 (Server.mem_of_posts hp))

/-! ### Runs -/

/-- The session is in the team, if it is still registered. -/
def Stays (key : SessionKey) (teamId : Uuid) (s : Server) : Prop :=
  ∀ x ∈ s.sessions.rows, x.key = key → x.teamId = teamId

theorem Stays.handle (h : Stays key teamId s) (hj : ¬ j.Rejoins key) (ω : Stream' Env) :
    Stays key teamId (s.handle (j, ω)) := by
  refine (code_wp j).exec (J := Stays key teamId) (fun h o e s' ha hJ x' hx' hkey => ?_) ω h
  rcases act_sessions_backward hx' with ⟨x, hx, hstep⟩ | rfl
  · cases hstep with
    | same => exact hJ x' hx hkey
    | setTeam ho =>
      subst ho hkey
      cases ha <;> exact absurd rfl hj
    | update ho =>
      subst ho hkey
      obtain ⟨name, rfl⟩ := ha
      exact absurd rfl hj
  · obtain ⟨firstMsg, -, -, rfl, -⟩ := ha
    exact absurd hkey hj

theorem Stays.handleAll (h : Stays key teamId s) {ys : List (Job × Stream' Env)}
    (hys : ∀ y ∈ ys, ¬ y.1.Rejoins key) : Stays key teamId (s.handleAll ys) := by
  induction ys generalizing s with
  | nil => exact h
  | cons y ys ih =>
    rw [List.forall_mem_cons] at hys
    exact ih (h.handle hys.1 y.2) hys.2

/-- The session of a connection leaves its team, and the connection goes on without entering one again. At every job
from there on it is apart from the team if and only if its session is gone or nobody writes in the team. -/
theorem leaving_iff {s : Server} {key : SessionKey} {x : Session} (hx : s.session key = some x) (deviceId : Uuid)
    (ω : Stream' Env) (ys : List (Job × Stream' Env)) (hys : ∀ y ∈ ys, ¬ y.1.Rejoins key) :
    let left := s.handle (.text key (.leaveTeam deviceId), ω)
    (∀ as y, as ++ [y] <+: ys → Apart (left.handleAll as) key x.teamId y) ↔
      ∀ as y, as ++ [y] <+: ys → (left.handleAll as).session key ≠ none →
        ¬ WritesIn (left.handleAll as) x.teamId y.2 y.1 := by
  intro left
  have hstays : Stays key x.teamId left := by
    refine Stays.handle (fun x' hx' hkey => ?_) (j := .text key (.leaveTeam deviceId)) id ω
    cases hx.symm.trans (Server.session_eq_some.2 ⟨hx', hkey⟩)
    rfl
  refine forall₃_congr fun as y has => ?_
  have hstays' := hstays.handleAll fun z hz => hys z (has.subset (List.mem_append_left _ hz))
  cases hs : (left.handleAll as).session key with
  | none => exact iff_of_true (apart_of_no_session hs y) fun h => absurd rfl h
  | some x' =>
    obtain ⟨hmem, hkey⟩ := Server.session_eq_some.1 hs
    rw [← hstays' x' hmem hkey, apart_iff hs y]
    exact ⟨fun h _ => h, fun h => h (Option.some_ne_none x')⟩

end

end

namespace Sample

/-- The connection that has left is heard once more, and ends; then the other member adds a task. -/
def leftRun : List (Job × Stream' Env) :=
  [(.text 101 (.heartbeat 1), always 0 "" 1000), (.disconnect 101, always 0 "" 1000),
    (.text 102 (.addTask "u"), always 7 "" 1000)]

theorem leaving_iff_leftRun :
    ((server.handle (.text 101 (.leaveTeam 1), always 0 "" 1000)).handleAll leftRun).tasks.map (·.id) = [7] ∧
      ∀ as y, as ++ [y] <+: leftRun →
        Apart ((server.handle (.text 101 (.leaveTeam 1), always 0 "" 1000)).handleAll as) 101 10 y := by
  have hs : server.session 101 = some ⟨101, 1, 10⟩ := by decide
  refine ⟨by decide +kernel, (leaving_iff hs 1 (always 0 "" 1000) leftRun ?_).2 fun as y has hmember => ?_⟩
  · simp [leftRun, Job.Rejoins]
  · unfold leftRun at has
    obtain _ | ⟨z₁, _ | ⟨z₂, _ | ⟨z₃, as⟩⟩⟩ := as <;>
      simp only [List.nil_append, List.cons_append, List.cons_prefix_cons] at has
    · rw [has.1]
      rintro ⟨x, -, -, h⟩
      exact h
    · rw [has.2.1]
      exact id
    · obtain ⟨rfl, rfl, -⟩ := has
      exact absurd (by decide +kernel) hmember
    · simp at has

/-- The only member leaves, and adds a task to the team. -/
theorem not_apart_oneMember :
    ((Server.new true).handleAll oneMember).session 101 = some ⟨101, 1, 10⟩ ∧
      ¬ Apart (((Server.new true).handleAll oneMember).handle (.text 101 (.leaveTeam 1), always 0 "" 1000)) 101 10
        (.text 101 (.addTask "u"), always 7 "" 1000) := by
  rw [oneMember, handleAll_connect]
  refine ⟨by decide +kernel, fun h => ?_⟩
  exact absurd (h.rows (.addTask "u") rfl) (by decide +kernel)

end Sample

end XVideoDownloader
