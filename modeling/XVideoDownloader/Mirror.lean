import XVideoDownloader.Conduct
import XVideoDownloader.Lifecycle
import XVideoDownloader.NonInterference
import Mathlib.Data.List.Infix

/-!
# The queue that a client sees

A client that has been in a team since before its first task builds the team's queue from the messages it
receives (`observe`). `Mirrors` says that what it has built is the team's part of the `tasks` table. Every handler
keeps it, whose writes do not fail: it announces exactly what it stores. The claim that is sent to the owner of a
new task comes before the task, so it is about an unknown one and is ignored.
-/

namespace XVideoDownloader
open Lib MessageHandler

/-- What the members of a team see of a task. -/
structure QueueEntry where
  id : Uuid
  url : String
  status : TaskStatus
  claimedBy : Option Uuid
  progress : Rat
  localPath : Option String
  fileSize : Option Nat
  version : Nat
  deriving DecidableEq

def Task.entry (r : Task) : QueueEntry :=
  ⟨r.id, r.url, r.status, r.claimedBy, r.progress, r.localPath, r.fileSize, r.version⟩

/-- The entry with that id, if there is one, is changed. -/
def revise (queue : List QueueEntry) (id : Uuid) (f : QueueEntry → QueueEntry) : List QueueEntry :=
  queue.map fun x => if x.id = id then f x else x

/-- What a client makes of a message. -/
def observe (queue : List QueueEntry) : ServerMessage → List QueueEntry
  | .taskAdded task => queue.filter (fun x => x.id ≠ task.id) ++ [task.entry]
  | .taskUpdated task => revise queue task.id fun _ => task.entry
  | .taskClaimed taskId deviceId =>
    revise queue taskId fun x =>
      { x with status := .claimed, claimedBy := some deviceId, version := x.version + 1 }
  | .taskReleased taskId _ =>
    revise queue taskId fun x =>
      { x with status := .queued, claimedBy := none, progress := 0, version := x.version + 1 }
  | _ => queue

/-- The messages to the session `key` among those that were sent. -/
def inbox (key : SessionKey) (sent : List (SessionKey × ServerMessage)) : List ServerMessage :=
  sent.filterMap fun p => if p.1 = key then some p.2 else none

theorem inbox_append (key : SessionKey) (sent sent' : List (SessionKey × ServerMessage)) :
    inbox key (sent ++ sent') = inbox key sent ++ inbox key sent' := List.filterMap_append

theorem Server.sessions_filter_key {s : Server} {x : Session} (hx : x ∈ s.sessions.rows) :
    s.sessions.rows.filter (fun y => y.key = x.key) = [x] := by
  have hunique : s.sessions.rows.Pairwise fun a b => ¬ a.key = b.key := s.sessions.unique
  generalize s.sessions.rows = rows at hx hunique
  induction rows with
  | nil => cases hx
  | cons y rows ih =>
    obtain ⟨hne, hunique⟩ := List.pairwise_cons.1 hunique
    rcases List.mem_cons.1 hx with rfl | hx
    · have hnone : rows.filter (fun y => y.key = x.key) = [] := by
        rw [List.filter_eq_nil_iff]
        intro z hz hk
        exact hne z hz (of_decide_eq_true hk).symm
      rw [List.filter_cons_of_pos (by simp), hnone]
    · rw [List.filter_cons_of_neg (by simpa using hne x hx)]
      exact ih hx hunique

/-- A session gets the message once, if it is addressed. -/
theorem inbox_addressed {s : Server} {key : SessionKey} {x : Session} (hx : s.session key = some x)
    (p : Session → Bool) (message : ServerMessage) :
    inbox key ((s.addressed p message).map fun y => (y.1.key, y.2)) = if p x then [message] else [] := by
  obtain ⟨hmem, rfl⟩ := Server.session_eq_some.1 hx
  have hinbox : ∀ rows : List Session,
      inbox x.key ((rows.map fun y => (y, message)).map fun y => (y.1.key, y.2)) =
        (rows.filter fun y => y.key = x.key).map fun _ => message := by
    intro rows
    induction rows with
    | nil => rfl
    | cons y rows ih =>
      by_cases hk : y.key = x.key
      · rw [List.filter_cons_of_pos (by simpa using hk)]
        simp only [List.map_cons, ← ih]
        simp [inbox, hk]
      · rw [List.filter_cons_of_neg (by simpa using hk), ← ih]
        simp [inbox, hk]
  rw [Server.addressed, hinbox, List.filter_comm, Server.sessions_filter_key hmem, List.filter_singleton]
  cases p x <;> rfl

/-! ### The invariant -/

/-- What the session `key` has been sent since `base` was all that was sent gives the team's rows in `s`. -/
def Mirrors (base : List (SessionKey × ServerMessage)) (key : SessionKey) (teamId : Uuid) (s : Server) : Prop :=
  ∃ sent, s.sent = base ++ sent ∧ (inbox key sent).foldl observe [] = (s.own teamId).map Task.entry

namespace Mirrors
variable {base : List (SessionKey × ServerMessage)} {key : SessionKey} {teamId : Uuid} {s s' : Server}

/-- The rule for a step: the messages that it adds turn the old entries into the new ones. -/
theorem step (h : Mirrors base key teamId s) {sent : List (SessionKey × ServerMessage)}
    (hsent : s'.sent = s.sent ++ sent)
    (hfold : (inbox key sent).foldl observe ((s.own teamId).map Task.entry) = (s'.own teamId).map Task.entry) :
    Mirrors base key teamId s' := by
  obtain ⟨old, hold, hq⟩ := h
  refine ⟨old ++ sent, by rw [hsent, hold, List.append_assoc], ?_⟩
  rw [inbox_append, List.foldl_append, hq, hfold]

theorem observe_of_taskId? {queue : List QueueEntry} {message : ServerMessage} (h : message.taskId? = none) :
    observe queue message = queue := by
  cases message <;> first | rfl | cases h

theorem foldl_observe_quiet {sent : List (SessionKey × ServerMessage)} (h : ∀ p ∈ sent, p.2.taskId? = none)
    (queue : List QueueEntry) : (inbox key sent).foldl observe queue = queue := by
  induction sent with
  | nil => rfl
  | cons p sent ih =>
    rw [List.forall_mem_cons] at h
    have hcons : inbox key (p :: sent) = inbox key [p] ++ inbox key sent := inbox_append key [p] sent
    have hhead : (inbox key [p]).foldl observe queue = queue := by
      by_cases hk : p.1 = key
      · simp [inbox, hk, observe_of_taskId? h.1]
      · simp [inbox, hk]
    rw [hcons, List.foldl_append, hhead, ih h.2]

theorem quiet (h : Mirrors base key teamId s) {sent : List (SessionKey × ServerMessage)}
    (hsent : s'.sent = s.sent ++ sent) (hquiet : ∀ p ∈ sent, p.2.taskId? = none) (ht : s'.tasks = s.tasks) :
    Mirrors base key teamId s' := by
  refine h.step hsent ?_
  rw [foldl_observe_quiet hquiet, Server.own, Server.own, ht]

theorem own_map {f : Task → Task} (hf : ∀ r, (f r).teamId = r.teamId) (ht : s'.tasks = s.tasks.map f) :
    s'.own teamId = (s.own teamId).map f := by
  have hkeep : ((fun r : Task => decide (r.teamId = teamId)) ∘ f) = fun r => decide (r.teamId = teamId) := by
    funext r
    simp only [Function.comp, hf]
  rw [Server.own, Server.own, ht, List.filter_map, hkeep]

theorem revise_of_not_mem {queue : List QueueEntry} {id : Uuid} (f : QueueEntry → QueueEntry)
    (h : ∀ x ∈ queue, x.id ≠ id) : revise queue id f = queue :=
  (List.map_congr_left fun x hx => if_neg (h x hx)).trans (List.map_id _)

variable [DefaultHasher] {x : Session} {e : Env}

omit [DefaultHasher] in
theorem inbox_broadcast (hx : s.session key = some x) (hteam : x.teamId = teamId) (t : Uuid)
    (message : ServerMessage) :
    inbox key ((s.posts (.broadcastToTeam t message)).map fun p => (p.1.key, p.2)) =
      if t = teamId then [message] else [] := by
  have h := inbox_addressed hx (fun y => y.teamId = t) message
  rw [hteam] at h
  refine h.trans (if_congr ?_ rfl rfl)
  rw [decide_eq_true_eq]
  exact eq_comm

/-- A row of some team is changed, and the team is told how. -/
theorem told (h : Mirrors base key teamId s) (hx : s.session key = some x) (hteam : x.teamId = teamId) {q : Task}
    (hq : q ∈ s.tasks) {f : Task → Task} (hf : ∀ r, (f r).teamId = r.teamId)
    (ht : s'.tasks = s.tasks.map fun r => if r.id = q.id then f r else r) (hsessions : s'.sessions = s.sessions)
    (hsent : s'.sent = s.sent) {message : ServerMessage} {g : QueueEntry → QueueEntry}
    (hm : ∀ queue, observe queue message = revise queue q.id g) (hg : (f q).entry = g q.entry) :
    Mirrors base key teamId (s'.act (.broadcastToTeam q.teamId message) e).2 := by
  have hx' : s'.session key = some x := by
    rw [Server.session, hsessions]
    exact hx
  refine h.step (by rw [Server.act_sent, hsent]) ?_
  have hown : (s'.act (.broadcastToTeam q.teamId message) e).2.own teamId =
      (s.own teamId).map fun r => if r.id = q.id then f r else r := by
    refine own_map (fun r => ?_) ht
    split
    · exact hf r
    · rfl
  have hentries : ((s.own teamId).map fun r => if r.id = q.id then f r else r).map Task.entry =
      revise ((s.own teamId).map Task.entry) q.id g := by
    rw [revise, List.map_map, List.map_map]
    refine List.map_congr_left fun r hr => ?_
    have hid : (r.entry.id = q.id) = (r.id = q.id) := rfl
    simp only [Function.comp, hid]
    split
    · rename_i heq
      rw [Server.eq_of_id (List.mem_of_mem_filter hr) hq heq]
      exact hg
    · rfl
  rw [inbox_broadcast hx' hteam, hown, hentries]
  by_cases hqt : q.teamId = teamId
  · rw [if_pos hqt, List.foldl_cons, List.foldl_nil, hm]
  · rw [if_neg hqt, List.foldl_nil, revise_of_not_mem]
    intro y hy
    obtain ⟨r, hr, rfl⟩ := List.mem_map.1 hy
    rw [Server.own, List.mem_filter, decide_eq_true_eq] at hr
    rintro hid
    exact hqt (Server.eq_of_id hr.1 hq hid ▸ hr.2)

/-- A row is inserted, and its team is told, after messages that say nothing new. -/
theorem added (h : Mirrors base key teamId s) (hx : s.session key = some x) (hteam : x.teamId = teamId)
    {task : Task} (hn : ∀ r ∈ s.tasks, ¬ Task.Clash r task) (ht : s'.tasks = s.tasks ++ [task])
    (hsessions : s'.sessions = s.sessions) {sent : List (SessionKey × ServerMessage)}
    (hsent : s'.sent = s.sent ++ sent)
    (hfold : (inbox key sent).foldl observe ((s.own teamId).map Task.entry) = (s.own teamId).map Task.entry) :
    Mirrors base key teamId (s'.act (.broadcastToTeam task.teamId (.taskAdded task)) e).2 := by
  have hx' : s'.session key = some x := by
    rw [Server.session, hsessions]
    exact hx
  refine h.step (by rw [Server.act_sent, hsent, List.append_assoc]) ?_
  have hown : (s'.act (.broadcastToTeam task.teamId (.taskAdded task)) e).2.own teamId =
      s.own teamId ++ if task.teamId = teamId then [task] else [] := by
    show s'.own teamId = _
    rw [Server.own, Server.own, ht, List.filter_append, List.filter_singleton]
    by_cases h : task.teamId = teamId <;> simp [h]
  rw [inbox_append, List.foldl_append, hfold, inbox_broadcast hx' hteam, hown, List.map_append]
  by_cases h : task.teamId = teamId
  · rw [if_pos h, if_pos h, List.foldl_cons, List.foldl_nil, observe, List.filter_eq_self.2]
    · rfl
    · intro y hy
      obtain ⟨r, hr, rfl⟩ := List.mem_map.1 hy
      exact decide_eq_true fun hid => hn r (List.mem_of_mem_filter hr) (.inl hid)
  · rw [if_neg h, if_neg h, List.foldl_nil, List.map_nil, List.append_nil]

theorem overwritten {q new : Task} {teamId : Uuid} (hsame : q.SameIdentity new) (hf : e.fail = none) :
    (s.act (.updateTask new teamId) e).2.tasks = s.tasks.map fun r => if r.id = q.id then r.overwrite new else r := by
  rw [Server.tasks_updateTask, if_pos hf, hsame.id]

/-- The common end of claims, reports and completions. -/
theorem replaced (h : Mirrors base key teamId s) (hx : s.session key = some x) (hteam : x.teamId = teamId)
    {q new : Task} (hq : q ∈ s.tasks) (hsame : q.SameIdentity new) {message : ServerMessage}
    {g : QueueEntry → QueueEntry} (hm : ∀ queue, observe queue message = revise queue q.id g)
    (hg : new.entry = g q.entry) {e' : Env} (hf : e.fail = none) :
    Mirrors base key teamId ((s.act (.updateTask new q.teamId) e).2.act (.broadcastToTeam q.teamId message) e').2 := by
  refine h.told hx hteam hq (f := (·.overwrite new)) (fun _ => rfl) (overwritten hsame hf) rfl ?_ hm ?_
  · exact (Server.act_sent _ _ _).trans (List.append_nil _)
  · rw [Task.overwrite_eq hsame]
    exact hg

variable [AuthDeps]

theorem idle (h : Mirrors base key teamId s) {y : Job × Stream' Env} (hidle : (s.calls y).Idle s) :
    Mirrors base key teamId (s.handle y) := by
  refine h.quiet (s.handle_sent y) ?_ (Server.tasks_of_idle hidle)
  intro p hp
  obtain ⟨z, hz, rfl⟩ := List.mem_map.1 hp
  obtain ⟨c, hc, hz⟩ := List.mem_flatMap.1 hz
  exact (hidle.plain c hc _ z hz).1

/-- A handler that stores a row and then tells the team, and that the session's own messages are a case of. -/
theorem reports (h : Mirrors base key teamId s) (hx : s.session key = some x) (hteam : x.teamId = teamId)
    {y : Job × Stream' Env} {l : Calls} {e₀ : Env} {key' : SessionKey}
    (hcalls : s.calls y = ⟨s, .getSession key', e₀⟩ :: l) {t taskId : Uuid} {ready : Task → Prop} {new : Task → Task}
    {message : Task → ServerMessage} {e' : Env} (g : Task → QueueEntry → QueueEntry)
    (hsame : ∀ q : Task, q.SameIdentity (new q))
    (hm : ∀ q : Task, q.id = taskId → ∀ queue, observe queue (message q) = revise queue q.id (g q))
    (hg : ∀ q, (new q).entry = g q q.entry) (hl : Reports s t taskId ready new message e e' l) :
    Mirrors base key teamId (s.handle y) := by
  have hget : Calls.Idle s [⟨s, .getSession key', e₀⟩] := .of_reads (.single s rfl _)
  rw [← List.singleton_append] at hcalls
  rcases hl with ⟨q, hq, hid, rfl, -, -, hr⟩ | ⟨hidle, -⟩
  · cases hr with
    | failed hl hf =>
      refine h.idle ?_
      rw [hcalls]
      exact hget.append ((Calls.Idle.of_reads hl).append (.update_failed hf))
    | stored hl hf =>
      rw [Server.handle_eq_last, hcalls]
      simp only [List.singleton_append, Calls.last_cons_append_cons, Calls.last_cons_cons, Calls.last_singleton]
      exact h.replaced hx hteam hq (hsame q) (hm q hid) (hg q) hf
  · refine h.idle ?_
    rw [hcalls]
    exact hget.append hidle

omit [DefaultHasher] [AuthDeps] in
/-- A claim of a task that nobody knows yet is ignored. -/
theorem foldl_unknown (hx : s'.session key = some x) {taskId deviceId : Uuid} (hn : ∀ r ∈ s.tasks, r.id ≠ taskId) :
    (inbox key ((s'.posts (.sendToDevice deviceId (.taskClaimed taskId deviceId))).map fun p => (p.1.key, p.2))).foldl
      observe ((s.own teamId).map Task.entry) = (s.own teamId).map Task.entry := by
  have hinbox := inbox_addressed hx (fun y => y.deviceId = deviceId) (.taskClaimed taskId deviceId)
  rw [Server.posts, hinbox]
  split
  · rw [List.foldl_cons, List.foldl_nil, observe, revise_of_not_mem]
    intro y hy
    obtain ⟨r, hr, rfl⟩ := List.mem_map.1 hy
    exact hn r (List.mem_of_mem_filter hr)
  · rfl

theorem adds (h : Mirrors base key teamId s) (hx : s.session key = some x) (hteam : x.teamId = teamId)
    {y : Job × Stream' Env} {l : Calls} {e₀ : Env} {key' : SessionKey}
    (hcalls : s.calls y = ⟨s, .getSession key', e₀⟩ :: l) {x' : Session} {ω : Stream' Env} {task : Task}
    (ht : task.teamId = x'.teamId) (hf : ∀ c ∈ l, c.op.writes → c.env.fail = none)
    (hl : Adds s x' ω task (s.act (.createTask task x'.teamId) (ω.get 2)) l) :
    Mirrors base key teamId (s.handle y) := by
  have hget : Calls.Idle s [⟨s, .getSession key', e₀⟩] := .of_reads (.single s rfl _)
  have hins := Server.tasks_createTask_of_ok (s := s) (e := ω.get 2) ht
  rw [← List.singleton_append] at hcalls
  cases hl with
  | refused hl hr hs =>
    refine h.idle ?_
    rw [hcalls]
    exact hget.append (.refused hl hs _ _ _)
  | queued hl hl' hr ho =>
    obtain ⟨hn, htasks⟩ := hins hr
    rw [Server.handle_eq_last, hcalls]
    simp only [List.singleton_append, Calls.last_cons_append_cons, Calls.last_singleton]
    rw [← ht] at *
    exact h.added hx hteam hn htasks rfl (List.append_nil _).symm rfl
  | @assigned l l' ownerId now claimed s₁ s₂ hl hl' hr ho hclaimed hs₁ hs₂ =>
    obtain ⟨hn, htasks⟩ := hins hr
    rw [Server.handle_eq_last, hcalls]
    simp only [List.singleton_append, Calls.last_cons_append_cons, Calls.last_cons_cons, Calls.last_singleton]
    have hfail : (ω.get 5).fail = none :=
      hf ⟨(s.act (.createTask task x'.teamId) (ω.get 2)).2, .updateTask claimed x'.teamId, ω.get 5⟩ (by simp) rfl
    have hsame := Task.sameIdentity_assigned hclaimed
    have hn' : ∀ r ∈ s.tasks, ¬ Task.Clash r claimed := by
      intro r hr hc
      exact hn r hr (hc.imp (·.trans hsame.id.symm) (·.trans hsame.url.symm))
    have htasks₁ : s₁.tasks = s.tasks ++ [claimed] := by
      rw [hs₁]
      exact Server.tasks_updateTask_of_new hn htasks hsame hfail
    have hsessions₁ : s₁.sessions = s.sessions := by
      rw [hs₁]
      rfl
    have hsent₁ : s₁.sent = s.sent := by
      rw [hs₁, Server.act_sent, Server.act_sent]
      simp [Server.posts]
    have hx₁ : s₁.session key = some x := by
      rw [Server.session, hsessions₁]
      exact hx
    have hsent₂ := Server.act_sent (.sendToDevice ownerId (.taskClaimed task.id ownerId)) (ω.get 6) s₁
    rw [← hs₂, hsent₁] at hsent₂
    have hteam' : claimed.teamId = x'.teamId := hsame.teamId.symm.trans ht
    rw [← hteam']
    refine h.added hx hteam hn' ?_ ?_ hsent₂ (foldl_unknown hx₁ fun r hr hid => hn r hr (.inl hid))
    · rw [hs₂]
      exact htasks₁
    · rw [hs₂]
      exact hsessions₁

omit [AuthDeps] in
theorem releases (h : Mirrors base key teamId s) (hx : s.session key = some x) (hteam : x.teamId = teamId) {q : Task}
    {t taskId : Uuid} (hq : q ∈ s.tasks) (hid : q.id = taskId) (ht : q.teamId = t) {l : Calls}
    (hl : Releases s t taskId l) :
    Mirrors base key teamId (l.last s) ∧ (l.last s).sessions = s.sessions := by
  subst hid ht
  cases hl with
  | skipped => exact ⟨h, rfl⟩
  | @failed e hf =>
    have hsent : (s.act (.releaseTask q.id) e).2.sent = s.sent ++ [] := Server.act_sent _ _ _
    refine ⟨h.quiet hsent (fun _ hp => absurd hp List.not_mem_nil) ?_, rfl⟩
    exact (Server.tasks_releaseTask _ _ _).trans (if_neg hf)
  | @released e e' hf =>
    have htasks : (s.act (.releaseTask q.id) e).2.tasks =
        s.tasks.map fun r => if r.id = q.id then r.released else r :=
      (Server.tasks_releaseTask _ _ _).trans (if_pos hf)
    have hsent : (s.act (.releaseTask q.id) e).2.sent = s.sent := (Server.act_sent _ _ _).trans (List.append_nil _)
    have hm : ∀ queue, observe queue (.taskReleased q.id "timeout") = revise queue q.id fun x =>
        { x with status := .queued, claimedBy := none, progress := 0, version := x.version + 1 } := fun _ => rfl
    have hkeep : ∀ r : Task, r.released.teamId = r.teamId := fun _ => rfl
    have hsessions : (s.act (.releaseTask q.id) e).2.sessions = s.sessions := rfl
    exact ⟨h.told hx hteam hq hkeep htasks hsessions hsent hm rfl, rfl⟩

omit [AuthDeps] in
/-- The invariant of the loops of a sweep. -/
theorem sweepTeam (h : Mirrors base key teamId s) (hx : s.session key = some x) (hteam : x.teamId = teamId)
    (t : Uuid) (ω : Stream' Env) :
    Mirrors base key teamId ((checkTaskTimeouts t).exec Server.act ω s).2.2 ∧
      ((checkTaskTimeouts t).exec Server.act ω s).2.2.sessions = s.sessions := by
  simp only [checkTaskTimeouts, call, Prog.exec_bind, Prog.exec_op]
  have hs : (s.act (.getClaimedTasks t) ω.head).2 = s := rfl
  rw [hs]
  split
  · rename_i rows ha
    have hrows := Server.answer_getClaimedTasks ha.symm
    simp only [Prog.exec_bind, Prog.exec_op]
    -- every round finds the row that it is about
    have hloop := Prog.exec_forM Server.act (fun rest _ s' => Mirrors base key teamId s' ∧ s'.sessions = s.sessions ∧
      ∀ q ∈ rest, ∃ r ∈ s'.tasks, r.id = q.id ∧ r.teamId = t) (releaseOverdue t ω.tail.head.now)
      (fun q rest ω' s' hJ => ?_) rows ω.tail.tail s ⟨h, rfl, fun q hq => ?_⟩
    · exact ⟨hloop.1, hloop.2.1⟩
    · obtain ⟨h', hsessions, hst⟩ := hJ
      rw [List.forall_mem_cons] at hst
      obtain ⟨⟨r, hr, hid, hrt⟩, hst⟩ := hst
      have hx' : s'.session key = some x := by
        rw [Server.session, hsessions]
        exact hx
      obtain ⟨hm, hs'⟩ := h'.releases hx' hteam hr hid hrt (calls_releaseOverdue s' t ω.tail.head.now q ω')
      have hlast : ((releaseOverdue t ω.tail.head.now q).exec Server.act ω' s').2.2 = Calls.last _ s' :=
        Prog.exec_state Server.act (releaseOverdue t ω.tail.head.now q) ω' s'
      have htasks := exec_releaseOverdue t ω.tail.head.now q ω' s'
      rw [hlast] at htasks ⊢
      refine ⟨hm, hs'.trans hsessions, fun p hp => ?_⟩
      obtain ⟨r', hr', hid', hrt'⟩ := hst p hp
      rw [htasks]
      split
      · refine ⟨_, List.mem_map_of_mem hr', ?_⟩
        split <;> exact ⟨hid', hrt'⟩
      · exact ⟨r', hr', hid', hrt'⟩
    · rw [hrows, List.mem_filter, decide_eq_true_eq] at hq
      exact ⟨q, hq.1, rfl, hq.2.1⟩
  · exact ⟨h, rfl⟩

omit [AuthDeps] in
theorem sweep (h : Mirrors base key teamId s) (hx : s.session key = some x) (hteam : x.teamId = teamId)
    (ω : Stream' Env) : Mirrors base key teamId (checkAllTaskTimeouts.exec Server.act ω s).2.2 := by
  simp only [checkAllTaskTimeouts, call, Prog.exec_bind, Prog.exec_op]
  have hs : (s.act .getAllTeamIds ω.head).2 = s := rfl
  rw [hs]
  split
  · rename_i teamIds ha
    have hloop := Prog.exec_forM Server.act (fun _ _ s' => Mirrors base key teamId s' ∧ s'.sessions = s.sessions)
      checkTaskTimeouts (fun t rest ω' s' hJ => ?_) teamIds ω.tail s ⟨h, rfl⟩
    · exact hloop.1
    · have hx' : s'.session key = some x := by
        rw [Server.session, hJ.2]
        exact hx
      obtain ⟨hm, hsessions⟩ := hJ.1.sweepTeam hx' hteam t ω'
      exact ⟨hm, hsessions.trans hJ.2⟩
  · exact h

/-- A message of a kind that is about tasks, handled for some session or for none. -/
theorem text (h : Mirrors base key teamId s) {key' : SessionKey} {msg : ClientMessage} {p : Session → M Unit}
    {ω : Stream' Env}
    (hp : (Job.text key' msg).code = do if let some session ← call (.getSession key') then p session)
    (hp' : ∀ x', s.session key' = some x' → s.calls (.text key' msg, ω) =
      ⟨s, .getSession key', ω.get 0⟩ :: (p x').calls Server.act ω.tail s → Mirrors base key teamId
        (s.handle (.text key' msg, ω))) : Mirrors base key teamId (s.handle (.text key' msg, ω)) := by
  have hcalls := s.calls_text hp ω
  cases hx' : s.session key' with
  | none =>
    rw [hx'] at hcalls
    refine h.idle ?_
    rw [hcalls]
    exact .of_reads (.single s rfl _)
  | some x' =>
    rw [hx'] at hcalls
    exact hp' x' hx' hcalls

/-- The step lemma: a job whose writes do not fail keeps what the client sees true. -/
theorem handle (h : Mirrors base key teamId s) (hx : s.session key = some x) (hteam : x.teamId = teamId)
    (y : Job × Stream' Env) (hf : ∀ c ∈ s.calls y, c.op.writes → c.env.fail = none) :
    Mirrors base key teamId (s.handle y) := by
  obtain ⟨j, ω⟩ := y
  have hquiet : j.ofTasks = false → Mirrors base key teamId (s.handle (j, ω)) := by
    intro hj
    refine h.quiet (s.handle_sent (j, ω)) ?_ (Server.handle_taskless hj ω s)
    intro p hp
    obtain ⟨y, hy, rfl⟩ := List.mem_map.1 hp
    exact Server.posted_taskless hj ω s y hy
  cases j with
  | connect | disconnect => exact hquiet rfl
  | sweep => exact h.sweep hx hteam ω
  | text key' msg =>
    cases msg with
    | register | createTeam | joinTeam | heartbeat | requestFile | leaveTeam => exact hquiet rfl
    | addTask url =>
      refine h.text (p := fun x => handleAddTask x.deviceId x.teamId url) rfl fun x' hx' hcalls => ?_
      refine h.adds hx hteam hcalls ?_ (fun c hc => hf c ?_) (calls_handleAddTask s x' url ω.tail)
      · rfl
      · rw [hcalls]
        exact List.mem_cons_of_mem _ hc
    | claimTask taskId =>
      refine h.text (p := fun x => handleClaimTask x.deviceId x.teamId taskId) rfl fun x' hx' hcalls => ?_
      refine h.reports hx hteam hcalls
        (fun _ y => { y with status := .claimed, claimedBy := some x'.deviceId, version := y.version + 1 }) ?_ ?_ ?_
        (calls_handleClaimTask s x'.deviceId x'.teamId taskId ω.tail)
      · intro q
        exact ⟨rfl, rfl, rfl, rfl, rfl⟩
      · rintro q rfl queue
        rfl
      · intro q
        rfl
    | updateProgress taskId progress =>
      refine h.text (p := fun x => handleUpdateProgress x.deviceId x.teamId taskId progress) rfl
        fun x' hx' hcalls => ?_
      refine h.reports hx hteam hcalls
        (fun q _ => Task.entry { q with progress := progress, version := q.version + 1 }) ?_ ?_ ?_
        (calls_handleUpdateProgress s x'.deviceId x'.teamId taskId progress ω.tail)
      · intro q
        exact ⟨rfl, rfl, rfl, rfl, rfl⟩
      · intro q _ queue
        rfl
      · intro q
        rfl
    | taskComplete taskId localPath fileSize =>
      refine h.text (p := fun x => handleTaskComplete x.deviceId x.teamId taskId localPath fileSize) rfl
        fun x' hx' hcalls => ?_
      refine h.reports hx hteam hcalls
        (fun q _ => Task.entry { q with
          status := .complete, localPath := some localPath, fileSize := some fileSize, progress := 1,
          version := q.version + 1 }) ?_ ?_ ?_
        (calls_handleTaskComplete s x'.deviceId x'.teamId taskId localPath fileSize ω.tail)
      · intro q
        exact ⟨rfl, rfl, rfl, rfl, rfl⟩
      · intro q _ queue
        rfl
      · intro q
        rfl

end Mirrors

section
variable [DefaultHasher] [AuthDeps]

/-- Handlers and sweeps run one at a time on any server whose database takes every write. For a session that is in
a team from before its first task, at every moment between two of them, what it has been sent gives exactly the
team's rows. -/
theorem broadcasts_determine (s : Server) (key : SessionKey) (teamId : Uuid) (hnone : s.own teamId = [])
    (xs : List (Job × Stream' Env))
    (hteam : ∀ ys, ys <+: xs → ∃ x, (s.handleAll ys).session key = some x ∧ x.teamId = teamId)
    (hwrites : ∀ ys y, ys ++ [y] <+: xs → ∀ c ∈ (s.handleAll ys).calls y, c.op.writes → c.env.fail = none) :
    ∀ ys, ys <+: xs → (inbox key ((s.handleAll ys).sent.drop s.sent.length)).foldl observe [] =
      ((s.handleAll ys).own teamId).map Task.entry := by
  have hrun : ∀ ys, ys <+: xs → Mirrors s.sent key teamId (s.handleAll ys) := by
    intro ys
    induction ys using List.reverseRecOn with
    | nil =>
      intro _
      refine ⟨[], (List.append_nil _).symm, ?_⟩
      show [] = (s.own teamId).map Task.entry
      rw [hnone]
      rfl
    | append_singleton ys y ih =>
      intro hys
      have hpre : ys <+: xs := (List.prefix_append ys [y]).trans hys
      obtain ⟨x, hx, hxt⟩ := hteam ys hpre
      have hstep : s.handleAll (ys ++ [y]) = (s.handleAll ys).handle y := List.foldl_concat _ _ _ _
      rw [hstep]
      exact (ih hpre).handle hx hxt y (hwrites ys y hys)
  intro ys hys
  obtain ⟨sent, hsent, hfold⟩ := hrun ys hys
  rw [hsent, List.drop_left, hfold]

end

namespace Sample

/-- Device 1 adds a task, which device 2 claims and finishes in part; then a sweep releases it. -/
def watchedRun : List (Job × Stream' Env) :=
  [(.text 101 (.addTask "u"), always 7 "" 1000), (.text 102 (.claimTask 7), always 0 "" 1000),
    (.text 102 (.updateProgress 7 (1 / 2)), always 0 "" 1100), (.sweep, always 0 "" 1300)]

theorem broadcasts_determine_watchedRun :
    (inbox 101 (server.handleAll watchedRun).sent).foldl observe [] =
      ((server.handleAll watchedRun).own 10).map Task.entry := by
  have hteam : ∀ ys ∈ watchedRun.inits, ∃ x ∈ (server.handleAll ys).session 101, x.teamId = 10 := by
    decide +kernel
  refine broadcasts_determine server 101 10 rfl watchedRun (fun ys hys => ?_) (fun ys y hys c hc _ => ?_) watchedRun
    (List.prefix_rfl)
  · obtain ⟨x, hx, ht⟩ := hteam ys ((List.mem_inits ys watchedRun).2 hys)
    exact ⟨x, hx, ht⟩
  · have hcalm : ∀ y ∈ watchedRun, ∀ n, (y.2.get n).fail = none := by
      simp only [watchedRun, List.forall_mem_cons]
      exact ⟨fun _ => rfl, fun _ => rfl, fun _ => rfl, fun _ => rfl, fun _ h => absurd h List.not_mem_nil⟩
    obtain ⟨n, hn⟩ := Prog.calls_env Server.act y.1.code y.2 (server.handleAll ys) c hc
    rw [hn]
    exact hcalm y (hys.subset (by simp)) n

end Sample

end XVideoDownloader
