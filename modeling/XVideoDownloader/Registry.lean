import XVideoDownloader.Announce
import XVideoDownloader.Assignment

/-!
# The registry of devices

Who is in a team is kept twice, in the sessions and in the `devices` table. Creating and joining a team write both,
but the row has the nil id, and where there is one with that id its team stays. So the two agree only on entries of
a session whose device id is nil into the team that the table names already, or into the first (`registry_iff`).
-/

namespace XVideoDownloader
open Lib MessageHandler

/-! ### The table -/

namespace Database
variable {db db' : Database} {fail : Option String}

/-- Every row is still there, with its id and its team, and there are no others. -/
def DevicesKept (db db' : Database) : Prop :=
  ∃ f : Device → Device, db'.devices.rows = db.devices.rows.map f ∧ ∀ r, (f r).id = r.id ∧ (f r).teamId = r.teamId

theorem DevicesKept.of_eq (h : db'.devices = db.devices) : DevicesKept db db' :=
  ⟨id, by rw [h, List.map_id], fun _ => ⟨rfl, rfl⟩⟩

theorem keepsKey_of_id {f : Device → Device} (hf : ∀ r, (f r).id = r.id) : Table.KeepsKey Device.Clash f := by
  intro a b
  simp only [Device.Clash, hf a, iff_self, and_self]

theorem DevicesKept.modify {p : Device → Prop} [DecidablePred p] {f : Device → Device}
    (hf : ∀ r, (f r).id = r.id ∧ (f r).teamId = r.teamId)
    (h : db'.devices = db.devices.modify p f (keepsKey_of_id fun r => (hf r).1)) : DevicesKept db db' := by
  refine ⟨fun r => if p r then f r else r, ?_, fun r => ?_⟩
  · rw [h, Table.rows_modify]
  · dsimp only
    split
    · exact hf r
    · exact ⟨rfl, rfl⟩

/-- An upsert that succeeds appends the row, or there is one with its id already. -/
theorem registerDevice_cases (fail : Option String) (db : Database) (device : Device) :
    DevicesKept db (registerDevice fail db device).2 ∧
        ((registerDevice fail db device).1 = .ok () → ∃ r ∈ db.devices.rows, r.id = device.id) ∨
      (∀ r ∈ db.devices.rows, r.id ≠ device.id) ∧
        (registerDevice fail db device).2.devices.rows = db.devices.rows ++ [device] := by
  have hkept : ∀ {e : String}, DevicesKept db db ∧ ((.error e : Except String Unit) = .ok () →
      ∃ r ∈ db.devices.rows, r.id = device.id) := ⟨.of_eq rfl, fun h => by cases h⟩
  unfold registerDevice
  split
  · exact .inl hkept
  cases fail with
  | some e => exact .inl hkept
  | none =>
    cases hins : db.devices.insert device with
    | none =>
      refine .inl ?_
      simp only [execute, upsertDevice, hins]
      exact ⟨.modify (by exact fun r => ⟨rfl, rfl⟩) rfl, fun _ => Table.insert_eq_none.1 hins⟩
    | some devices =>
      obtain ⟨hnone, hrows⟩ := Table.insert_eq_some.1 hins
      by_cases hr : db.referencesTeam device.teamId
      · refine .inr ⟨hnone, ?_⟩
        simp only [execute, upsertDevice, hins, if_pos hr]
        exact hrows
      · simp only [execute, upsertDevice, hins, if_neg hr]
        exact .inl hkept

theorem devicesKept_createTeam (id : Uuid) (code : String) (now : Time) (name : String) :
    DevicesKept db (createTeam fail db id code now name).2 := by
  refine execute_ind (DevicesKept db) (.of_eq rfl) fun a db' _ h => ?_
  split at h <;> cases h
  exact .of_eq rfl

theorem devicesKept_createTask (task : Task) (teamId : Uuid) :
    DevicesKept db (createTask fail db task teamId).2 := by
  refine execute_ind (DevicesKept db) (.of_eq rfl) fun a db' _ h => ?_
  unfold insertTask at h
  split at h
  · split at h <;> cases h
    exact .of_eq rfl
  · cases h

end Database

section
variable [DefaultHasher]

theorem act_devices (o : Op) (e : Env) (s : Server) :
    s.db.DevicesKept (s.act o e).2.db ∨
      ∃ device, o = .registerDevice device ∧ (s.act o e).2.db.devices.rows = s.db.devices.rows ++ [device] := by
  cases o with
  | registerDevice device =>
    rcases Database.registerDevice_cases e.fail s.db device with ⟨h, -⟩ | ⟨-, h⟩
    · exact .inl h
    · exact .inr ⟨device, rfl, h⟩
  | createTeam name => exact .inl (Database.devicesKept_createTeam _ _ _ _)
  | createTask task teamId => exact .inl (Database.devicesKept_createTask _ _)
  | updateDeviceHeartbeat deviceId | setDeviceOffline deviceId =>
    refine .inl (Database.execute_ind s.db.DevicesKept (.of_eq rfl) fun a db' _ h => ?_)
    cases h
    exact .modify (by exact fun r => ⟨rfl, rfl⟩) rfl
  | updateTask | releaseTask =>
    refine .inl (Database.execute_ind s.db.DevicesKept (.of_eq rfl) fun a db' _ h => ?_)
    cases h
    exact .of_eq rfl
  | _ => exact .inl (.of_eq rfl)

variable [AuthDeps] {s : Server} {deviceId teamId : Uuid}

omit [AuthDeps] in
theorem Server.Member.act (h : s.Member deviceId teamId) (o : Op) (e : Env) :
    (s.act o e).2.Member deviceId teamId := by
  obtain ⟨r, hr, hid, hteam⟩ := h
  rcases act_devices o e s with ⟨f, hf, hkeep⟩ | ⟨device, -, hrows⟩
  · refine ⟨f r, ?_, (hkeep r).1.trans hid, (hkeep r).2.trans hteam⟩
    rw [hf]
    exact List.mem_map_of_mem hr
  · refine ⟨r, ?_, hid, hteam⟩
    rw [hrows]
    exact List.mem_append_left _ hr

/-- No row is ever deleted or changes its team. -/
theorem Server.Member.handle (h : s.Member deviceId teamId) (y : Job × Stream' Env) :
    (s.handle y).Member deviceId teamId := by
  refine (code_wp y.1).exec (J := fun s' : Server => s'.Member deviceId teamId) ?_ y.2 h
  intro _ o e s' _ hs'
  exact hs'.act o e

theorem Server.Member.handleAll (h : s.Member deviceId teamId) (ys : List (Job × Stream' Env)) :
    (s.handleAll ys).Member deviceId teamId := by
  induction ys generalizing s with
  | nil => exact h
  | cons y ys ih => exact ih (h.handle y)

/-- All rows of the `devices` table have the nil id. -/
def Server.OnlyNil (s : Server) : Prop := ∀ r ∈ s.db.devices.rows, r.id = Uuid.nil

theorem Server.OnlyNil.handle (h : s.OnlyNil) (y : Job × Stream' Env) : (s.handle y).OnlyNil := by
  refine (code_wp y.1).exec (J := Server.OnlyNil) (fun hist o e s' ha hs' r hr => ?_) y.2 h
  rcases act_devices o e s' with ⟨f, hf, hkeep⟩ | ⟨device, rfl, hrows⟩
  · rw [hf] at hr
    obtain ⟨r₀, hr₀, rfl⟩ := List.mem_map.1 hr
    exact (hkeep r₀).1.trans (hs' r₀ hr₀)
  · rw [hrows] at hr
    rcases List.mem_append.1 hr with hr | hr
    · exact hs' r hr
    · rw [List.mem_singleton.1 hr]
      exact ha

theorem Server.OnlyNil.handleAll (h : s.OnlyNil) (ys : List (Job × Stream' Env)) : (s.handleAll ys).OnlyNil := by
  induction ys generalizing s with
  | nil => exact h
  | cons y ys ih => exact ih (h.handle y)

end

/-! ### What is sent about teams -/

def Op.Teamless (o : Op) : Prop := ∀ s : Server, ∀ p ∈ s.posts o, p.2.entered? = none

theorem Op.teamless_of_posts {o : Op} (h : ∀ s : Server, s.posts o = []) : o.Teamless := by
  intro s p hp
  rw [h s] at hp
  cases hp

theorem Op.teamless_sendToDevice {deviceId : Uuid} {message : ServerMessage} (hm : message.entered? = none) :
    (Op.sendToDevice deviceId message).Teamless := by
  intro s p hp
  rw [(Server.mem_addressed.1 hp).2.2, hm]

theorem Op.teamless_broadcastToTeam {teamId : Uuid} {message : ServerMessage} (hm : message.entered? = none) :
    (Op.broadcastToTeam teamId message).Teamless := by
  intro s p hp
  rw [(Server.mem_addressed.1 hp).2.2, hm]

def Calls.Teamless (l : Calls) : Prop := ∀ c ∈ l, c.op.Teamless

theorem Calls.Read.teamless {s : Server} {l : Calls} (hl : l.Read s) : l.Teamless :=
  fun c hc => Op.teamless_of_posts (Op.posts_of_reads (hl c hc).2)

section
variable [DefaultHasher] {s : Server} {l : Calls}

theorem teamless_adds {x : Session} {ω : Stream' Env} {task : Task} {r : Except String Unit × Server}
    (hl : Adds s x ω task r l) : l.Teamless := by
  have hnil : ∀ {o : Op}, (∀ s : Server, s.posts o = []) → o.Teamless := Op.teamless_of_posts
  cases hl with
  | refused hl =>
    refine List.forall_mem_append.2 ⟨hl.teamless, ?_⟩
    rw [List.forall_mem_cons, List.forall_mem_singleton]
    exact ⟨hnil fun _ => rfl, Op.teamless_sendToDevice rfl⟩
  | queued hl hl' =>
    refine List.forall_mem_append.2 ⟨hl.teamless, List.forall_mem_cons.2 ⟨hnil fun _ => rfl, ?_⟩⟩
    refine List.forall_mem_append.2 ⟨hl'.teamless, ?_⟩
    rw [List.forall_mem_singleton]
    exact Op.teamless_broadcastToTeam rfl
  | assigned hl hl' =>
    refine List.forall_mem_append.2 ⟨hl.teamless, List.forall_mem_cons.2 ⟨hnil fun _ => rfl, ?_⟩⟩
    refine List.forall_mem_append.2 ⟨hl'.teamless, ?_⟩
    rw [List.forall_mem_cons, List.forall_mem_cons, List.forall_mem_singleton]
    exact ⟨hnil fun _ => rfl, Op.teamless_sendToDevice rfl, Op.teamless_broadcastToTeam rfl⟩

theorem teamless_reports {teamId taskId : Uuid} {ready : Task → Prop} {new : Task → Task}
    {message : Task → ServerMessage} {e e' : Env} (hm : ∀ q, (message q).entered? = none)
    (hl : Reports s teamId taskId ready new message e e' l) : l.Teamless := by
  have hnil : ∀ {o : Op}, (∀ s : Server, s.posts o = []) → o.Teamless := Op.teamless_of_posts
  rcases hl with ⟨q, -, -, -, -, -, hr⟩ | ⟨hidle, -⟩
  · cases hr with
    | failed hl =>
      refine List.forall_mem_append.2 ⟨hl.teamless, ?_⟩
      rw [List.forall_mem_singleton]
      exact hnil fun _ => rfl
    | stored hl =>
      refine List.forall_mem_append.2 ⟨hl.teamless, ?_⟩
      rw [List.forall_mem_cons, List.forall_mem_singleton]
      exact ⟨hnil fun _ => rfl, Op.teamless_broadcastToTeam (hm q)⟩
  · exact fun c hc s' p hp => (hidle.plain c hc s' p hp).2

theorem teamless_releases {teamId taskId : Uuid} (hl : Releases s teamId taskId l) : l.Teamless := by
  have hnil : ∀ {o : Op}, (∀ s : Server, s.posts o = []) → o.Teamless := Op.teamless_of_posts
  cases hl with
  | skipped => exact fun _ hc => absurd hc List.not_mem_nil
  | failed => exact List.forall_mem_singleton.2 (hnil fun _ => rfl)
  | released =>
    rw [Calls.Teamless, List.forall_mem_cons, List.forall_mem_singleton]
    exact ⟨hnil fun _ => rfl, Op.teamless_broadcastToTeam rfl⟩

theorem teamless_sweep (ω : Stream' Env) : Calls.Teamless (checkAllTaskTimeouts.calls Server.act ω s) := by
  refine calls_checkAllTaskTimeouts (P := Calls.Teamless) ?_ ?_ ?_ ω
  · intro s' l hl
    exact hl.teamless
  · intro l l' h h'
    exact List.forall_mem_append.2 ⟨h, h'⟩
  · intro s' t id l _ _ hl
    exact teamless_releases hl

variable [AuthDeps]

theorem teamless_text {key : SessionKey} {msg : ClientMessage} {p : Session → M Unit}
    (hp : (Job.text key msg).code = do if let some session ← call (.getSession key) then p session)
    {ω : Stream' Env} (h : ∀ x, Calls.Teamless ((p x).calls Server.act ω.tail s)) :
    (s.calls (.text key msg, ω)).Teamless := by
  rw [Server.calls_text hp]
  refine List.forall_mem_cons.2 ⟨Op.teamless_of_posts fun _ => rfl, ?_⟩
  cases s.session key with
  | none => exact fun _ hc => absurd hc List.not_mem_nil
  | some x => exact h x

theorem Server.entry_or_teamless (s : Server) (j : Job) (ω : Stream' Env) :
    (∃ x team, s.entry ω j = some (x, team) ∧ Entry s ω x team (s.calls (j, ω))) ∨
      s.entry ω j = none ∧ (s.calls (j, ω)).Teamless := by
  have hplain : j.plain → (s.calls (j, ω)).Teamless := fun hj c hc s' p hp =>
    (Server.calls_plain hj ω s c hc s' p hp).2
  cases j with
  | connect | disconnect => exact .inr ⟨rfl, hplain rfl⟩
  | sweep => exact .inr ⟨rfl, teamless_sweep ω⟩
  | text key msg =>
    cases msg with
    | register | heartbeat | requestFile | leaveTeam => exact .inr ⟨rfl, hplain rfl⟩
    | createTeam name =>
      exact (entry_createTeam s key name ω).imp_right fun h => ⟨h.1, fun c hc s' p hp => (h.2 c hc s' p hp).2⟩
    | joinTeam code =>
      exact (entry_joinTeam s key code ω).imp_right fun h => ⟨h.1, fun c hc s' p hp => (h.2 c hc s' p hp).2⟩
    | addTask url =>
      refine .inr ⟨rfl, teamless_text (p := fun x => handleAddTask x.deviceId x.teamId url) rfl fun x => ?_⟩
      exact teamless_adds (calls_handleAddTask s x url ω.tail)
    | claimTask taskId =>
      refine .inr ⟨rfl, teamless_text (p := fun x => handleClaimTask x.deviceId x.teamId taskId) rfl fun x => ?_⟩
      exact teamless_reports (fun _ => rfl) (calls_handleClaimTask s x.deviceId x.teamId taskId ω.tail)
    | updateProgress taskId progress =>
      refine .inr ⟨rfl, teamless_text
        (p := fun x => handleUpdateProgress x.deviceId x.teamId taskId progress) rfl fun x => ?_⟩
      exact teamless_reports (fun _ => rfl) (calls_handleUpdateProgress s x.deviceId x.teamId taskId progress ω.tail)
    | taskComplete taskId localPath fileSize =>
      refine .inr ⟨rfl, teamless_text
        (p := fun x => handleTaskComplete x.deviceId x.teamId taskId localPath fileSize) rfl fun x => ?_⟩
      exact teamless_reports (fun _ => rfl)
        (calls_handleTaskComplete s x.deviceId x.teamId taskId localPath fileSize ω.tail)

/-! ### One job -/

/-- The job sends a session of the device that it is in the team. -/
def Server.TellsEntry (s : Server) (y : Job × Stream' Env) (deviceId teamId : Uuid) : Prop :=
  ∃ p ∈ s.posted y, p.1.deviceId = deviceId ∧ ∃ team, p.2.entered? = some team ∧ team.id = teamId

theorem tellsEntry_iff (y : Job × Stream' Env) (deviceId teamId : Uuid) :
    s.TellsEntry y deviceId teamId ↔
      ∃ x team, s.entry y.2 y.1 = some (x, team) ∧ x.deviceId = deviceId ∧ team.id = teamId := by
  obtain ⟨j, ω⟩ := y
  rcases s.entry_or_teamless j ω with ⟨x, team, hentry, hl⟩ | ⟨hentry, hl⟩
  · generalize hcalls : s.calls (j, ω) = l at hl
    obtain @⟨c, c', s', key, message, name, hc, -, hc', -, hx, hdevices, hteam, he⟩ := hl
    obtain ⟨s₁, s₂, hs₁, hs₂, henter⟩ := calls_enterTeam hx team message name (ω.drop 2)
    have hposted : s.posted (j, ω) = s₁.addressed (fun z => z.deviceId = x.deviceId) message := by
      rw [Server.posted, hcalls, henter]
      simp only [List.flatMap_cons, List.flatMap_nil, hc, hc']
      simp only [Server.posts, List.nil_append, List.append_nil]
    rw [Server.TellsEntry, hposted]
    constructor
    · rintro ⟨p, hp, hdevice, team', he', rfl⟩
      obtain ⟨-, hdevice', hmsg⟩ := Server.mem_addressed.1 hp
      rw [hmsg] at he'
      cases he.symm.trans he'
      exact ⟨x, team, hentry, (of_decide_eq_true hdevice').symm.trans hdevice, rfl⟩
    · rintro ⟨x', team', hentry', hdevice, hid⟩
      cases hentry.symm.trans hentry'
      refine ⟨({ x with teamId := team.id }, message), ?_, hdevice, team, he, hid⟩
      rw [hs₁]
      exact mem_posts_setTeam hx team.id message ((ω.drop 2).get 1)
  · constructor
    · rintro ⟨p, hp, -, team, he, -⟩
      obtain ⟨c, hc, hp⟩ := List.mem_flatMap.1 hp
      cases (hl c hc c.state p hp).symm.trans he
    · rintro ⟨x, team, hentry', -⟩
      cases hentry.symm.trans hentry'

/-- After a session has entered a team, there is a row with the nil id; it names the team, or a team that it named
before. -/
theorem exists_nil_of_entry {j : Job} {ω : Stream' Env} {x : Session} {team : Team}
    (hentry : s.entry ω j = some (x, team)) (hω : ∀ n, (ω.get n).fail = none) :
    ∃ r ∈ (s.handle (j, ω)).db.devices.rows, r.id = Uuid.nil ∧
      (r.teamId = team.id ∨ s.Member Uuid.nil r.teamId) := by
  rcases s.entry_or_teamless j ω with ⟨x', team', hentry', hl⟩ | ⟨hentry', -⟩
  · cases hentry.symm.trans hentry'
    generalize hcalls : s.calls (j, ω) = l at hl
    obtain @⟨c, c', s', key, message, name, hc, -, hc', -, hx, hdevices, hteam, he⟩ := hl
    obtain ⟨s₁, s₂, hs₁, hs₂, henter⟩ := calls_enterTeam hx team message name (ω.drop 2)
    have hdb : s₂.db = s'.db := by
      rw [hs₂, hs₁]
      rfl
    have hhandle : (s.handle (j, ω)).db =
        (s'.db.registerDevice none (.entering team name ((ω.drop 2).get 3).now)).2 := by
      have hfail : ((ω.drop 2).get 4).fail = none := hω 6
      rw [Server.handle_eq_last, hcalls, henter, ← hdb, ← hfail]
      rfl
    have hok : (s'.db.registerDevice none (.entering team name ((ω.drop 2).get 3).now)).1 = .ok () :=
      (Database.registerDevice_entering (Database.referencesTeam_of_mem hteam)).2 rfl
    rw [hhandle]
    obtain ⟨⟨f, hf, hkeep⟩, hex⟩ | ⟨-, hrows⟩ := Database.registerDevice_cases none s'.db
      (.entering team name ((ω.drop 2).get 3).now)
    · obtain ⟨r, hr, hid⟩ := hex hok
      refine ⟨f r, ?_, (hkeep r).1.trans hid, .inr ⟨r, hdevices ▸ hr, hid, (hkeep r).2.symm⟩⟩
      rw [hf]
      exact List.mem_map_of_mem hr
    · refine ⟨.entering team name ((ω.drop 2).get 3).now, ?_, rfl, .inl rfl⟩
      rw [hrows]
      exact List.mem_append_right _ (List.mem_singleton.2 rfl)
  · cases hentry.symm.trans hentry'

/-- `get_device_team_id` and `get_team_devices` know the device as one of the team's. -/
structure Registered (s : Server) (deviceId teamId : Uuid) : Prop where
  row : s.Member deviceId teamId
  lookup : (s.db.getDeviceTeamId none deviceId).1 = .ok (some teamId)
  listed : ∃ devices, (s.db.getTeamDevices none teamId).1 = .ok devices ∧ ∃ r ∈ devices, r.id = deviceId

omit [DefaultHasher] [AuthDeps] in
theorem Registered.of_member {deviceId teamId : Uuid} (h : s.Member deviceId teamId) :
    Registered s deviceId teamId := by
  obtain ⟨r, hr, rfl, rfl⟩ := id h
  refine ⟨h, ?_, _, rfl, r, List.mem_filter.2 ⟨hr, decide_eq_true rfl⟩, rfl⟩
  have hfind : s.db.devices.rows.find? (fun d => d.id = r.id) = some r := by
    refine s.db.devices.find?_eq_some hr (decide_eq_true rfl) fun d hd => ?_
    exact ⟨of_decide_eq_true hd, (of_decide_eq_true hd).symm⟩
  simp only [Database.getDeviceTeamId, Database.query, hfind, Option.map_some]

/-- The `devices` table records that the device has entered the team at the job: the row is there as long as no later
job tells the device of another team, and the rows of the other devices are what they were. -/
structure Recorded (s : Server) (y : Job × Stream' Env) (later : List (Job × Stream' Env))
    (deviceId teamId : Uuid) : Prop where
  registered : ∀ zs, zs <+: later →
    (∀ ws z, ws ++ [z] <+: zs → ∀ t, ((s.handle y).handleAll ws).TellsEntry z deviceId t → t = teamId) →
      Registered ((s.handle y).handleAll zs) deviceId teamId
  others : ((s.handle y).db.devices.rows.filter fun r => r.id ≠ deviceId) =
    s.db.devices.rows.filter fun r => r.id ≠ deviceId

/-- A session that the job brings into a team has the nil device id, and the row with that id names no other team. -/
def EntersAsNil (s : Server) (y : Job × Stream' Env) : Prop :=
  ∀ x team, s.entry y.2 y.1 = some (x, team) →
    x.deviceId = Uuid.nil ∧ ∀ r ∈ s.db.devices.rows, r.id = Uuid.nil → r.teamId = team.id

/-- The step lemma. -/
theorem recorded_iff (hs : s.OnlyNil) {y : Job × Stream' Env} (hy : ∀ n, (y.2.get n).fail = none)
    (later : List (Job × Stream' Env)) :
    (∀ deviceId teamId, s.TellsEntry y deviceId teamId → Recorded s y later deviceId teamId) ↔ EntersAsNil s y := by
  have hs' := hs.handle y
  constructor
  · intro h x team hentry
    have htells := (tellsEntry_iff y x.deviceId team.id).2 ⟨x, team, hentry, rfl, rfl⟩
    have hreg := (h x.deviceId team.id htells).registered [] List.nil_prefix fun ws z hws => by simp at hws
    obtain ⟨r', hr', hid', hteam'⟩ := hreg.row
    have hnil : x.deviceId = Uuid.nil := hid'.symm.trans (hs' r' hr')
    refine ⟨hnil, fun r hr hid => ?_⟩
    -- the row is still there, and it is the one that was found
    obtain ⟨r'', hr'', hid'', hteam''⟩ := Server.Member.handle ⟨r, hr, hid, rfl⟩ y
    have hsame : r'' = r' := by
      refine (s.handle y).db.devices.eq_of_clash hr'' hr' ?_ ?_
      · exact hid''.trans (hs' r' hr').symm
      · exact (hs' r' hr').trans hid''.symm
    rw [← hteam'', hsame, hteam']
  · intro h deviceId teamId htells
    obtain ⟨x, team, hentry, rfl, rfl⟩ := (tellsEntry_iff y deviceId teamId).1 htells
    obtain ⟨hnil, hteam⟩ := h x team hentry
    have hmember : (s.handle y).Member x.deviceId team.id := by
      obtain ⟨r, hr, hid, hr' | ⟨r₀, hr₀, hid₀, hr'⟩⟩ := exists_nil_of_entry hentry hy
      · exact ⟨r, hr, hid.trans hnil.symm, hr'⟩
      · exact ⟨r, hr, hid.trans hnil.symm, hr'.symm.trans (hteam r₀ hr₀ hid₀)⟩
    constructor
    · intro zs _ _
      exact .of_member (hmember.handleAll zs)
    · rw [hnil, List.filter_eq_nil_iff.2, List.filter_eq_nil_iff.2]
      · intro r hr
        simp [hs r hr]
      · intro r hr
        simp [hs' r hr]

/-- Jobs handled one at a time from an empty database, none of whose calls fails: the table records every entry that
a device is told of if and only if all who enter have the nil device id and the team is the one of the nil row. -/
theorem registry_iff (foreignKeys : Bool) (xs : List (Job × Stream' Env))
    (hxs : ∀ x ∈ xs, ∀ n, (x.2.get n).fail = none) :
    (∀ as y bs, as ++ y :: bs = xs → ∀ deviceId teamId,
      ((Server.new foreignKeys).handleAll as).TellsEntry y deviceId teamId →
        Recorded ((Server.new foreignKeys).handleAll as) y bs deviceId teamId) ↔
      ∀ as y bs, as ++ y :: bs = xs → EntersAsNil ((Server.new foreignKeys).handleAll as) y := by
  refine forall₄_congr fun as y bs has => ?_
  have hnew : (Server.new foreignKeys).OnlyNil := fun _ hr => absurd hr List.not_mem_nil
  exact recorded_iff (hnew.handleAll as) (hxs y (has ▸ List.mem_append_right _ List.mem_cons_self)) bs

end

namespace Sample

/-- A connection that registers with the nil device id creates a team. -/
def nilMember : List (Job × Stream' Env) :=
  [(.connect 101 firstMsg, always 0 "" 1000), (.text 101 (.register 0 0 "a"), always 0 "" 1000),
    (.text 101 (.createTeam "a"), always 10 "code" 1000)]

theorem registry_iff_nilMember :
    ((Server.new true).handleAll nilMember).db.devices.rows.map (fun r => (r.id, r.teamId)) = [(0, 10)] ∧
      ∀ as y bs, as ++ y :: bs = nilMember → ∀ deviceId teamId,
        ((Server.new true).handleAll as).TellsEntry y deviceId teamId →
          Recorded ((Server.new true).handleAll as) y bs deviceId teamId := by
  constructor
  · rw [nilMember, handleAll_connect]
    decide +kernel
  refine (registry_iff true nilMember ?_).2 fun as y bs has x team hentry => ?_
  · simp only [nilMember, List.forall_mem_cons]
    exact ⟨fun _ => rfl, fun _ => rfl, fun _ => rfl, fun _ h => absurd h List.not_mem_nil⟩
  · unfold nilMember at has
    obtain _ | ⟨z₁, _ | ⟨z₂, _ | ⟨z₃, as⟩⟩⟩ := as <;>
      simp only [List.nil_append, List.cons_append, List.cons.injEq] at has
    · rw [has.1] at hentry
      cases hentry
    · rw [has.2.1] at hentry
      cases hentry
    · obtain ⟨rfl, rfl, rfl, rfl⟩ := has
      have hregistered : connected.handleAll [(.text 101 (.register 0 0 "a"), always 0 "" 1000)] =
          { Server.new true with sessions := Table.empty.put ⟨101, 0, 0⟩ } := by decide +kernel
      rw [handleAll_connect, hregistered] at hentry ⊢
      cases hentry
      exact ⟨rfl, fun r hr => absurd hr List.not_mem_nil⟩
    · simp at has

/-- Device 1 creates a team and is told so, and the table does not know it. -/
theorem not_recorded_oneMember :
    ((Server.new true).handleAll (oneMember.take 1)).TellsEntry
        (.text 101 (.createTeam "a"), always 10 "code" 1000) 1 10 ∧
      ¬ Recorded ((Server.new true).handleAll (oneMember.take 1))
        (.text 101 (.createTeam "a"), always 10 "code" 1000) [] 1 10 := by
  have hfirst : (Server.new true).handleAll (oneMember.take 1) = connected := handleAll_connect []
  have hentry : connected.entry (always 10 "code" 1000) (.text 101 (.createTeam "a")) =
      some (⟨101, 1, 0⟩, ⟨10, "a", "code", 1000000000000⟩) := by decide +kernel
  rw [hfirst]
  refine ⟨(tellsEntry_iff _ 1 10).2 ⟨_, _, hentry, rfl, rfl⟩, fun h => ?_⟩
  obtain ⟨r, hr, hid, -⟩ := (h.registered [] List.prefix_rfl fun ws z hws => by simp at hws).row
  have hnil : ∀ r ∈ ((connected.handle
      (.text 101 (.createTeam "a"), always 10 "code" 1000)).handleAll []).db.devices.rows, r.id = 0 := by
    decide +kernel
  exact absurd (hid.symm.trans (hnil r hr)) (by decide)

end Sample

end XVideoDownloader
