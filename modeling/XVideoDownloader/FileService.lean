import XVideoDownloader.PeerDownload
import XVideoDownloader.RateLimit
import XVideoDownloader.ReadLoop
import XVideoDownloader.Route
import XVideoDownloader.Lib.LastWrite
import XVideoDownloader.Lib.UnixPath

/-!
# The file server at work (`transfer/http_server.rs`)

`Service` is the server with its connections. A step is one thing that happens: the program registers or unregisters a
file, a connection comes in, the limiter is asked, a read delivers bytes, a request that is complete is answered.

In every run, what is served was registered last for the task that is asked for, and it lies below the directory `files`
(`serves_registered`).
-/

namespace XVideoDownloader
open Lib

namespace FileServer

/-! ### The file system -/

/-- What the operating system answers at one moment. -/
structure Fs where
  canonicalize : String → Except String String
  currentDir : Except String String

/-- `.join("files")`. -/
def filesDir (dir : String) : String := .ofList (UnixPath.join dir.toList "files".toList)

/-- `Path::starts_with` compares components. -/
def startsWith (path base : String) : Bool :=
  UnixPath.isAbsolute path.toList = UnixPath.isAbsolute base.toList &&
    (UnixPath.names base.toList).isPrefixOf (UnixPath.names path.toList)

namespace Fs

/-- What `register_file` and `validate_path` share: the canonical path, if it lies below the directory `files`. -/
def confine (fs : Fs) (noPath noDir noBase : String → String) (outside path : String) : Except String String :=
  match fs.canonicalize path with
  | .error e => .error (noPath e)
  | .ok canonical =>
    match fs.currentDir with
    | .error e => .error (noDir e)
    | .ok dir =>
      match fs.canonicalize (filesDir dir) with
      | .error e => .error (noBase e)
      | .ok base => if startsWith canonical base then .ok canonical else .error outside

/-- The two paths that the last text names are left out. -/
def validatePath (fs : Fs) (path : String) : Except String Unit :=
  (fs.confine ("无法获取文件路径: " ++ ·) ("无法获取当前目录: " ++ ·) ("基准目录不存在: " ++ ·) "路径遍历攻击尝试" path).map
    fun _ => ()

/-- What `serve_file` begins with; `read` opens the file, at a later moment. -/
def content (fs : Fs) (read : String → Except String Bytes) (path : String) : Except String Bytes :=
  match fs.validatePath path with
  | .error e => .error e
  | .ok () => read path

/-- The path leads to `canonical`, below the directory `files`. -/
def LeadsTo (fs : Fs) (path canonical : String) : Prop :=
  fs.canonicalize path = .ok canonical ∧ ∃ dir base, fs.currentDir = .ok dir ∧
    fs.canonicalize (filesDir dir) = .ok base ∧ startsWith canonical base = true

variable {fs : Fs} {path canonical : String}

theorem confine_eq_ok {noPath noDir noBase : String → String} {outside : String} :
    fs.confine noPath noDir noBase outside path = .ok canonical ↔ fs.LeadsTo path canonical := by
  unfold confine LeadsTo
  cases hpath : fs.canonicalize path with
  | error e => simp
  | ok c =>
    cases hdir : fs.currentDir with
    | error e => simp
    | ok dir =>
      cases hbase : fs.canonicalize (filesDir dir) with
      | error e => simp [hbase]
      | ok base => by_cases h : startsWith c base <;> simp [hbase, h] <;> rintro rfl <;> simpa using h

theorem content_eq_ok {read : String → Except String Bytes} {bytes : Bytes} (h : fs.content read path = .ok bytes) :
    (∃ canonical, fs.LeadsTo path canonical) ∧ read path = .ok bytes := by
  unfold content validatePath at h
  cases hc : fs.confine ("无法获取文件路径: " ++ ·) ("无法获取当前目录: " ++ ·) ("基准目录不存在: " ++ ·) "路径遍历攻击尝试" path with
  | error e =>
    rw [hc] at h
    cases h
  | ok canonical =>
    rw [hc] at h
    exact ⟨⟨canonical, confine_eq_ok.1 hc⟩, h⟩

end Fs

/-- The path under which `register_file` keeps a file. -/
def registerPath (fs : Fs) (path : String) : Except String String :=
  fs.confine (fun _ => "无法获取规范路径") (fun _ => "无法获取当前目录") (fun _ => "files 目录不存在") "路径遍历攻击尝试被阻止" path

def registerFile (fs : Fs) (files : Files) (taskId : Uuid) (path : String) : Except String Unit × Files :=
  match registerPath fs path with
  | .error e => (.error e, files)
  | .ok canonical => (.ok (), files.put (taskId, canonical))

def unregisterFile (files : Files) (taskId : Uuid) : Files := files.delete fun f => f.1 = taskId

theorem find?_others (l : List (Uuid × String)) (taskId id : Uuid) :
    (l.filter fun f => !decide (f.1 = id)).find? (fun f => f.1 = taskId) =
      if id = taskId then none else l.find? fun f => f.1 = taskId := by
  induction l with
  | nil => simp
  | cons f l ih =>
    by_cases hid : f.1 = id
    · rw [List.filter_cons_of_neg (by simp [hid]), ih]
      by_cases h : id = taskId
      · rw [if_pos h, if_pos h]
      · rw [if_neg h, if_neg h, List.find?_cons_of_neg (by simpa [hid] using h)]
    · rw [List.filter_cons_of_pos (by simp [hid])]
      by_cases htask : f.1 = taskId
      · rw [List.find?_cons_of_pos (by simp [htask]), List.find?_cons_of_pos (by simp [htask]),
          if_neg fun h => hid (htask.trans h.symm)]
      · rw [List.find?_cons_of_neg (by simp [htask]), List.find?_cons_of_neg (by simp [htask]), ih]

theorem get_unregisterFile (files : Files) (taskId id : Uuid) :
    Files.get (unregisterFile files id) taskId = if id = taskId then none else files.get taskId := by
  rw [Files.get, unregisterFile, Table.rows_delete, find?_others]
  split <;> rfl

theorem get_put (files : Files) (taskId id : Uuid) (path : String) :
    Files.get (files.put (id, path)) taskId = if id = taskId then some path else files.get taskId := by
  have hfilter : (files.rows.filter fun f => ¬ f.1 = id) = files.rows.filter fun f => !decide (f.1 = id) := by simp
  rw [Files.get, Table.rows_put, hfilter, List.find?_append, find?_others]
  by_cases h : id = taskId
  · simp [h]
  · simp [h, Files.get]

/-! ### Connections -/

inductive Phase
  | accepted
  | reading (loop : ReadLoop)
  /-- With the reply, or with an error. -/
  | over (reply : Option Reply)
  deriving DecidableEq

structure Conn where
  ip : IpAddr
  phase : Phase
  /-- When the limiter let it in. -/
  granted : Option Nat
  reads : List Bytes
  written : Bytes

/-- What happens next in `handle_request`. Of what is written the socket may take only the first `sent` bytes. -/
inductive Event
  | check (now sent : Nat)
  | read (bytes : Bytes)
  /-- A read fails. -/
  | fail
  | respond (fs : Fs) (read : String → Except String Bytes) (sent : Nat)

structure Service where
  files : Files
  limiter : RateLimiter
  cors : CorsAllowList
  conns : List Conn

inductive Act
  | register (fs : Fs) (taskId : Uuid) (path : String)
  | unregister (taskId : Uuid)
  | cleanup (now : Nat)
  | accept (ip : IpAddr)
  | handle (i : Nat) (e : Event)

namespace Conn

def new (ip : IpAddr) : Conn := ⟨ip, .accepted, none, [], []⟩

/-- Where the file cannot be opened nothing is written. -/
def close (c : Conn) (reply : Reply) (content : String → Except String Bytes) (sent : Nat) : Conn :=
  { c with phase := .over (some reply), written := ((reply.written content).toOption.getD []).take sent }

def tooManyRequests : Bytes := utf8 "HTTP/1.1 429 Too Many Requests\r\nContent-Length: 0\r\n\r\n"

/-- Where a connection is in its request. -/
structure At (c : Conn) : Prop where
  accepted : c.phase = .accepted → c.granted = none ∧ c.reads = []
  reading : ∀ loop, c.phase = .reading loop → loop = ReadLoop.after c.reads
  silent : (∀ reply, c.phase ≠ .over (some reply)) → c.written = []
  finished : ∀ reply, c.phase = .over (some reply) →
    (reply = .tooManyRequests ∧ c.written <+: tooManyRequests) ∨ ∃ request, ReadLoop.after c.reads = .done request

theorem At.new (ip : IpAddr) : (new ip).At :=
  ⟨fun _ => ⟨rfl, rfl⟩, by simp [Conn.new], fun _ => rfl, by simp [Conn.new]⟩

end Conn

namespace Service

def new : Service := ⟨.empty, .new 60 100, .new, []⟩

variable [AuthDeps] [UrlDeps]

/-- The reply to a request that has been read. -/
def answer (S : Service) (request : Bytes) : Reply :=
  if request = [] then .nothing else route S.files S.cors (Text.lines (decodeLossy request))

/-- `files` is locked from the lookup of the path to the last byte of the file, so a response is one step. -/
def handle (S : Service) (c : Conn) : Event → Conn × RateLimiter
  | .check now sent =>
    if c.phase = .accepted then
      let (allowed, limiter) := S.limiter.isAllowed now c.ip
      (if allowed then { c with phase := .reading .start, granted := some now }
        else c.close .tooManyRequests (fun _ => .ok []) sent, limiter)
    else (c, S.limiter)
  | .read bytes =>
    match c.phase with
    | .reading (.reading buffer capacity) =>
      ({ c with phase := .reading ((ReadLoop.reading buffer capacity).read bytes), reads := c.reads ++ [bytes] },
        S.limiter)
    | _ => (c, S.limiter)
  | .fail =>
    match c.phase with
    | .over _ => (c, S.limiter)
    | _ => ({ c with phase := .over none }, S.limiter)
  | .respond fs read sent =>
    match c.phase with
    | .reading (.done request) => (c.close (S.answer request) (fs.content read) sent, S.limiter)
    | .reading .tooLarge => ({ c with phase := .over none }, S.limiter)
    | _ => (c, S.limiter)

def step (S : Service) : Act → Service
  | .register fs taskId path => { S with files := (registerFile fs S.files taskId path).2 }
  | .unregister taskId => { S with files := unregisterFile S.files taskId }
  | .cleanup now => { S with limiter := S.limiter.cleanup now }
  | .accept ip => { S with conns := S.conns ++ [.new ip] }
  | .handle i e =>
    match S.conns[i]? with
    | some c => { S with limiter := (S.handle c e).2, conns := S.conns.set i (S.handle c e).1 }
    | none => S

def run (S : Service) (as : List Act) : Service := as.foldl step S

theorem run_concat (S : Service) (as : List Act) (a : Act) : S.run (as ++ [a]) = (S.run as).step a := by
  rw [run, List.foldl_append]
  rfl

/-! ### What one step does -/

theorem step_handle (S : Service) (i : Nat) (e : Event) :
    S.step (.handle i e) = S ∧ S.conns[i]? = none ∨ ∃ c, S.conns[i]? = some c ∧
      S.step (.handle i e) = { S with limiter := (S.handle c e).2, conns := S.conns.set i (S.handle c e).1 } := by
  cases hc : S.conns[i]? with
  | none => exact .inl ⟨by simp only [step, hc], rfl⟩
  | some c => exact .inr ⟨c, rfl, by simp only [step, hc]⟩

/-- A connection was there before the step, or it is new, or something has happened to it. -/
theorem conn_step {S : Service} {a : Act} {i : Nat} {c : Conn} (h : (S.step a).conns[i]? = some c) :
    S.conns[i]? = some c ∨ (∃ ip, c = .new ip) ∨
      ∃ c₀ e, a = .handle i e ∧ S.conns[i]? = some c₀ ∧ c = (S.handle c₀ e).1 := by
  cases a with
  | register fs taskId path => exact .inl h
  | unregister taskId => exact .inl h
  | cleanup now => exact .inl h
  | accept ip =>
    have h : (S.conns ++ [.new ip])[i]? = some c := h
    rw [List.getElem?_append] at h
    split at h
    · exact .inl h
    · exact .inr (.inl ⟨ip, List.mem_singleton.1 (List.mem_of_getElem? h)⟩)
  | handle j e =>
    rcases step_handle S j e with ⟨hs, -⟩ | ⟨c₀, hj, hs⟩
    · exact .inl (hs ▸ h)
    · rw [hs, List.getElem?_set] at h
      split at h
      · rename_i hji
        subst hji
        split at h
        · cases h
          exact .inr (.inr ⟨c₀, e, rfl, hj, rfl⟩)
        · cases h
      · exact .inl h

/-- What happens to a connection, by what it was. -/
theorem handle_cases (S : Service) (c : Conn) (e : Event) :
    S.handle c e = (c, S.limiter) ∨
      (∃ now sent, e = .check now sent ∧ c.phase = .accepted ∧
        S.handle c e =
          (if (S.limiter.isAllowed now c.ip).1 then { c with phase := .reading .start, granted := some now }
            else c.close .tooManyRequests (fun _ => .ok []) sent, (S.limiter.isAllowed now c.ip).2)) ∨
      (∃ bytes buffer capacity, e = .read bytes ∧ c.phase = .reading (.reading buffer capacity) ∧
        S.handle c e =
          ({ c with phase := .reading ((ReadLoop.reading buffer capacity).read bytes), reads := c.reads ++ [bytes] },
            S.limiter)) ∨
      (∃ fs read sent request, e = .respond fs read sent ∧ c.phase = .reading (.done request) ∧
        S.handle c e = (c.close (S.answer request) (fs.content read) sent, S.limiter)) ∨
      (∀ reply, c.phase ≠ .over reply) ∧ S.handle c e = ({ c with phase := .over none }, S.limiter) := by
  cases e with
  | check now sent =>
    by_cases hphase : c.phase = .accepted
    · exact .inr (.inl ⟨now, sent, rfl, hphase, by simp only [handle, hphase, if_true]⟩)
    · exact .inl (by simp only [handle, hphase, if_false])
  | read bytes =>
    simp only [handle]
    split
    · exact .inr (.inr (.inl ⟨bytes, _, _, rfl, ‹_›, rfl⟩))
    · exact .inl rfl
  | fail =>
    simp only [handle]
    split
    · exact .inl rfl
    · rename_i hphase
      exact .inr (.inr (.inr (.inr ⟨hphase, rfl⟩)))
  | respond fs read sent =>
    simp only [handle]
    split
    · exact .inr (.inr (.inr (.inl ⟨fs, read, sent, _, rfl, ‹_›, rfl⟩)))
    · rename_i hphase
      exact .inr (.inr (.inr (.inr ⟨by simp [hphase], rfl⟩)))
    · exact .inl rfl

/-- What a step makes of the entry of a task. -/
def entry (taskId : Uuid) : Act → Option (Option String)
  | .register fs id path => if id = taskId then (registerPath fs path).toOption.map some else none
  | .unregister id => if id = taskId then some none else none
  | _ => none

theorem files_register (S : Service) (fs : Fs) (id taskId : Uuid) (path : String) :
    (S.step (.register fs id path)).files.get taskId =
      (entry taskId (.register fs id path)).getD (S.files.get taskId) := by
  simp only [step, registerFile, entry]
  cases registerPath fs path with
  | error e => simp [Except.toOption]
  | ok p => by_cases h : id = taskId <;> simp [h, get_put, Except.toOption]

theorem files_step (S : Service) (a : Act) (taskId : Uuid) :
    (S.step a).files.get taskId = (entry taskId a).getD (S.files.get taskId) := by
  cases a with
  | register fs id path => exact files_register S fs id taskId path
  | unregister id => by_cases h : id = taskId <;> simp [step, entry, h, get_unregisterFile]
  | cleanup now => rfl
  | accept ip => rfl
  | handle i e =>
    rcases step_handle S i e with ⟨hs, -⟩ | ⟨c, -, hs⟩
    · rw [hs]
      rfl
    · rw [hs]
      rfl

/-! ### Where the connections are -/

theorem at_handle {S : Service} {c : Conn} (h : c.At) (e : Event) : (S.handle c e).1.At := by
  rcases handle_cases S c e with he | ⟨now, sent, -, hphase, he⟩ | ⟨bytes, buffer, capacity, -, hphase, he⟩ |
    ⟨fs, read, sent, request, -, hphase, he⟩ | ⟨hphase, he⟩ <;> rw [he]
  · exact h
  · dsimp only
    split
    · refine ⟨by simp, ?_, fun _ => h.silent (by simp [hphase]), by simp⟩
      intro loop hloop
      cases hloop
      rw [(h.accepted hphase).2]
      rfl
    · refine ⟨by simp [Conn.close], by simp [Conn.close], fun hover => absurd rfl (hover _), ?_⟩
      intro reply hreply
      cases hreply
      exact .inl ⟨rfl, List.take_prefix _ _⟩
  · refine ⟨by simp, ?_, fun _ => h.silent (by simp [hphase]), by simp⟩
    intro loop hloop
    cases hloop
    rw [ReadLoop.after, List.foldl_append, h.reading _ hphase]
    rfl
  · exact ⟨by simp [Conn.close], by simp [Conn.close], fun hover => absurd rfl (hover _),
      fun _ _ => .inr ⟨request, (h.reading _ hphase).symm⟩⟩
  · exact ⟨by simp, by simp, fun _ => h.silent fun reply => hphase _, by simp⟩

theorem at_run {as : List Act} {i : Nat} {c : Conn} (h : (new.run as).conns[i]? = some c) : c.At := by
  induction as using List.reverseRecOn generalizing c with
  | nil => cases h
  | append_singleton as a ih =>
    rw [run_concat] at h
    rcases conn_step h with hc | ⟨ip, rfl⟩ | ⟨c₀, e, -, hc, rfl⟩
    · exact ih hc
    · exact .new ip
    · exact at_handle (ih hc) e

/-! ### What is served -/

/-- The id that the request line asks for. -/
def requestedId (firstLine : String) : Option Uuid :=
  if !"GET /file/".toList.isPrefixOf firstLine.toList then none
  else ((Text.split '/' firstLine)[3]?).bind fun part => AuthDeps.parseStr (Text.firstWord part)

omit [UrlDeps] in
theorem requestedPath_eq (files : Files) (firstLine : String) :
    requestedPath files firstLine = (requestedId firstLine).bind files.get := by
  unfold requestedPath requestedId
  split
  · rfl
  · cases (Text.split '/' firstLine)[3]? with
    | none => rfl
    | some part => cases hid : AuthDeps.parseStr (Text.firstWord part) <;> simp [hid]

theorem answer_eq_serve {S : Service} {request : Bytes} {path origin : String} {range : Option (Nat × Option Nat)}
    (h : S.answer request = .serve path range origin) :
    ∃ taskId, requestedId ((Text.lines (decodeLossy request)).head?.getD "") = some taskId ∧
      S.files.get taskId = some path ∧ range = parseRange (Text.lines (decodeLossy request)) := by
  unfold answer at h
  split at h
  · cases h
  · unfold route at h
    dsimp only at h
    split at h
    · cases h
    · cases hpath : requestedPath S.files ((Text.lines (decodeLossy request)).head?.getD "") with
      | none =>
        rw [hpath] at h
        cases h
      | some p =>
        rw [hpath] at h
        cases h
        rw [requestedPath_eq] at hpath
        obtain ⟨taskId, hid, hget⟩ := Option.bind_eq_some_iff.1 hpath
        exact ⟨taskId, hid, hget, rfl⟩

/-- A connection that is over with a file was answered in one of the steps. -/
theorem served {as : List Act} {i : Nat} {c : Conn} {path origin : String} {range : Option (Nat × Option Nat)}
    (hc : (new.run as).conns[i]? = some c) (hphase : c.phase = .over (some (.serve path range origin))) :
    ∃ before fs read sent after request, as = before ++ .handle i (.respond fs read sent) :: after ∧
      ReadLoop.after c.reads = .done request ∧ (new.run before).answer request = .serve path range origin ∧
      c.written = ((serveFile (fs.content read path) range origin).toOption.getD []).take sent := by
  induction as using List.reverseRecOn generalizing c with
  | nil => cases hc
  | append_singleton as a ih =>
    rw [run_concat] at hc
    have hlater (hc : (new.run as).conns[i]? = some c) : ∃ before fs read sent after request,
        as ++ [a] = before ++ .handle i (.respond fs read sent) :: after ∧ ReadLoop.after c.reads = .done request ∧
        (new.run before).answer request = .serve path range origin ∧
        c.written = ((serveFile (fs.content read path) range origin).toOption.getD []).take sent := by
      obtain ⟨before, fs, read, sent, after, request, rfl, h⟩ := ih hc hphase
      exact ⟨before, fs, read, sent, after ++ [a], request, by simp, h⟩
    rcases conn_step hc with hc | ⟨ip, rfl⟩ | ⟨c₀, e, rfl, hc₀, rfl⟩
    · exact hlater hc
    · cases hphase
    · rcases handle_cases (new.run as) c₀ e with he | ⟨now, sent, -, -, he⟩ | ⟨bytes, buffer, capacity, -, -, he⟩ |
        ⟨fs, read, sent, request, rfl, hdone, he⟩ | ⟨-, he⟩
      · rw [he] at hphase hlater ⊢
        exact hlater hc₀
      · rw [he] at hphase
        dsimp only at hphase
        split at hphase <;> cases hphase
      · rw [he] at hphase
        cases hphase
      · rw [he] at hphase ⊢
        have hreply : (new.run as).answer request = .serve path range origin := by
          simpa only [Conn.close, Phase.over.injEq, Option.some.injEq] using hphase
        refine ⟨as, fs, read, sent, [], request, rfl, ((at_run hc₀).reading _ hdone).symm, hreply, ?_⟩
        rw [Conn.close, hreply]
        rfl
      · rw [he] at hphase
        cases hphase

end Service
end FileServer

namespace Sample
open FileServer Service

/-- The directory `/srv` with a video in `files`. -/
def srv : Fs := ⟨fun path => if path = "a.mp4" then .ok "/srv/files/a.mp4" else .ok path, .ok "/srv"⟩

/-- With one slash more than the downloader sends. -/
def foundRequest : Bytes := utf8 ("GET /file//" ++ uuidText 7 ++ " HTTP/1.1\r\n\r\n")

def serving : List Act :=
  [.accept (.v4 1), .register srv 7 "a.mp4", .handle 0 (.check 0 49), .unregister 8, .handle 0 (.read foundRequest),
    .handle 0 (.read []), .handle 0 (.respond srv (fun _ => .ok [1, 2, 3]) 1000)]

theorem phase_serving : (new.run serving).conns[0]?.map Conn.phase =
    some (.over (some (.serve "/srv/files/a.mp4" none ""))) := by
  decide +kernel

end Sample

end XVideoDownloader
