import XVideoDownloader.Auth
import XVideoDownloader.Transfer
import XVideoDownloader.Lib.HttpHead
import XVideoDownloader.Lib.Table

/-!
# The file server (`transfer/http_server.rs`)

`handleRequest` reads a request and decides on a reply; `serveFile` writes a file, or a part of it. The URL
parser is a package: it is the field of `UrlDeps`. The arithmetic of `u64` wraps, as in a release build, and an
`Instant` is a number of nanoseconds.
-/

namespace XVideoDownloader
open Lib

class UrlDeps where
  /-- `origin.parse::<Url>()` and, where it succeeds, `host_str().unwrap_or("")`. -/
  hostStr : String → Option String

inductive IpAddr
  | v4 (address : BitVec 32)
  | v6 (address : BitVec 128)
  deriving DecidableEq

def maxRangeSize : Nat := 100 * 1024 * 1024

/-! ### The rate limiter -/

structure RateLimiter where
  windowSecs : Nat
  maxRequests : Nat
  requests : IpAddr → Option (List Nat)

namespace RateLimiter

def new (windowSecs maxRequests : Nat) : RateLimiter := ⟨windowSecs, maxRequests, fun _ => none⟩

def isAllowed (l : RateLimiter) (now : Nat) (ip : IpAddr) : Bool × RateLimiter :=
  let timestamps := ((l.requests ip).getD []).filter fun t => now - t < l.windowSecs * 1000000000
  let set (timestamps : List Nat) : RateLimiter :=
    { l with requests := fun ip' => if ip' = ip then some timestamps else l.requests ip' }
  if l.maxRequests ≤ timestamps.length then (false, set timestamps) else (true, set (timestamps ++ [now]))

/-- Expired entries go, and with them every address that has none left. -/
def cleanup (l : RateLimiter) (now : Nat) : RateLimiter :=
  { l with requests := fun ip =>
      let timestamps := (l.requests ip).map fun ts => ts.filter fun t => now - t < l.windowSecs * 1000000000
      timestamps.filter fun ts => !ts.isEmpty }

end RateLimiter

/-! ### Origins -/

structure CorsAllowList where
  origins : List String
  allowedHosts : List String

namespace CorsAllowList

def new : CorsAllowList := ⟨[], ["localhost", "127.0.0.1", "::1", "0.0.0.0"]⟩

def isLocalhost (host : String) : Bool :=
  host = "localhost" || host = "127.0.0.1" || host = "::1" || host = "0.0.0.0"

def isAllowed [UrlDeps] (cors : CorsAllowList) (origin : String) : Bool :=
  if origin = "" then true
  else
    match UrlDeps.hostStr origin with
    | some host => isLocalhost host || cors.origins.contains origin || cors.allowedHosts.contains host
    | none => false

def isOriginLine (line : String) : Bool := Text.startsWithLower line "origin:"

def getOriginFromRequest (lines : List String) : Option String :=
  match lines.find? isOriginLine with
  | some line => ((Text.split ':' line)[1]?).map Text.trim
  | none => none

def buildCorsHeaders (origin : String) : String :=
  if origin = "" then ""
  else "Access-Control-Allow-Origin: " ++ origin ++ "\r\n" ++ "Access-Control-Allow-Credentials: true"

end CorsAllowList

namespace FileServer

def parseRange (lines : List String) : Option (Nat × Option Nat) :=
  match lines.find? fun line => Text.startsWithLower line "range: bytes=" with
  | none => none
  | some line => do
    let rangeSpec ← (Text.split '=' line)[1]?
    let parts := Text.split '-' rangeSpec
    let start ← Text.parseU64 (parts[0]?.getD "")
    match parts[1]? with
    | none | some "" => some (start, none)
    | some part =>
      let stop ← Text.parseU64 part
      if stop < start then none else some (start, some stop)

/-! ### Serving a file -/

def rangeNotSatisfiable (corsHeaders : String) : String :=
  "HTTP/1.1 416 Range Not Satisfiable\r\n" ++
    "Content-Range: */\r\n" ++
    "Content-Length: 0\r\n" ++
    corsHeaders ++ "\r\n"

def partialContent (contentLength start stop fileSize : Nat) (corsHeaders : String) : String :=
  "HTTP/1.1 206 Partial Content\r\n" ++
    "Content-Type: application/octet-stream\r\n" ++
    "Content-Length: " ++ toString contentLength ++ "\r\n" ++
    "Content-Range: bytes " ++ toString start ++ "-" ++ toString stop ++ "/" ++ toString fileSize ++ "\r\n" ++
    "Accept-Ranges: bytes\r\n" ++
    corsHeaders ++ "\r\n"

def okHead (fileSize : Nat) (corsHeaders : String) : String :=
  "HTTP/1.1 200 OK\r\n" ++
    "Content-Type: application/octet-stream\r\n" ++
    "Content-Length: " ++ toString fileSize ++ "\r\n" ++
    "Accept-Ranges: bytes\r\n" ++
    corsHeaders ++ "\r\n"

/-- The path is validated and opened (`content`), or nothing is written; then what is written. -/
def serveFile (content : Except String Bytes) (range : Option (Nat × Option Nat)) (origin : String) :
    Except String Bytes := do
  let file ← content
  let fileSize := file.length
  let corsHeaders := CorsAllowList.buildCorsHeaders origin
  match range with
  | some (start, stop) =>
    if fileSize ≤ start then return utf8 (rangeNotSatisfiable corsHeaders)
    let stop := stop.getD (fileSize - 1)
    if stop < start then return utf8 (rangeNotSatisfiable corsHeaders)
    let rangeSize := (stop - start + 1) % UInt64.size
    if maxRangeSize < rangeSize then return utf8 (rangeNotSatisfiable corsHeaders)
    let stop := min stop (fileSize - 1)
    let contentLength := stop - start + 1
    -- the whole file is copied behind the head of a part
    return utf8 (partialContent contentLength start stop fileSize corsHeaders) ++ file
  | none => return utf8 (okHead fileSize corsHeaders) ++ file

/-! ### Handling a request -/

def maxRequestSize : Nat := 10 * 1024 * 1024

/-- The read loop: `reads` is what the reads deliver until the client shuts its side down. How much room the
buffer has only limits what one read delivers. -/
def readRequest : List Bytes → Bytes → Except String Bytes
  | reads, buffer =>
    if maxRequestSize ≤ buffer.length then .error "请求过大，超过 10MB 限制"
    else
      match reads with
      | [] | [] :: _ => .ok buffer
      | bytes :: reads => readRequest reads (buffer ++ bytes)

inductive Reply
  | tooManyRequests
  | nothing
  | forbidden
  | serve (path : String) (range : Option (Nat × Option Nat)) (origin : String)
  | notFound (origin : String)
  deriving DecidableEq

/-- What is written for a reply; `content` validates and opens a path. -/
def Reply.written (content : String → Except String Bytes) : Reply → Except String Bytes
  | tooManyRequests => .ok (utf8 "HTTP/1.1 429 Too Many Requests\r\nContent-Length: 0\r\n\r\n")
  | nothing => .ok []
  | forbidden => .ok (utf8 "HTTP/1.1 403 Forbidden\r\nContent-Length: 0\r\n\r\n")
  | serve path range origin => serveFile (content path) range origin
  | notFound origin =>
    let corsHeaders := CorsAllowList.buildCorsHeaders origin
    .ok <| utf8 <|
      if corsHeaders = "" then "HTTP/1.1 404 Not Found\r\nContent-Length: 0\r\n\r\n"
      else "HTTP/1.1 404 Not Found\r\nContent-Length: 0\r\n" ++ corsHeaders ++ "\r\n"

/-- The `HashMap` from task id to path. -/
abbrev Files := Table (Uuid × String) fun a b => a.1 = b.1

def Files.get (files : Files) (taskId : Uuid) : Option String :=
  (files.rows.find? fun f => f.1 = taskId).map Prod.snd

variable [AuthDeps] [UrlDeps]

/-- The request line: `GET /file/{task_id} HTTP/1.1`. -/
def requestedPath (files : Files) (firstLine : String) : Option String :=
  if !"GET /file/".toList.isPrefixOf firstLine.toList then none
  else
    -- the pieces between the slashes: the fourth is what follows the last slash of the protocol
    match (Text.split '/' firstLine)[3]? with
    | none => none
    | some part =>
      match AuthDeps.parseStr (Text.firstWord part) with
      | none => none
      | some taskId => files.get taskId

def route (files : Files) (cors : CorsAllowList) (lines : List String) : Reply :=
  let origin := (CorsAllowList.getOriginFromRequest lines).getD ""
  if !cors.isAllowed origin then .forbidden
  else
    match requestedPath files (lines.head?.getD "") with
    | some path => .serve path (parseRange lines) origin
    | none => .notFound origin

def handleRequest (files : Files) (limiter : RateLimiter) (cors : CorsAllowList) (now : Nat) (ip : IpAddr)
    (reads : List Bytes) : Except String Reply × RateLimiter :=
  let (allowed, limiter) := limiter.isAllowed now ip
  let reply : Except String Reply :=
    if !allowed then .ok .tooManyRequests
    else
      match readRequest reads [] with
      | .error e => .error e
      | .ok [] => .ok .nothing
      | .ok request => .ok (route files cors (Text.lines (decodeLossy request)))
  (reply, limiter)

end FileServer

end XVideoDownloader
