import XVideoDownloader.Types
import XVideoDownloader.Text

/-!
# Authentication tokens (`crypto/auth.rs`)

The `uuid` crate's text form and its parser, HMAC-SHA256 in hexadecimal and the environment variable of
the shared secret are not part of the repository: they are the fields of `AuthDeps`.
-/

namespace XVideoDownloader

class AuthDeps where
  /-- `Uuid`'s `Display`. -/
  uuidText : Uuid → String
  /-- `Uuid::parse_str`. -/
  parseStr : String → Option Uuid
  /-- `hex::encode` of the HMAC-SHA256 of a message under a key. -/
  hmacHex : String → String → String
  /-- The environment variable `WEBSOCKET_SHARED_SECRET`, where it is set. -/
  sharedSecretVar : Option String

structure AuthToken where
  teamId : Uuid
  deviceId : Uuid
  timestamp : Nat
  signature : String
  deriving DecidableEq

inductive AuthError
  | tokenExpired
  | invalidSignature
  | invalidFormat
  deriving DecidableEq

variable [AuthDeps]

def getSharedSecret : String :=
  AuthDeps.sharedSecretVar.getD "ws-auth-dev-secret-key-do-not-use-in-production"

namespace AuthToken

def hmacSign (message : String) : String := AuthDeps.hmacHex getSharedSecret message

def signedText (teamId deviceId : Uuid) (timestamp : Nat) : String :=
  AuthDeps.uuidText teamId ++ ":" ++ AuthDeps.uuidText deviceId ++ ":" ++ toString timestamp

def generate (now : Nat) (teamId deviceId : Uuid) : AuthToken :=
  ⟨teamId, deviceId, now, hmacSign (signedText teamId deviceId now)⟩

def parse (tokenStr : String) : Except AuthError AuthToken :=
  match Text.rsplitOnce ':' tokenStr with
  | none => .error .invalidFormat
  | some (rest, signature) =>
    match Text.rsplitOnce ':' rest with
    | none => .error .invalidFormat
    | some (mid, timestampStr) =>
      match Text.rsplitOnce ':' mid with
      | none => .error .invalidFormat
      | some (teamIdStr, deviceIdStr) =>
        match AuthDeps.parseStr teamIdStr, AuthDeps.parseStr deviceIdStr,
            Text.parseU64 timestampStr with
        | some teamId, some deviceId, some timestamp => .ok ⟨teamId, deviceId, timestamp, signature⟩
        | _, _, _ => .error .invalidFormat

/-- The five-minute window, then the signature. The sum is one of 64 bits and wraps, as in a release
build. -/
def verify (now : Nat) (t : AuthToken) : Except AuthError Unit :=
  if now > (t.timestamp + 300) % UInt64.size then .error .tokenExpired
  else if t.signature ≠ hmacSign (signedText t.teamId t.deviceId t.timestamp) then
    .error .invalidSignature
  else .ok ()

end AuthToken

/-! ### An instance to compute with -/

namespace Sample

def hexDigits (n : Nat) : Nat → List Char
  | 0 => []
  | width + 1 => hexDigits (n / 16) width ++ [Nat.digitChar (n % 16)]

def uuidText (u : Uuid) : String :=
  let ds := hexDigits u.toNat 32
  let group (i n : Nat) := (ds.drop i).take n
  String.ofList (['-'].intercalate [group 0 8, group 8 4, group 12 4, group 16 4, group 20 12])

def parseStr (text : String) : Option Uuid :=
  let digit (c : Char) := "0123456789abcdef".toList.idxOf c
  let u : Uuid := .ofNat 128 ((text.toList.filter (· ≠ '-')).foldl (fun n c => 16 * n + digit c) 0)
  if uuidText u = text then some u else none

/-- The default key; of the signatures, that of the one token that is used. -/
scoped instance auth : AuthDeps where
  uuidText := uuidText
  parseStr := parseStr
  hmacHex _ message :=
    if message = "00000000-0000-0000-0000-000000000000:00000000-0000-0000-0000-000000000001:1000" then
      "692772376469bd19a8730e8dbaceb5518d521a92ca75e4c85a07beebb3b962d7"
    else ""
  sharedSecretVar := none

def firstMsg : String :=
  "AUTH:00000000-0000-0000-0000-000000000000:00000000-0000-0000-0000-000000000001:1000:" ++
    "692772376469bd19a8730e8dbaceb5518d521a92ca75e4c85a07beebb3b962d7"

end Sample

end XVideoDownloader
