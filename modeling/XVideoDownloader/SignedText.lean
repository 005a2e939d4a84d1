import XVideoDownloader.Freshness

/-!
# The signed text

What is signed is the text of two ids and a number with colons between them, written anew from the values that `parse`
has read. None of the three has a colon in its text, so it is cut back into them, and different values are signed as
different texts (`signedText_inj`). A signature so stands for one team, one device and one time, in whatever spelling a
token names them (`signature_binds`).
-/

namespace XVideoDownloader
namespace AuthToken
variable [AuthDeps] {now : Nat} {t : AuthToken}

/-- What is accepted is signed, at whatever time. -/
theorem signed_of_verify (h : t.verify now = .ok ()) : t.Signed := by
  unfold verify at h
  split at h
  · cases h
  split at h
  · cases h
  · exact not_not.1 ‹¬ t.signature ≠ _›

section
-- the texts of ids read back and have no colon
variable (huuid : ∀ id, AuthDeps.parseStr (AuthDeps.uuidText id) = some id)
  (hcolon : ∀ id, ':' ∉ (AuthDeps.uuidText id).toList)

include huuid in
theorem uuidText_inj {id id' : Uuid} (h : AuthDeps.uuidText id = AuthDeps.uuidText id') : id = id' := by
  have hparse := congrArg AuthDeps.parseStr h
  rwa [huuid, huuid, Option.some.injEq] at hparse

include huuid hcolon in
theorem signedText_inj {teamId teamId' deviceId deviceId' : Uuid} {timestamp timestamp' : Nat}
    (hlt : timestamp < UInt64.size) (hlt' : timestamp' < UInt64.size)
    (h : signedText teamId deviceId timestamp = signedText teamId' deviceId' timestamp') :
    teamId = teamId' ∧ deviceId = deviceId' ∧ timestamp = timestamp' := by
  -- the number is cut off at the last colon, and the ids at the one before
  have hlast := congrArg (Text.rsplitOnce ':') h
  rw [signedText, signedText, Text.rsplitOnce_append (Text.colon_not_mem_toString _),
    Text.rsplitOnce_append (Text.colon_not_mem_toString _), Option.some.injEq, Prod.mk.injEq] at hlast
  have hids := congrArg (Text.rsplitOnce ':') hlast.1
  rw [Text.rsplitOnce_append (hcolon _), Text.rsplitOnce_append (hcolon _), Option.some.injEq, Prod.mk.injEq] at hids
  have hnum := congrArg Text.parseU64 hlast.2
  rw [Text.parseU64_toString hlt, Text.parseU64_toString hlt', Option.some.injEq] at hnum
  exact ⟨uuidText_inj huuid hids.1, uuidText_inj huuid hids.2, hnum⟩

include huuid hcolon in
/-- The three values are told by the text that is signed. Where different texts have different signatures, two tokens
that are accepted with the same signature have them in common, however they were written. -/
theorem signature_binds :
    (∀ (teamId teamId' deviceId deviceId' : Uuid) (timestamp timestamp' : UInt64),
      signedText teamId deviceId timestamp.toNat = signedText teamId' deviceId' timestamp'.toNat →
        teamId = teamId' ∧ deviceId = deviceId' ∧ timestamp = timestamp') ∧
      (Function.Injective hmacSign →
        ∀ (tokenStr tokenStr' : String) (now now' : Nat) (t t' : AuthToken),
          parse tokenStr = .ok t → parse tokenStr' = .ok t' → t.verify now = .ok () → t'.verify now' = .ok () →
            t.signature = t'.signature →
              t.teamId = t'.teamId ∧ t.deviceId = t'.deviceId ∧ t.timestamp = t'.timestamp) := by
  constructor
  · intro teamId teamId' deviceId deviceId' timestamp timestamp' h
    obtain ⟨hteam, hdevice, hnum⟩ :=
      signedText_inj huuid hcolon timestamp.toNat_lt_size timestamp'.toNat_lt_size h
    exact ⟨hteam, hdevice, UInt64.toNat_inj.1 hnum⟩
  · intro hinj tokenStr tokenStr' now now' t t' hparse hparse' hverify hverify' hsig
    have htext : signedText t.teamId t.deviceId t.timestamp = signedText t'.teamId t'.deviceId t'.timestamp :=
      hinj ((signed_of_verify hverify).symm.trans (hsig.trans (signed_of_verify hverify')))
    exact signedText_inj huuid hcolon (parse_timestamp_lt hparse) (parse_timestamp_lt hparse') htext

end

end AuthToken

namespace Spelling
open AuthToken

/-- The one signature that is used, and no two texts with the same one. -/
scoped instance auth : AuthDeps where
  uuidText := Sample.uuidText
  parseStr := Sample.parseStr
  hmacHex _ message :=
    if message = "00000000-0000-0000-0000-000000000000:00000000-0000-0000-0000-000000000001:1000" then
      Sample.signedToken.signature
    else "-" ++ message
  sharedSecretVar := none

theorem hmacSign_injective : Function.Injective hmacSign := by
  have hfirst (message : String) : "-" ++ message ≠ Sample.signedToken.signature := by
    intro h
    have hlist := congrArg String.toList h
    simp [Sample.signedToken] at hlist
  intro message message' h
  simp only [hmacSign, AuthDeps.hmacHex] at h
  split at h <;> split at h
  · simp_all
  · exact absurd h.symm (hfirst _)
  · exact absurd h (hfirst _)
  · simpa using h

/-- The token of the sample with a sign before its time. -/
def plusText : String :=
  AuthDeps.uuidText 0 ++ ":" ++ AuthDeps.uuidText 1 ++ ":" ++ "+1000" ++ ":" ++ Sample.signedToken.signature

def plusToken : AuthToken := ⟨0, 1, 1000, Sample.signedToken.signature⟩

theorem verify_signedToken {now : Nat} (h : now ≤ 1300) : Sample.signedToken.verify now = .ok () := by
  have hsigned : Sample.signedToken.Signed := by decide +kernel
  exact (verify_eq_ok_iff (by decide)).2 ⟨h, hsigned⟩

/-- Two spellings of one token. -/
theorem signature_binds_plusText :
    (signedText 0 1 (1000 : UInt64).toNat = signedText 0 1 (1000 : UInt64).toNat →
      (0 : Uuid) = 0 ∧ (1 : Uuid) = 1 ∧ (1000 : UInt64) = 1000) ∧
      Sample.signedToken.teamId = plusToken.teamId ∧ Sample.signedToken.deviceId = plusToken.deviceId ∧
        Sample.signedToken.timestamp = plusToken.timestamp := by
  have huuid (id : Uuid) : AuthDeps.parseStr (AuthDeps.uuidText id) = some id := Sample.parseStr_uuidText id
  have hcolon (id : Uuid) : ':' ∉ (AuthDeps.uuidText id).toList := Sample.colon_not_mem_uuidText id
  have hsig : ':' ∉ Sample.signedToken.signature.toList := by decide
  have hdisplay : parse Sample.signedToken.display = .ok Sample.signedToken :=
    parse_join huuid hcolon (Text.parseU64_toString (by decide)) (Text.colon_not_mem_toString _) hsig
  have hplus : parse plusText = .ok plusToken := parse_join huuid hcolon (by decide) (by decide) hsig
  have h := signature_binds huuid hcolon
  exact ⟨h.1 0 0 1 1 1000 1000, h.2 hmacSign_injective _ _ 1000 1001 _ _ hdisplay hplus
    (verify_signedToken (by decide)) (verify_signedToken (by decide)) rfl⟩

end Spelling

end XVideoDownloader
