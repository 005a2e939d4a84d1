import XVideoDownloader.AuthMessage
import XVideoDownloader.RangeReply

/-!
# The window of a token

`verifyChecked` is `verify` with a checked sum, as in a debug build: `none` means that `timestamp + 300` left the 64
bits, which it does before the signature is looked at. Where it does not, `verify` returns the same
(`verify_of_verifyChecked`). The window has one side only: a signed token from the future is accepted, however far off
it is (`windowed_iff`).
-/

namespace XVideoDownloader
namespace AuthToken
variable [AuthDeps] {now : Nat} {t : AuthToken}

def Signed (t : AuthToken) : Prop := t.signature = hmacSign (signedText t.teamId t.deviceId t.timestamp)

instance : Decidable t.Signed := inferInstanceAs (Decidable (_ = _))

def verifyChecked (now : Nat) (t : AuthToken) : Option (Except AuthError Unit) := do
  let limit ← checkedAdd t.timestamp 300
  if now > limit then some (.error .tokenExpired)
  else if t.signature ≠ hmacSign (signedText t.teamId t.deviceId t.timestamp) then some (.error .invalidSignature)
  else some (.ok ())

theorem verifyChecked_overflow (h : UInt64.size ≤ t.timestamp + 300) : t.verifyChecked now = none := by
  rw [verifyChecked, checkedAdd, if_neg (by omega)]
  rfl

theorem verifyChecked_of_lt (h : t.timestamp + 300 < UInt64.size) : t.verifyChecked now = some (t.verify now) := by
  rw [verifyChecked, checkedAdd, if_pos h, verify, Nat.mod_eq_of_lt h]
  simp only [Option.bind_eq_bind, Option.bind_some, ← apply_ite some]

theorem verify_of_verifyChecked {r : Except AuthError Unit} (h : t.verifyChecked now = some r) : t.verify now = r := by
  by_cases hlt : t.timestamp + 300 < UInt64.size
  · rw [verifyChecked_of_lt hlt] at h
    exact Option.some.inj h
  · rw [verifyChecked_overflow (by omega)] at h
    cases h

/-- Without an overflow a token is accepted unless it is too old or its signature is another one. -/
theorem verify_eq_ok_iff (h : t.timestamp + 300 < UInt64.size) :
    t.verify now = .ok () ↔ now ≤ t.timestamp + 300 ∧ t.Signed := by
  rw [verify, Nat.mod_eq_of_lt h, Signed]
  by_cases hnow : now > t.timestamp + 300
  · simp only [if_pos hnow, reduceCtorEq, false_iff, not_and]
    omega
  · by_cases hsig : t.signature = hmacSign (signedText t.teamId t.deviceId t.timestamp)
    · rw [if_neg hnow, if_neg (not_not.2 hsig)]
      exact iff_of_true rfl ⟨by omega, hsig⟩
    · rw [if_neg hnow, if_pos hsig]
      exact iff_of_false (by simp) fun h => hsig h.2

/-- The sum does not overflow, and what is accepted is what is signed and at most five minutes off, on either side. -/
def Windowed (now : Nat) (t : AuthToken) : Prop :=
  ∃ r, t.verifyChecked now = some r ∧ (r = .ok () ↔ now ≤ t.timestamp + 300 ∧ t.timestamp ≤ now + 300 ∧ t.Signed)

theorem parse_timestamp_lt {tokenStr : String} (h : parse tokenStr = .ok t) : t.timestamp < UInt64.size := by
  unfold parse at h
  split at h
  · cases h
  split at h
  · cases h
  split at h
  · cases h
  split at h
  · rename_i hts
    cases h
    exact FileServer.parseU64_lt hts
  · cases h

/-- Of the tokens that are parsed, those have the window at `now` that end before the last 300 seconds of the `u64`s
and that are not signed for a time more than 300 seconds away. -/
theorem windowed_iff {tokenStr : String} (h : parse tokenStr = .ok t) (now : Nat) :
    t.timestamp < UInt64.size ∧
      (t.Windowed now ↔ t.timestamp + 300 < UInt64.size ∧ (t.timestamp ≤ now + 300 ∨ ¬ t.Signed)) := by
  refine ⟨parse_timestamp_lt h, ?_⟩
  by_cases hlt : t.timestamp + 300 < UInt64.size
  · rw [Windowed, verifyChecked_of_lt hlt]
    simp only [Option.some.injEq, exists_eq_left', verify_eq_ok_iff hlt, hlt, true_and]
    by_cases hsig : t.Signed
    · simp only [hsig, and_true, not_true_eq_false, or_false]
      omega
    · simp [hsig]
  · rw [Windowed, verifyChecked_overflow (by omega)]
    simp [hlt]

end AuthToken

namespace Sample
open AuthToken

/-- The token of `firstMsg`. -/
def signedToken : AuthToken := ⟨0, 1, 1000, "692772376469bd19a8730e8dbaceb5518d521a92ca75e4c85a07beebb3b962d7"⟩

def lastToken : AuthToken := ⟨0, 1, UInt64.size - 1, "aa"⟩

theorem signed_signedToken : signedToken.Signed := by decide +kernel

theorem parse_signedToken : parse signedToken.display = .ok signedToken :=
  parse_display authTexts (by decide) (by decide)

/-- A token that nobody signed stops a debug build, and a signed one is accepted 900 seconds too early. -/
theorem not_windowed_lastToken :
    (parse lastToken.display = .ok lastToken ∧ lastToken.verifyChecked 1000 = none ∧ ¬ lastToken.Windowed 1000) ∧
      parse signedToken.display = .ok signedToken ∧ signedToken.verify 100 = .ok () ∧ ¬ signedToken.Windowed 100 := by
  have hlast : lastToken.verifyChecked 1000 = none := verifyChecked_overflow (by decide)
  have hlt : signedToken.timestamp + 300 < UInt64.size := by decide
  have hok : signedToken.verify 100 = .ok () := (verify_eq_ok_iff hlt).2 ⟨by decide, signed_signedToken⟩
  refine ⟨⟨parse_display authTexts (by decide) (by decide), hlast, ?_⟩, parse_signedToken, hok, ?_⟩
  · rintro ⟨r, hr, -⟩
    cases hlast.symm.trans hr
  · rintro ⟨r, hr, hiff⟩
    rw [← verify_of_verifyChecked hr] at hiff
    exact absurd (hiff.1 hok).2.1 (by decide)

theorem windowed_iff_signedToken : signedToken.timestamp < UInt64.size ∧ (signedToken.Windowed 1000 ↔
    signedToken.timestamp + 300 < UInt64.size ∧ (signedToken.timestamp ≤ 1000 + 300 ∨ ¬ signedToken.Signed)) :=
  windowed_iff parse_signedToken 1000

end Sample

end XVideoDownloader
