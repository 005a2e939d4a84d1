import XVideoDownloader.Handler
import XVideoDownloader.Route
import XVideoDownloader.Lib.HttpHead

/-!
# The authentication message

The client joins the fields of a token with colons, from the left (`Display`), and sends the text behind `AUTH:`.
The server cuts at the first colon, and `parse` at the last one, three times. No field but the last two pieces can
hold a colon, so every piece is what it was (`parse_display`).
-/

namespace XVideoDownloader
open Lib

namespace Text

theorem cut_append {c : Char} {l : List Char} (h : c ∉ l) (r : List Char) : cut c (l ++ c :: r) = some (l, r) := by
  induction l with
  | nil => simp [cut]
  | cons x l ih =>
    rw [List.mem_cons, not_or] at h
    rw [List.cons_append, cut, if_neg (Ne.symm h.1), ih h.2]
    rfl

theorem splitOnce_append {s : String} (h : ':' ∉ s.toList) (t : String) :
    splitOnce ':' (s ++ ":" ++ t) = some (s, t) := by
  have hlist : (s ++ ":" ++ t).toList = s.toList ++ ':' :: t.toList := by simp
  rw [splitOnce, hlist, cut_append h]
  simp

theorem rsplitOnce_append {t : String} (h : ':' ∉ t.toList) (s : String) :
    rsplitOnce ':' (s ++ ":" ++ t) = some (s, t) := by
  have hlist : (s ++ ":" ++ t).toList.reverse = t.toList.reverse ++ ':' :: s.toList.reverse := by simp
  rw [rsplitOnce, hlist, cut_append (by simpa using h)]
  simp

theorem colon_not_mem_toString (n : Nat) : ':' ∉ (toString n).toList := by
  rw [Nat.toString_eq_ofList_toDigits, String.toList_ofList]
  exact fun hmem => absurd (isDigit_toDigits hmem).2 (by decide)

theorem parseU64_toString {n : Nat} (h : n < UInt64.size) : parseU64 (toString n) = some n := by
  have hdigits : (toString n).toList = Nat.toDigits 10 n := by
    rw [Nat.toString_eq_ofList_toDigits, String.toList_ofList]
  have hvalue : digitsValue (Nat.toDigits 10 n) = n := by
    have hfold := Nat.ofDigitChars_ten_toDigits (n := n)
    rw [Nat.ofDigitChars_eq_foldl] at hfold
    exact hfold
  have hplus : ∀ ds, Nat.toDigits 10 n ≠ '+' :: ds := by
    intro ds he
    have hmem : '+' ∈ Nat.toDigits 10 n := he ▸ List.mem_cons_self
    exact absurd (isDigit_toDigits hmem).1 (by decide)
  have hall : (Nat.toDigits 10 n).all Char.isDigit = true :=
    List.all_eq_true.2 fun c hc => Nat.isDigit_of_mem_toDigits (by decide) (by decide) hc
  unfold parseU64
  rw [hdigits]
  split
  · rename_i ds he
    exact absurd he (hplus ds)
  · simp only [hvalue]
    rw [if_pos ⟨Nat.toDigits_ne_nil, hall, h⟩]

end Text

namespace AuthToken
variable [AuthDeps]

/-- `Display`. -/
def display (t : AuthToken) : String :=
  AuthDeps.uuidText t.teamId ++ ":" ++ AuthDeps.uuidText t.deviceId ++ ":" ++ toString t.timestamp ++ ":" ++ t.signature

end AuthToken

/-- What the client sends first on a connection. -/
def authMessage [AuthDeps] (t : AuthToken) : String := "AUTH:" ++ t.display

/-- The seconds since the epoch that a `SystemTime` can tell: the standard library counts them in an `i64`. -/
structure ClockSecs where
  secs : Nat
  secs_lt : secs < UInt64.size / 2

section
variable [AuthDeps]

/-- The texts of ids read back, and neither they nor the signatures contain a colon. -/
structure AuthTexts : Prop where
  uuid : ∀ id, AuthDeps.parseStr (AuthDeps.uuidText id) = some id
  colon_not_mem_uuid : ∀ id, ':' ∉ (AuthDeps.uuidText id).toList
  colon_not_mem_hex : ∀ key message, ':' ∉ (AuthDeps.hmacHex key message).toList

namespace AuthToken
variable {t : AuthToken}

/-- A time may be spelled in any way that is read. -/
theorem parse_join (h : ∀ id, AuthDeps.parseStr (AuthDeps.uuidText id) = some id)
    (hcolon : ∀ id, ':' ∉ (AuthDeps.uuidText id).toList) {teamId deviceId : Uuid} {timestampStr signature : String}
    {timestamp : Nat} (hts : Text.parseU64 timestampStr = some timestamp) (hnum : ':' ∉ timestampStr.toList)
    (hsig : ':' ∉ signature.toList) :
    parse (AuthDeps.uuidText teamId ++ ":" ++ AuthDeps.uuidText deviceId ++ ":" ++ timestampStr ++ ":" ++ signature) =
      .ok ⟨teamId, deviceId, timestamp, signature⟩ := by
  rw [parse, Text.rsplitOnce_append hsig]
  simp only [Text.rsplitOnce_append hnum, Text.rsplitOnce_append (hcolon _), h, hts]

theorem parse_display (h : AuthTexts) (hts : t.timestamp < UInt64.size) (hsig : ':' ∉ t.signature.toList) :
    parse t.display = .ok t :=
  parse_join h.uuid h.colon_not_mem_uuid (Text.parseU64_toString hts) (Text.colon_not_mem_toString _) hsig

theorem splitOnce_authMessage (t : AuthToken) : Text.splitOnce ':' (authMessage t) = some ("AUTH", t.display) := by
  have hauth : ':' ∉ "AUTH".toList := by decide
  have h := Text.splitOnce_append hauth t.display
  rwa [show "AUTH" ++ ":" = "AUTH:" from rfl] at h

/-- The server reads the token that the client sends. -/
theorem authResult_authMessage (h : AuthTexts) (hts : t.timestamp < UInt64.size) (hsig : ':' ∉ t.signature.toList) :
    WsServer.authResult (authMessage t) = some t := by
  rw [WsServer.authResult, splitOnce_authMessage]
  simp only [ne_eq, not_true_eq_false, if_false, parse_display h hts hsig]
  rfl

theorem verify_generate (g v : ClockSecs) (teamId deviceId : Uuid) (h : v.secs ≤ g.secs + 300) :
    (generate g.secs teamId deviceId).verify v.secs = .ok () := by
  have hwrap : (g.secs + 300) % UInt64.size = g.secs + 300 := by
    have hg := g.secs_lt
    simp only [UInt64.size] at hg ⊢
    omega
  rw [verify, generate, hwrap, if_neg (by omega), if_neg (by simp)]

/-- A token with a hexadecimal signature arrives as it was sent, and a generated one is accepted for five minutes. -/
theorem auth_round_trip (h : AuthTexts) :
    (∀ (teamId deviceId : Uuid) (timestamp : UInt64) (signature : String),
      (∀ c ∈ signature.toList, Text.isHex c = true) →
      Text.splitOnce ':' (authMessage ⟨teamId, deviceId, timestamp.toNat, signature⟩) =
          some ("AUTH", display ⟨teamId, deviceId, timestamp.toNat, signature⟩) ∧
        parse (display ⟨teamId, deviceId, timestamp.toNat, signature⟩) =
          .ok ⟨teamId, deviceId, timestamp.toNat, signature⟩) ∧
      ∀ (teamId deviceId : Uuid) (g v : ClockSecs), g.secs ≤ v.secs → v.secs ≤ g.secs + 300 →
        ∃ t, WsServer.authResult (authMessage (generate g.secs teamId deviceId)) = some t ∧
          t = generate g.secs teamId deviceId ∧ t.verify v.secs = .ok () := by
  constructor
  · intro teamId deviceId timestamp signature hhex
    refine ⟨splitOnce_authMessage _, parse_display h timestamp.toNat_lt_size ?_⟩
    intro hmem
    exact absurd (hhex _ hmem) (by decide)
  · intro teamId deviceId g v hle hlt
    have hts : (generate g.secs teamId deviceId).timestamp < UInt64.size := by
      have := g.secs_lt
      show g.secs < _
      omega
    exact ⟨_, authResult_authMessage h hts (h.colon_not_mem_hex _ _), rfl, verify_generate g v teamId deviceId hlt⟩

end AuthToken

end

namespace Sample

theorem hex_of_mem_hexDigits {n width : Nat} {c : Char} (h : c ∈ hexDigits n width) :
    ∃ d < 16, c = Nat.digitChar d := by
  induction width generalizing n with
  | zero => simp [hexDigits] at h
  | succ width ih =>
    rw [hexDigits, List.mem_append, List.mem_singleton] at h
    rcases h with h | rfl
    · exact ih h
    · exact ⟨n % 16, Nat.mod_lt _ (by decide), rfl⟩

theorem value_hexDigits (n width : Nat) :
    (hexDigits n width).foldl (fun n c => 16 * n + "0123456789abcdef".toList.idxOf c) 0 = n % 16 ^ width := by
  have hdigit : ∀ d < 16, "0123456789abcdef".toList.idxOf (Nat.digitChar d) = d := by decide
  induction width generalizing n with
  | zero => simp [hexDigits, Nat.mod_one]
  | succ width ih =>
    rw [hexDigits, List.foldl_append, ih, List.foldl_cons, List.foldl_nil, hdigit _ (Nat.mod_lt _ (by decide)),
      Nat.pow_succ', Nat.mod_mul]
    omega

theorem toList_uuidText (u : Uuid) : ∃ a b c d e, hexDigits u.toNat 32 = a ++ b ++ c ++ d ++ e ∧
    (uuidText u).toList = a ++ '-' :: b ++ '-' :: c ++ '-' :: d ++ '-' :: e := by
  have hlen := length_hexDigits u.toNat 32
  unfold uuidText
  generalize hexDigits u.toNat 32 = ds at hlen
  refine ⟨ds.take 8, (ds.drop 8).take 4, (ds.drop 12).take 4, (ds.drop 16).take 4, (ds.drop 20).take 12, ?_, ?_⟩
  · have hcut (i n : Nat) : ds.drop i = (ds.drop i).take n ++ ds.drop (i + n) := by
      rw [← List.drop_drop, List.take_append_drop]
    conv_lhs => rw [← List.take_append_drop 8 ds, hcut 8 4, hcut 12 4, hcut 16 4, hcut 20 12]
    have hend : ds.drop 32 = [] := List.drop_eq_nil_of_le (by omega)
    simp [hend]
  · simp [List.intercalate, List.intersperse]

/-- The groups are the digits, with four hyphens between them. -/
theorem filter_uuidText (u : Uuid) : (uuidText u).toList.filter (· ≠ '-') = hexDigits u.toNat 32 := by
  have hne : ∀ x ∈ hexDigits u.toNat 32, decide (x ≠ '-') = true := by
    intro x hx
    obtain ⟨d, hd, rfl⟩ := hex_of_mem_hexDigits hx
    exact (by decide : ∀ d < 16, decide (Nat.digitChar d ≠ '-') = true) d hd
  obtain ⟨a, b, c, d, e, hdigits, htext⟩ := toList_uuidText u
  have hfilter : (uuidText u).toList.filter (· ≠ '-') = (a ++ b ++ c ++ d ++ e).filter (· ≠ '-') := by
    simp [htext, List.filter_append]
  rw [hfilter, ← hdigits, List.filter_eq_self.2 hne]

theorem colon_not_mem_uuidText (u : Uuid) : ':' ∉ (uuidText u).toList := by
  intro h
  have hmem : ':' ∈ hexDigits u.toNat 32 := by
    rw [← filter_uuidText]
    exact List.mem_filter.2 ⟨h, by decide⟩
  obtain ⟨d, hd, he⟩ := hex_of_mem_hexDigits hmem
  exact (by decide : ∀ d < 16, ':' ≠ Nat.digitChar d) d hd he

theorem parseStr_uuidText (u : Uuid) : parseStr (uuidText u) = some u := by
  have hlt : u.toNat < 16 ^ 32 := u.isLt
  have hback : BitVec.ofNat 128 (u.toNat % 16 ^ 32) = u := by
    rw [Nat.mod_eq_of_lt hlt]
    exact BitVec.eq_of_toNat_eq (by rw [BitVec.toNat_ofNat, Nat.mod_eq_of_lt u.isLt])
  rw [parseStr]
  simp only [filter_uuidText, value_hexDigits, hback, if_true]

theorem authTexts : AuthTexts where
  uuid := parseStr_uuidText
  colon_not_mem_uuid := colon_not_mem_uuidText
  colon_not_mem_hex key message h := by
    change _ ∈ (if _ then _ else _ : String).toList at h
    split at h <;> revert h <;> decide

theorem firstMsg_eq :
    firstMsg = authMessage ⟨0, 1, 1000, "692772376469bd19a8730e8dbaceb5518d521a92ca75e4c85a07beebb3b962d7"⟩ := by
  decide +kernel

theorem authResult_firstMsg : WsServer.authResult firstMsg =
    some ⟨0, 1, 1000, "692772376469bd19a8730e8dbaceb5518d521a92ca75e4c85a07beebb3b962d7"⟩ := by
  rw [firstMsg_eq]
  exact AuthToken.authResult_authMessage authTexts (by decide) (by decide +kernel)

/-- Generated at 1000 and checked at 1300. -/
theorem auth_round_trip_thousand :
    Text.splitOnce ':' (authMessage ⟨0, 1, 1000, "deadbeef"⟩) =
        some ("AUTH", AuthToken.display ⟨0, 1, 1000, "deadbeef"⟩) ∧
      AuthToken.parse (AuthToken.display ⟨0, 1, 1000, "deadbeef"⟩) = .ok ⟨0, 1, 1000, "deadbeef"⟩ ∧
      ∃ t, WsServer.authResult (authMessage (.generate 1000 0 1)) = some t ∧
        t = .generate 1000 0 1 ∧ t.verify 1300 = .ok () := by
  have h := AuthToken.auth_round_trip authTexts
  have hsent := h.1 0 1 1000 "deadbeef" (List.all_eq_true.1 (by decide))
  exact ⟨hsent.1, hsent.2, h.2 0 1 ⟨1000, by decide⟩ ⟨1300, by decide⟩ (by decide) (by decide)⟩

end Sample

end XVideoDownloader
