import XVideoDownloader.Stun

/-!
# Hostile STUN responses

The walk reads heads of attributes only where four bytes and one more are left, and every subtraction is guarded by
the check of the length of the datagram (`parseChecked_eq`). The decoder, however, checks the length that the sender
claims against four and against what is there, and then reads eight bytes: a datagram makes it panic exactly if it is
a `ShortAddress` (`parse_total_iff`). The walk itself is not led astray: it decodes the first XOR-MAPPED-ADDRESS,
whatever the values before it contain (`parse_first`).
-/

namespace XVideoDownloader
open Lib

namespace Stun

variable {data v rest : Bytes} {cookie : UInt32} {length : Nat}

/-- What a panic says where an index or a difference is out of range. -/
def panicMessages : List String := ["index out of bounds", "attempt to subtract with overflow"]

def Panics {α : Type} (r : Except String α) : Prop := ∃ message ∈ panicMessages, r = .error message

theorem not_panics_ok {α : Type} (a : α) : ¬ Panics (.ok a : Except String α) := by
  rintro ⟨message, -, ⟨⟩⟩

theorem panics_error {α : Type} {e : String} : Panics (.error e : Except String α) ↔ e ∈ panicMessages := by
  constructor
  · rintro ⟨message, hmem, ⟨⟩⟩
    exact hmem
  · exact fun h => ⟨e, h, rfl⟩

/-- A message of the parser's own. -/
theorem not_panics_error {α : Type} {e : String} (h : e ∉ panicMessages) : ¬ Panics (.error e : Except String α) :=
  mt panics_error.1 h

/-- The loop with the subtraction of its condition checked. -/
def searchChecked (data : Bytes) (cookie : UInt32) (offset : Nat) : Except String (String × UInt16) := do
  if data.length < 4 then throw "attempt to subtract with overflow"
  if _h : offset < data.length - 4 then
    let attrType ← u16At data offset
    let attrLength ← u16At data (offset + 2)
    if attrType = attrXorMappedAddress then parseXorAddress (data.drop (offset + 4)) attrLength.toNat cookie
    else searchChecked data cookie (offset + (4 + padded attrLength.toNat))
  else throw "XOR-MAPPED-ADDRESS not found"
termination_by data.length - offset

/-- `parse_xor_mapped_address` with that loop. -/
def parseChecked (data : Bytes) : Except String (String × UInt16) := do
  if data.length < headerLen + 4 then throw "STUN response too short"
  let msgType ← u16At data 0
  let _msgLength ← u16At data 2
  if msgType ≠ methodBindingResponse then
    throw ("Expected Binding Response (0x" ++ hex4 methodBindingResponse ++ "), got 0x" ++ hex4 msgType)
  let cookie ← u32At data 4
  if cookie ≠ magicCookie then throw "Invalid magic cookie"
  searchChecked data cookie headerLen

theorem searchChecked_eq (h : 4 ≤ data.length) (offset : Nat) :
    searchChecked data cookie offset = searchAttributes data cookie offset := by
  induction offset using searchAttributes.induct data with
  | case1 offset hlt ih =>
    rw [searchChecked, searchAttributes, if_neg (by omega), dif_pos hlt, dif_pos hlt]
    simp only [ih]
  | case2 offset hlt => rw [searchChecked, searchAttributes, if_neg (by omega), dif_neg hlt, dif_neg hlt]

/-! ### The reads -/

theorem byteAt_lt {i : Nat} (h : i < data.length) : byteAt data i = .ok data[i] := by
  rw [byteAt, List.getElem?_eq_getElem h]

theorem exists_u16At {i : Nat} (h : i + 1 < data.length) : ∃ n, u16At data i = .ok n := by
  rw [u16At, byteAt_lt (by omega), byteAt_lt h]
  exact ⟨_, rfl⟩

theorem exists_u32At {i : Nat} (h : i + 3 < data.length) : ∃ n, u32At data i = .ok n := by
  rw [u32At, byteAt_lt (by omega), byteAt_lt (by omega), byteAt_lt (by omega), byteAt_lt h]
  exact ⟨_, rfl⟩

/-- No subtraction underflows, and the head is read. -/
theorem parseChecked_eq (data : Bytes) : parseChecked data = parseXorMappedAddress data := by
  unfold parseChecked parseXorMappedAddress
  by_cases hlen : data.length < headerLen + 4
  · rw [if_pos hlen, if_pos hlen]
    rfl
  · have hlong : 24 ≤ data.length := Nat.not_lt.1 hlen
    obtain ⟨n, hn⟩ := exists_u16At (show 2 + 1 < data.length by omega)
    have hwalk (cookie : UInt32) : searchChecked data cookie headerLen = searchAttributes data cookie headerLen :=
      searchChecked_eq (by omega) headerLen
    simp only [hn, hwalk]
    rfl

/-- The decoder panics on a claimed length that it admits although fewer than eight bytes are there. -/
theorem panics_parseXorAddress : Panics (parseXorAddress v length cookie) ↔
    4 ≤ length ∧ length ≤ v.length ∧ v.length < 8 ∧ v.head? = some 1 := by
  by_cases hlen : length < 4 ∨ v.length < length
  · have hguard : (length < 4 || v.length < length) = true := by simpa using hlen
    have hnot : ¬ Panics (.error "Invalid XOR address length" : Except String (String × UInt16)) :=
      not_panics_error (by decide)
    rw [parseXorAddress, if_pos hguard]
    exact iff_of_false hnot (by omega)
  · have hguard : ¬ (length < 4 || v.length < length) = true := by simpa using hlen
    rw [not_or, Nat.not_lt, Nat.not_lt] at hlen
    rcases v with _ | ⟨a, _ | ⟨b, _ | ⟨c, _ | ⟨d, w⟩⟩⟩⟩
    iterate 4
      · simp only [List.length_nil, List.length_cons] at hlen
        omega
    rw [parseXorAddress, if_neg hguard]
    by_cases ha : a = 1
    · subst ha
      have hpanic : Panics (.error "index out of bounds" : Except String (String × UInt16)) :=
        panics_error.2 List.mem_cons_self
      rcases w with _ | ⟨e, _ | ⟨f, _ | ⟨g, _ | ⟨h, w⟩⟩⟩⟩
      iterate 4
        · exact iff_of_true hpanic ⟨hlen.1, hlen.2, by simp, rfl⟩
      refine iff_of_false (not_panics_ok _) ?_
      simp only [List.length_cons]
      omega
    · have hfamily : ¬ Panics (.error "Only IPv4 is supported" : Except String (String × UInt16)) :=
        not_panics_error (by decide)
      have hresult : (byteAt (a :: b :: c :: d :: w) 0) = .ok a := rfl
      simp only [hresult, ha, ne_eq, not_false_eq_true, if_true, bind, Except.bind]
      exact iff_of_false hfamily (by simp [ha])

/-! ### The walk -/

/-- The rest of a datagram from an attribute on: whole attributes of other types, and an XOR-MAPPED-ADDRESS that claims
at least four bytes and is cut off before its eighth. -/
def ShortAddress (rest : Bytes) : Prop :=
  ∃ (before : List OtherAttribute) (length : UInt16) (v : Bytes),
    rest = before.flatMap (·.bytes) ++ (toBe 2 attrXorMappedAddress.toNat ++ (toBe 2 length.toNat ++ v)) ∧
      4 ≤ length.toNat ∧ length.toNat ≤ v.length ∧ v.length < 8 ∧ v.head? = some 1

theorem panics_of_shortAddress (pre : Bytes) (h : ShortAddress rest) :
    Panics (searchAttributes (pre ++ rest) cookie pre.length) := by
  obtain ⟨before, length, v, rfl, hv⟩ := h
  have hne : v ≠ [] := by
    rintro rfl
    simp at hv
  rw [searchAttributes_before _ _ _ _ (by rw [List.length_append, length_toBe]; omega), ← List.append_assoc,
    searchAttributes_header _ _ _ _ hne, if_pos rfl, panics_parseXorAddress]
  exact hv

/-- Four bytes are the head of an attribute. -/
theorem exists_header (h : 4 < rest.length) :
    ∃ (type length : UInt16) (v : Bytes), v ≠ [] ∧ rest = toBe 2 type.toNat ++ (toBe 2 length.toNat ++ v) := by
  rcases rest with _ | ⟨a, _ | ⟨b, _ | ⟨c, _ | ⟨d, v⟩⟩⟩⟩
  iterate 4
    · simp at h
  have hpair (a b : UInt8) : toBe 2 (UInt16.ofNat (ofBe [a, b])).toNat = [a, b] := by
    have hlt : ofBe [a, b] < 256 ^ 2 := ofBe_lt [a, b]
    rw [UInt16.toNat_ofNat', Nat.mod_eq_of_lt (by omega)]
    exact toBe_ofBe [a, b]
  refine ⟨.ofNat (ofBe [a, b]), .ofNat (ofBe [c, d]), v, ?_, ?_⟩
  · rintro rfl
    simp at h
  · rw [hpair, hpair]
    rfl

/-- An attribute that the walk passes by, and what is behind it. -/
theorem exists_attribute {type length : UInt16} (htype : type ≠ attrXorMappedAddress)
    (h : padded length.toNat ≤ v.length) :
    ∃ (a : OtherAttribute) (rest : Bytes), toBe 2 type.toNat ++ (toBe 2 length.toNat ++ v) = a.bytes ++ rest ∧
      a.bytes.length = 4 + padded length.toNat ∧ a.type = type := by
  have hpadded : length.toNat ≤ padded length.toNat ∧ padded length.toNat < length.toNat + 4 ∧
      padded length.toNat % 4 = 0 := by
    unfold padded
    omega
  have hvalue : (v.take length.toNat).length = length.toNat := List.length_take_of_le (by omega)
  have hpadding : ((v.drop length.toNat).take (padded length.toNat - length.toNat)).length =
      padded length.toNat - length.toNat := List.length_take_of_le (by rw [List.length_drop]; omega)
  let a : OtherAttribute := {
    type := type
    value := v.take length.toNat
    padding := (v.drop length.toNat).take (padded length.toNat - length.toNat)
    short := by rw [hvalue]; exact length.toNat_lt_size
    aligned := by rw [hvalue, hpadding]; omega
    padding_lt := by rw [hpadding]; omega
    type_ne := htype }
  refine ⟨a, v.drop (padded length.toNat), ?_, ?_, rfl⟩
  · have hv : v = v.take length.toNat ++
        ((v.drop length.toNat).take (padded length.toNat - length.toNat) ++ v.drop (padded length.toNat)) := by
      have hdrop : v.drop (padded length.toNat) =
          (v.drop length.toNat).drop (padded length.toNat - length.toNat) := by
        rw [List.drop_drop]
        congr 1
        omega
      rw [hdrop, List.take_append_drop, List.take_append_drop]
    show _ = (toBe 2 type.toNat ++ (toBe 2 (v.take length.toNat).length ++ (v.take length.toNat ++ _))) ++ _
    rw [hvalue]
    simp only [List.append_assoc]
    congr 2
  · rw [length_bytes]
    show 4 + padded (v.take length.toNat).length = _
    rw [hvalue]

theorem shortAddress_cons {a : OtherAttribute} (h : ShortAddress rest) : ShortAddress (a.bytes ++ rest) := by
  obtain ⟨before, length, v, rfl, hv⟩ := h
  exact ⟨a :: before, length, v, by rw [List.flatMap_cons, List.append_assoc], hv⟩

/-- Each pass decodes, goes on behind a whole attribute, or ends for want of bytes. -/
theorem shortAddress_of_panics (pre rest : Bytes) (h : Panics (searchAttributes (pre ++ rest) cookie pre.length)) :
    ShortAddress rest := by
  have hend : ¬ Panics (.error "XOR-MAPPED-ADDRESS not found" : Except String (String × UInt16)) :=
    not_panics_error (by decide)
  induction hn : rest.length using Nat.strongRecOn generalizing pre rest with
  | _ n ih =>
    by_cases hlt : 4 < rest.length
    · obtain ⟨type, length, v, hv, rfl⟩ := exists_header hlt
      rw [searchAttributes_header _ _ _ _ hv] at h
      by_cases htype : type = attrXorMappedAddress
      · rw [if_pos htype, panics_parseXorAddress] at h
        exact ⟨[], length, v, by rw [htype]; rfl, h⟩
      · rw [if_neg htype] at h
        by_cases hmore : padded length.toNat ≤ v.length
        · obtain ⟨a, rest, he, hlen, -⟩ := exists_attribute htype hmore
          rw [he, ← hlen, ← List.length_append, ← List.append_assoc] at h
          have hshort : ShortAddress rest := by
            refine ih rest.length ?_ _ rest h rfl
            rw [← hn, he, List.length_append, hlen]
            omega
          rw [he]
          exact shortAddress_cons hshort
        · have hstop : ¬ pre.length + (4 + padded length.toNat) <
              (pre ++ (toBe 2 type.toNat ++ (toBe 2 length.toNat ++ v))).length - 4 := by
            simp only [List.length_append, length_toBe]
            omega
          rw [searchAttributes, dif_neg hstop] at h
          exact absurd h hend
    · have hstop : ¬ pre.length < (pre ++ rest).length - 4 := by
        rw [List.length_append]
        omega
      rw [searchAttributes, dif_neg hstop] at h
      exact absurd h hend

/-! ### Datagrams -/

/-- No message of the parser's own is that of a panic. -/
theorem panics_parse_append {header : Bytes} (hlen : header.length = headerLen) (hrest : 4 ≤ rest.length) :
    Panics (parseXorMappedAddress (header ++ rest)) ↔
      IsHeader header ∧ Panics (searchAttributes (header ++ rest) magicCookie header.length) := by
  by_cases hheader : IsHeader header
  · rw [parse_append hheader hrest, and_iff_right hheader]
  refine iff_of_false ?_ fun h => hheader h.1
  have hlong : ¬ (header ++ rest).length < headerLen + 4 := by
    rw [List.length_append]
    omega
  have h20 : header.length = 20 := hlen
  obtain ⟨type, htype⟩ := exists_u16At (show 0 + 1 < header.length by omega)
  obtain ⟨cookie, hcookie⟩ := exists_u32At (show 4 + 3 < header.length by omega)
  rw [parseXorMappedAddress, if_neg hlong, u16At_left (by omega), u32At_left (by omega), htype, hcookie]
  simp only [bind, Except.bind]
  by_cases ht : type = methodBindingResponse
  · have hc : cookie ≠ magicCookie := by
      rintro rfl
      exact hheader ⟨hlen, ht ▸ htype, hcookie⟩
    simp only [ht, ne_eq, not_true_eq_false, if_false, hc, not_false_eq_true, if_true]
    exact not_panics_error (by decide)
  · simp only [ne_eq, ht, not_false_eq_true, if_true]
    refine not_panics_error fun hmem => ?_
    have hhead := List.mem_map_of_mem (f := fun m : String => m.toList.head?) hmem
    simp [panicMessages] at hhead

/-- A datagram is parsed or refused, with no index or difference out of range, unless it is a header and a rest that
ends in an address cut short. -/
theorem parse_total_iff (data : Bytes) :
    ¬ Panics (parseChecked data) ↔ ¬ ∃ header rest, data = header ++ rest ∧ IsHeader header ∧ ShortAddress rest := by
  rw [not_iff_not, parseChecked_eq]
  constructor
  · intro h
    by_cases hlen : data.length < headerLen + 4
    · rw [parseXorMappedAddress, if_pos hlen] at h
      have hnot : ¬ Panics (.error "STUN response too short" : Except String (String × UInt16)) :=
        not_panics_error (by decide)
      exact absurd h hnot
    · have htake : (data.take headerLen).length = headerLen := List.length_take_of_le (by omega)
      have hdrop : 4 ≤ (data.drop headerLen).length := by
        rw [List.length_drop]
        omega
      rw [← List.take_append_drop headerLen data, panics_parse_append htake hdrop] at h
      exact ⟨_, _, (List.take_append_drop headerLen data).symm, h.1, shortAddress_of_panics _ _ h.2⟩
  · rintro ⟨header, rest, rfl, hheader, hshort⟩
    have hrest : 4 ≤ rest.length := by
      obtain ⟨before, length, v, rfl, -⟩ := hshort
      simp only [List.length_append, length_toBe]
      omega
    exact (panics_parse_append hheader.length hrest).2 ⟨hheader, panics_of_shortAddress header hshort⟩

/-! ### The first address -/

theorem exists_otherAttributes {before : List Attribute} (h : ∀ b ∈ before, b.type ≠ attrXorMappedAddress) :
    ∃ others : List OtherAttribute, others.map (·.toAttribute) = before := by
  induction before with
  | nil => exact ⟨[], rfl⟩
  | cons b before ih =>
    obtain ⟨others, rfl⟩ := ih fun c hc => h c (List.mem_cons_of_mem b hc)
    exact ⟨⟨b, h b List.mem_cons_self⟩ :: others, rfl⟩

/-- The first XOR-MAPPED-ADDRESS is decoded from its value on, and no bytes of the values before it are taken for
one. -/
theorem parse_first {header : Bytes} (hheader : IsHeader header) (before after : List Attribute) (a : Attribute)
    (hbefore : ∀ b ∈ before, b.type ≠ attrXorMappedAddress) (htype : a.type = attrXorMappedAddress)
    (hvalue : a.value ≠ []) :
    parseXorMappedAddress (header ++ (before ++ a :: after).flatMap Attribute.bytes) =
      parseXorAddress (a.value ++ (a.padding ++ after.flatMap Attribute.bytes)) a.value.length magicCookie := by
  obtain ⟨others, rfl⟩ := exists_otherAttributes hbefore
  rw [List.flatMap_append, List.flatMap_cons, List.flatMap_map]
  exact parse_others hheader others a _ htype hvalue

end Stun

namespace Sample
open Stun

/-- The header of a Binding Response, and an XOR-MAPPED-ADDRESS of four bytes that begins with 1. -/
def shortResponse : Bytes :=
  [1, 1, 0, 8, 33, 18, 164, 66, 1, 2, 3, 4, 5, 6, 7, 8, 9, 10, 11, 12, 0, 32, 0, 4, 1, 0, 0, 0]

theorem not_total_shortResponse : shortResponse.length = 28 ∧ Panics (parseChecked shortResponse) := by
  have hheader : IsHeader (shortResponse.take 20) := ⟨rfl, rfl, rfl⟩
  have hshort : ShortAddress (shortResponse.drop 20) := ⟨[], 4, [1, 0, 0, 0], rfl, by decide, by decide, by decide, rfl⟩
  refine ⟨rfl, ?_⟩
  rw [parseChecked_eq]
  exact (panics_parse_append rfl (by decide)).2 ⟨hheader, panics_of_shortAddress _ hshort⟩

/-- An attribute with the head of an XOR-MAPPED-ADDRESS in its value. -/
def patternAttribute : Attribute := ⟨0x8022, [0, 0x20, 0, 8, 0, 1], [0, 0], by decide, by decide, by decide⟩

theorem parse_first_pattern :
    parseXorMappedAddress (shortResponse.take 20 ++
        ([patternAttribute] ++ xorMappedAddress 1 ⟨192, 0, 2, 1⟩ 32853 :: [patternAttribute]).flatMap Attribute.bytes) =
      parseXorAddress ((xorMappedAddress 1 ⟨192, 0, 2, 1⟩ 32853).value ++
          ((xorMappedAddress 1 ⟨192, 0, 2, 1⟩ 32853).padding ++ [patternAttribute].flatMap Attribute.bytes))
        (xorMappedAddress 1 ⟨192, 0, 2, 1⟩ 32853).value.length magicCookie :=
  parse_first ⟨rfl, rfl, rfl⟩ [patternAttribute] [patternAttribute] _ (by simp [patternAttribute, attrXorMappedAddress])
    rfl (List.cons_ne_nil _ _)

end Sample

end XVideoDownloader
