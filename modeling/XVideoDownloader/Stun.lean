import XVideoDownloader.Transfer
import XVideoDownloader.Lib.BigEndian

/-!
# Decoding a STUN response (`discovery/stun.rs`)

`parseXorMappedAddress` checks the header of a datagram and walks its attributes; `parseXorAddress` decodes the
first XOR-MAPPED-ADDRESS. The walk finds that attribute behind any others (`parse_response`), but the decoder
takes its first byte, which is reserved and zero, for the address family.
-/

namespace XVideoDownloader
open Lib

namespace Stun

def methodBindingResponse : UInt16 := 0x0101

def magicCookie : UInt32 := 0x2112A442

def attrXorMappedAddress : UInt16 := 0x0020

def headerLen : Nat := 20

/-- `data[i]`: the code panics beyond the end. -/
def byteAt (data : Bytes) (i : Nat) : Except String UInt8 :=
  match data[i]? with
  | some b => .ok b
  | none => .error "index out of bounds"

/-- `u16::from_be_bytes` of the two bytes at `i`. -/
def u16At (data : Bytes) (i : Nat) : Except String UInt16 := do
  return .ofNat (ofBe [← byteAt data i, ← byteAt data (i + 1)])

/-- `u32::from_be_bytes` of the four bytes at `i`. -/
def u32At (data : Bytes) (i : Nat) : Except String UInt32 := do
  return .ofNat (ofBe [← byteAt data i, ← byteAt data (i + 1), ← byteAt data (i + 2), ← byteAt data (i + 3)])

/-- `{:04x}`. -/
def hex4 (n : UInt16) : String :=
  .ofList ([n.toNat / 4096, n.toNat / 256 % 16, n.toNat / 16 % 16, n.toNat % 16].map Nat.digitChar)

structure Ipv4 where
  a : UInt8
  b : UInt8
  c : UInt8
  d : UInt8
  deriving DecidableEq

def Ipv4.dotted (ip : Ipv4) : String :=
  toString ip.a.toNat ++ "." ++ toString ip.b.toNat ++ "." ++ toString ip.c.toNat ++ "." ++ toString ip.d.toNat

/-- The byte of the cookie that masks byte `i` of the address. -/
def cookieByte (cookie : UInt32) (i : Nat) : UInt8 := .ofNat (cookie.toNat / 256 ^ (3 - i))

def parseXorAddress (data : Bytes) (length : Nat) (cookie : UInt32) : Except String (String × UInt16) := do
  if length < 4 || data.length < length then throw "Invalid XOR address length"
  let family ← byteAt data 0
  if family ≠ 0x01 then throw "Only IPv4 is supported"
  let port := (← u16At data 2) ^^^ (cookie >>> 16).toUInt16
  let ip : Ipv4 := ⟨(← byteAt data 4) ^^^ cookieByte cookie 0, (← byteAt data 5) ^^^ cookieByte cookie 1,
    (← byteAt data 6) ^^^ cookieByte cookie 2, (← byteAt data 7) ^^^ cookieByte cookie 3⟩
  return (ip.dotted, port)

/-- `(n + 3) & !3`. -/
def padded (n : Nat) : Nat := (n + 3) / 4 * 4

/-- The loop over the attributes, from `offset` on. -/
def searchAttributes (data : Bytes) (cookie : UInt32) (offset : Nat) : Except String (String × UInt16) := do
  if _h : offset < data.length - 4 then
    let attrType ← u16At data offset
    let attrLength ← u16At data (offset + 2)
    if attrType = attrXorMappedAddress then parseXorAddress (data.drop (offset + 4)) attrLength.toNat cookie
    else searchAttributes data cookie (offset + (4 + padded attrLength.toNat))
  else throw "XOR-MAPPED-ADDRESS not found"
termination_by data.length - offset

def parseXorMappedAddress (data : Bytes) : Except String (String × UInt16) := do
  if data.length < headerLen + 4 then throw "STUN response too short"
  let msgType ← u16At data 0
  if msgType ≠ methodBindingResponse then
    throw ("Expected Binding Response (0x" ++ hex4 methodBindingResponse ++ "), got 0x" ++ hex4 msgType)
  let cookie ← u32At data 4
  if cookie ≠ magicCookie then throw "Invalid magic cookie"
  searchAttributes data cookie headerLen

/-! ### Responses as RFC 5389 lays them out -/

/-- An attribute, with any bytes as the padding to a multiple of four. -/
structure Attribute where
  type : UInt16
  value : Bytes
  padding : Bytes
  short : value.length < UInt16.size
  aligned : (value.length + padding.length) % 4 = 0
  padding_lt : padding.length < 4

def Attribute.bytes (a : Attribute) : Bytes :=
  toBe 2 a.type.toNat ++ (toBe 2 a.value.length ++ (a.value ++ a.padding))

structure OtherAttribute extends Attribute where
  type_ne : type ≠ 0x0020

theorem length_mappedValue (reserved : UInt8) (ip : Ipv4) (port : UInt16) :
    ([reserved, 0x01] ++ toBe 2 (port ^^^ 0x2112).toNat ++
      [ip.a ^^^ 0x21, ip.b ^^^ 0x12, ip.c ^^^ 0xA4, ip.d ^^^ 0x42]).length = 8 := by
  simp

/-- `reserved` is zero in a response that follows the RFC. -/
def xorMappedAddress (reserved : UInt8) (ip : Ipv4) (port : UInt16) : Attribute where
  type := 0x0020
  value := [reserved, 0x01] ++ toBe 2 (port ^^^ 0x2112).toNat ++
    [ip.a ^^^ 0x21, ip.b ^^^ 0x12, ip.c ^^^ 0xA4, ip.d ^^^ 0x42]
  padding := []
  short := by
    rw [length_mappedValue]
    decide
  aligned := by
    rw [length_mappedValue]
    rfl
  padding_lt := by decide

def attributes (before : List OtherAttribute) (mapped : Attribute) (after : List OtherAttribute) : Bytes :=
  before.flatMap (·.bytes) ++ (mapped.bytes ++ after.flatMap (·.bytes))

def responseHeader (length : Nat) (transactionId : Vector UInt8 12) : Bytes :=
  toBe 2 0x0101 ++ (toBe 2 length ++ (toBe 4 0x2112A442 ++ transactionId.toList))

def response (transactionId : Vector UInt8 12) (before : List OtherAttribute) (mapped : Attribute)
    (after : List OtherAttribute) : Bytes :=
  responseHeader (attributes before mapped after).length transactionId ++ attributes before mapped after

/-! ### Reading numbers -/

theorem byteAt_append (pre data : Bytes) (i : Nat) : byteAt (pre ++ data) (pre.length + i) = byteAt data i := by
  rw [byteAt, List.getElem?_append_right (Nat.le_add_right ..), Nat.add_sub_cancel_left]
  rfl

theorem u16At_append (pre data : Bytes) (i : Nat) : u16At (pre ++ data) (pre.length + i) = u16At data i := by
  simp [u16At, byteAt_append, Nat.add_assoc]

theorem byteAt_left {pre : Bytes} {i : Nat} (h : i < pre.length) (rest : Bytes) :
    byteAt (pre ++ rest) i = byteAt pre i := by
  rw [byteAt, byteAt, List.getElem?_append_left h]

theorem u16At_left {pre : Bytes} {i : Nat} (h : i + 1 < pre.length) (rest : Bytes) :
    u16At (pre ++ rest) i = u16At pre i := by
  rw [u16At, u16At, byteAt_left (by omega), byteAt_left h]

theorem u32At_left {pre : Bytes} {i : Nat} (h : i + 3 < pre.length) (rest : Bytes) :
    u32At (pre ++ rest) i = u32At pre i := by
  rw [u32At, u32At, byteAt_left (by omega), byteAt_left (by omega), byteAt_left (by omega), byteAt_left h]

theorem u16At_toBe {n : Nat} (hn : n < UInt16.size) (data : Bytes) : u16At (toBe 2 n ++ data) 0 = .ok (.ofNat n) := by
  have hbytes : toBe 2 n = [UInt8.ofNat (n / 256), UInt8.ofNat n] := by simp [toBe]
  have hread : u16At (toBe 2 n ++ data) 0 = .ok (.ofNat (ofBe (toBe 2 n))) := by
    rw [hbytes]
    rfl
  have hlt : n < 256 ^ 2 := hn
  rw [hread, ofBe_toBe, Nat.mod_eq_of_lt hlt]

theorem u16At_toBe_append {n : Nat} (hn : n < UInt16.size) (pre data : Bytes) :
    u16At (pre ++ (toBe 2 n ++ data)) pre.length = .ok (.ofNat n) := by
  exact (u16At_append pre _ 0).trans (u16At_toBe hn data)

/-! ### The walk -/

theorem padded_length (a : Attribute) : padded a.value.length = a.value.length + a.padding.length := by
  have := a.aligned
  have := a.padding_lt
  unfold padded
  omega

theorem length_bytes (a : Attribute) : a.bytes.length = 4 + padded a.value.length := by
  simp [Attribute.bytes, padded_length]
  omega

/-- The attribute whose head is at `offset`, unless nothing comes after that, is decoded or passed over. -/
theorem searchAttributes_header (pre : Bytes) {v : Bytes} (type length : UInt16) (cookie : UInt32) (hv : v ≠ []) :
    searchAttributes (pre ++ (toBe 2 type.toNat ++ (toBe 2 length.toNat ++ v))) cookie pre.length =
      if type = attrXorMappedAddress then parseXorAddress v length.toNat cookie
      else searchAttributes (pre ++ (toBe 2 type.toNat ++ (toBe 2 length.toNat ++ v))) cookie
        (pre.length + (4 + padded length.toNat)) := by
  have hpos := List.length_pos_of_ne_nil hv
  have hlt : pre.length < (pre ++ (toBe 2 type.toNat ++ (toBe 2 length.toNat ++ v))).length - 4 := by
    simp only [List.length_append, length_toBe]
    omega
  have htype : u16At (pre ++ (toBe 2 type.toNat ++ (toBe 2 length.toNat ++ v))) pre.length = .ok type := by
    rw [u16At_toBe_append type.toNat_lt_size, UInt16.ofNat_toNat]
  have hlength : u16At (pre ++ (toBe 2 type.toNat ++ (toBe 2 length.toNat ++ v))) (pre.length + 2) = .ok length := by
    have hpre : pre.length + 2 = (pre ++ toBe 2 type.toNat).length := by simp
    rw [← List.append_assoc, hpre, u16At_toBe_append length.toNat_lt_size, UInt16.ofNat_toNat]
  have hdrop : (pre ++ (toBe 2 type.toNat ++ (toBe 2 length.toNat ++ v))).drop (pre.length + 4) = v := by
    rw [← List.append_assoc, ← List.append_assoc, List.drop_left' (by simp)]
  rw [searchAttributes, dif_pos hlt, htype, hlength, hdrop]
  rfl

theorem bytes_append (a : Attribute) (rest : Bytes) : a.bytes ++ rest =
    toBe 2 a.type.toNat ++ (toBe 2 (UInt16.ofNat a.value.length).toNat ++ (a.value ++ (a.padding ++ rest))) := by
  rw [UInt16.toNat_ofNat', Nat.mod_eq_of_lt a.short]
  simp [Attribute.bytes]

theorem searchAttributes_bytes (pre rest : Bytes) (a : Attribute) (cookie : UInt32)
    (hrest : 4 < a.bytes.length + rest.length) :
    searchAttributes (pre ++ (a.bytes ++ rest)) cookie pre.length =
      if a.type = attrXorMappedAddress then
        parseXorAddress (a.value ++ (a.padding ++ rest)) a.value.length cookie
      else searchAttributes (pre ++ (a.bytes ++ rest)) cookie (pre.length + a.bytes.length) := by
  have hv : a.value ++ (a.padding ++ rest) ≠ [] := by
    refine List.ne_nil_of_length_pos ?_
    rw [length_bytes, padded_length] at hrest
    simp only [List.length_append]
    omega
  rw [bytes_append, searchAttributes_header pre _ _ cookie hv, length_bytes, UInt16.toNat_ofNat',
    Nat.mod_eq_of_lt a.short]

/-- The walk passes the attributes of other types by. -/
theorem searchAttributes_before (pre rest : Bytes) (before : List OtherAttribute) (cookie : UInt32)
    (hrest : 0 < rest.length) :
    searchAttributes (pre ++ (before.flatMap (·.bytes) ++ rest)) cookie pre.length =
      searchAttributes (pre ++ (before.flatMap (·.bytes) ++ rest)) cookie
        (pre ++ before.flatMap (·.bytes)).length := by
  induction before generalizing pre with
  | nil => simp
  | cons a before ih =>
    have hlong : 4 < a.bytes.length + (before.flatMap (·.bytes) ++ rest).length := by
      rw [length_bytes, List.length_append]
      omega
    have hsplit : pre ++ (a.bytes ++ (before.flatMap (·.bytes) ++ rest)) =
        (pre ++ a.bytes) ++ (before.flatMap (·.bytes) ++ rest) := (List.append_assoc ..).symm
    rw [List.flatMap_cons, List.append_assoc, searchAttributes_bytes pre _ a.toAttribute cookie hlong,
      if_neg (show ¬ a.type = attrXorMappedAddress from a.type_ne), ← List.length_append, hsplit, ih,
      ← List.append_assoc pre]

/-! ### Datagrams -/

/-- The message type and the cookie of a Binding Response. -/
structure IsHeader (header : Bytes) : Prop where
  length : header.length = headerLen
  type : u16At header 0 = .ok methodBindingResponse
  cookie : u32At header 4 = .ok magicCookie

/-- Behind its header a Binding Response is what the walk makes of it. -/
theorem parse_append {header : Bytes} (hheader : IsHeader header) {rest : Bytes} (hrest : 4 ≤ rest.length) :
    parseXorMappedAddress (header ++ rest) = searchAttributes (header ++ rest) magicCookie header.length := by
  have hlong : ¬ (header ++ rest).length < headerLen + 4 := by
    rw [List.length_append, hheader.length]
    omega
  have h20 : header.length = 20 := hheader.length
  rw [parseXorMappedAddress, if_neg hlong, u16At_left (by omega), u32At_left (by omega), hheader.type, hheader.cookie,
    hheader.length]
  simp only [bind, Except.bind, ne_eq, not_true_eq_false, if_false]

/-- The first XOR-MAPPED-ADDRESS is decoded from its value on. -/
theorem parse_others {header : Bytes} (hheader : IsHeader header) (before : List OtherAttribute) (a : Attribute)
    (rest : Bytes) (htype : a.type = attrXorMappedAddress) (hvalue : a.value ≠ []) :
    parseXorMappedAddress (header ++ (before.flatMap (·.bytes) ++ (a.bytes ++ rest))) =
      parseXorAddress (a.value ++ (a.padding ++ rest)) a.value.length magicCookie := by
  have hpos := List.length_pos_of_ne_nil hvalue
  have hbytes : 4 < a.bytes.length := by
    rw [length_bytes, padded_length]
    omega
  have hlong : 4 < (a.bytes ++ rest).length := by
    rw [List.length_append]
    omega
  rw [parse_append hheader (by rw [List.length_append]; omega), searchAttributes_before _ _ _ _ (by omega),
    ← List.append_assoc, searchAttributes_bytes _ _ _ _ (by omega), if_pos htype]

/-- What comes of a response is what comes of its XOR-MAPPED-ADDRESS, whatever other attributes there are. -/
theorem parse_response (transactionId : Vector UInt8 12) (before after : List OtherAttribute) (mapped : Attribute)
    (htype : mapped.type = attrXorMappedAddress) (hvalue : mapped.value ≠ []) :
    parseXorMappedAddress (response transactionId before mapped after) =
      parseXorAddress (mapped.value ++ (mapped.padding ++ after.flatMap (·.bytes))) mapped.value.length
        magicCookie := by
  have hheader (n : Nat) : IsHeader (responseHeader n transactionId) := by
    refine ⟨by simp [responseHeader, headerLen], ?_, rfl⟩
    rw [responseHeader, u16At_toBe (by decide)]
    rfl
  exact parse_others (hheader _) before mapped _ htype hvalue

/-- Eight bytes: the decoder wants the family in the first. -/
theorem parseXorAddress_cons (b0 b1 b2 b3 b4 b5 b6 b7 : UInt8) (rest : Bytes) :
    parseXorAddress (b0 :: b1 :: b2 :: b3 :: b4 :: b5 :: b6 :: b7 :: rest) 8 magicCookie =
      if b0 = 1 then
        .ok (Ipv4.dotted ⟨b4 ^^^ 0x21, b5 ^^^ 0x12, b6 ^^^ 0xA4, b7 ^^^ 0x42⟩, .ofNat (ofBe [b2, b3]) ^^^ 0x2112)
      else .error "Only IPv4 is supported" := by
  have hlen : ¬ rest.length + 8 < 8 := by omega
  have hmask : (magicCookie >>> 16).toUInt16 = 0x2112 ∧ cookieByte magicCookie 0 = 0x21 ∧
      cookieByte magicCookie 1 = 0x12 ∧ cookieByte magicCookie 2 = 0xA4 ∧ cookieByte magicCookie 3 = 0x42 := by
    decide
  by_cases hfamily : b0 = 1
  · simp [parseXorAddress, byteAt, u16At, hlen, hfamily, hmask]
    rfl
  · simp [parseXorAddress, byteAt, hlen, hfamily, bind, Except.bind]
    rfl

/-- A response is decoded if its reserved byte is the code of IPv4, and then to the address and port. -/
theorem parse_response_xorMappedAddress (transactionId : Vector UInt8 12) (before after : List OtherAttribute)
    (reserved : UInt8) (ip : Ipv4) (port : UInt16) :
    parseXorMappedAddress (response transactionId before (xorMappedAddress reserved ip port) after) =
      if reserved = 1 then .ok (ip.dotted, port) else .error "Only IPv4 is supported" := by
  have hport : toBe 2 (port ^^^ 0x2112).toNat =
      [.ofNat ((port ^^^ 0x2112).toNat / 256), .ofNat (port ^^^ 0x2112).toNat] := by
    simp [toBe]
  have hread : UInt16.ofNat (ofBe [.ofNat ((port ^^^ 0x2112).toNat / 256), .ofNat (port ^^^ 0x2112).toNat]) =
      port ^^^ 0x2112 := by
    have hlt : (port ^^^ 0x2112).toNat < 256 ^ 2 := (port ^^^ 0x2112).toNat_lt_size
    rw [← hport, ofBe_toBe, Nat.mod_eq_of_lt hlt, UInt16.ofNat_toNat]
  rw [parse_response transactionId before after _ rfl (List.cons_ne_nil _ _)]
  simp only [xorMappedAddress, hport, List.cons_append, List.nil_append, List.length_cons, List.length_nil]
  rw [parseXorAddress_cons, hread]
  simp only [UInt8.xor_assoc, UInt8.xor_self, UInt8.xor_zero, UInt16.xor_assoc, UInt16.xor_self, UInt16.xor_zero]

/-- No response that follows the RFC is decoded to its address and port. -/
theorem response_not_decoded (transactionId : Vector UInt8 12) (before after : List OtherAttribute) (ip : Ipv4)
    (port : UInt16) :
    parseXorMappedAddress (response transactionId before (xorMappedAddress 0 ip port) after) ≠
      .ok (ip.dotted, port) := by
  rw [parse_response_xorMappedAddress, if_neg (by decide)]
  exact fun h => by cases h

end Stun

namespace Sample
open Stun

/-- A response that has the address 192.0.2.1 and the port 32853 alone. -/
def stunResponse : Bytes :=
  [1, 1, 0, 12, 33, 18, 164, 66, 1, 2, 3, 4, 5, 6, 7, 8, 9, 10, 11, 12, 0, 32, 0, 8, 0, 1, 161, 71, 225, 18, 166, 67]

theorem stunResponse_not_decoded :
    stunResponse = response #v[1, 2, 3, 4, 5, 6, 7, 8, 9, 10, 11, 12] [] (xorMappedAddress 0 ⟨192, 0, 2, 1⟩ 32853) [] ∧
      Ipv4.dotted ⟨192, 0, 2, 1⟩ = "192.0.2.1" ∧
      parseXorMappedAddress stunResponse = .error "Only IPv4 is supported" := by
  have he : stunResponse =
      response #v[1, 2, 3, 4, 5, 6, 7, 8, 9, 10, 11, 12] [] (xorMappedAddress 0 ⟨192, 0, 2, 1⟩ 32853) [] := by decide
  refine ⟨he, by decide, ?_⟩
  rw [he, parse_response_xorMappedAddress]
  rfl

end Sample

end XVideoDownloader
