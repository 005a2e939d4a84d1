/-!
# The string functions of the standard library that the code uses

`str::split_once`, `str::rsplit_once`, `str::contains`, `str::split`, `str::lines`, `str::trim`,
`str::split_whitespace`, `u64::from_str`, `IpAddr::from_str` (accepting or not) and `Path::file_name` under Unix
rules.
-/

namespace XVideoDownloader
namespace Text

def cut (c : Char) : List Char → Option (List Char × List Char)
  | [] => none
  | x :: xs => if x = c then some ([], xs) else (cut c xs).map fun p => (x :: p.1, p.2)

def splitOnce (c : Char) (s : String) : Option (String × String) :=
  (cut c s.toList).map fun p => (.ofList p.1, .ofList p.2)

def rsplitOnce (c : Char) (s : String) : Option (String × String) :=
  (cut c s.toList.reverse).map fun p => (.ofList p.2.reverse, .ofList p.1.reverse)

def occurs (pat : List Char) : List Char → Bool
  | [] => pat.isEmpty
  | c :: s => pat.isPrefixOf (c :: s) || occurs pat s

theorem occurs_iff {pat s : List Char} : occurs pat s = true ↔ pat <:+: s := by
  induction s with
  | nil => simp [occurs]
  | cons c s ih => simp [occurs, ih, List.infix_cons_iff]

def contains (s pat : String) : Bool := occurs pat.toList s.toList

def split (c : Char) (s : String) : List String := (s.toList.splitOn c).map .ofList

/-- `s.to_lowercase().starts_with(pre)` for `pre` in lower-case ASCII, without `k` and not ending in `i`: outside
ASCII only the Kelvin sign (to `k`) and `İ` (to `i` and a combining dot) have ASCII letters in their lower case. -/
def startsWithLower (s pre : String) : Bool := pre.toList.isPrefixOf (s.toList.map Char.toLower)

/-! ### Lines and white space -/

/-- `line` is what has been read of the present line; a carriage return before the line feed goes with it. -/
def linesFrom (line : List Char) : List Char → List (List Char)
  | [] => if line = [] then [] else [line]
  | '\n' :: cs => (if line.getLast? = some '\r' then line.dropLast else line) :: linesFrom [] cs
  | c :: cs => linesFrom (line ++ [c]) cs

/-- `str::lines`. -/
def lines (cs : List Char) : List String := (linesFrom [] cs).map .ofList

/-- The Unicode property `White_Space`. -/
def isWhitespace (c : Char) : Bool :=
  let n := c.toNat
  (9 ≤ n && n ≤ 13) || n = 0x20 || n = 0x85 || n = 0xA0 || n = 0x1680 || (0x2000 ≤ n && n ≤ 0x200A) ||
    n = 0x2028 || n = 0x2029 || n = 0x202F || n = 0x205F || n = 0x3000

def trim (s : String) : String :=
  .ofList (((s.toList.dropWhile isWhitespace).reverse.dropWhile isWhitespace).reverse)

/-- `s.split_whitespace().next().unwrap_or("")`. -/
def firstWord (s : String) : String :=
  .ofList ((s.toList.dropWhile isWhitespace).takeWhile (!isWhitespace ·))

/-! ### Numbers -/

def digitsValue (ds : List Char) : Nat :=
  ds.foldl (fun n d => 10 * n + (d.toNat - 48)) 0

/-- `u64::from_str`: an optional `+`, at least one ASCII digit, and a value below `2^64`. -/
def parseU64 (s : String) : Option Nat :=
  let ds := match s.toList with
    | '+' :: ds => ds
    | ds => ds
  if ds ≠ [] ∧ ds.all Char.isDigit ∧ digitsValue ds < UInt64.size then some (digitsValue ds) else none

/-! ### `IpAddr::from_str` -/

/-- A decimal octet: one to three digits, no leading zero, at most 255. -/
def isOctet (s : List Char) : Bool :=
  s ≠ [] && s.length ≤ 3 && s.all Char.isDigit && (s.length = 1 || s.head? ≠ some '0') &&
    digitsValue s ≤ 255

def isIpv4 (s : List Char) : Bool :=
  let parts := s.splitOn '.'
  parts.length = 4 && parts.all isOctet

def isHex (c : Char) : Bool :=
  c.isDigit || ('a' ≤ c && c ≤ 'f') || ('A' ≤ c && c ≤ 'F')

/-- The number of 16-bit groups that `s` writes, if it is a list of them; an IPv4 address may end it. -/
def ipv6Groups (s : List Char) : Option Nat :=
  let parts := s.splitOn ':'
  let isGroup := fun g : List Char => g ≠ [] && g.length ≤ 4 && g.all isHex
  if s = [] then some 0
  else if parts.all isGroup then some parts.length
  else if parts.dropLast.all isGroup && isIpv4 (parts.getLast?.getD []) then some (parts.length + 1)
  else none

def cutDoubleColon : List Char → Option (List Char × List Char)
  | ':' :: ':' :: t => some ([], t)
  | c :: t => (cutDoubleColon t).map fun p => (c :: p.1, p.2)
  | [] => none

def isIpv6 (s : List Char) : Bool :=
  match cutDoubleColon s with
  | none => ipv6Groups s = some 8
  | some (l, r) =>
    match ipv6Groups l, ipv6Groups r with
    | some m, some n => m + n ≤ 7 && !l.contains '.'
    | _, _ => false

def isIpAddr (s : String) : Bool := isIpv4 s.toList || isIpv6 s.toList

/-! ### `Path::file_name` -/

/-- The last component of the path, unless that is `..` or there is none; `.` components and repeated
separators do not count. -/
def fileName (p : String) : Option String :=
  match ((p.toList.splitOn '/').filter fun c => c ≠ [] && c ≠ ['.']).getLast? with
  | some c => if c = ['.', '.'] then none else some (.ofList c)
  | none => none

example : isIpAddr "192.168.1.1" ∧ isIpAddr "::1" ∧ isIpAddr "1:2:3:4:5:6:7.8.9.10" ∧
    ¬ isIpAddr "01.2.3.4" ∧ ¬ isIpAddr "1::2::3" := by decide

example : fileName "/a/b.mp4/" = some "b.mp4" ∧ fileName "a/.." = none ∧ fileName "/" = none := by decide

end Text
end XVideoDownloader
