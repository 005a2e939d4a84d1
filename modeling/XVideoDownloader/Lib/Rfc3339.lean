import Mathlib.Algebra.GroupWithZero.Nat
import Mathlib.Order.Monotone.Basic

/-!
# Times as text (RFC 3339)

`text` writes a number of nanoseconds since 1970 in UTC: the date of the Gregorian calendar, the time of the day, and
the fraction of the second in no digits, three, six or nine, as few as it needs. The parts have one width each, but for
the fraction; that ends at the sign of the offset, which is less than the dot and than every digit. So the texts of the
years 0 to 9999 are ordered as the times are (`text_lt_text`).
-/

namespace Lib
namespace Rfc3339

/-- The last `w` decimal digits of `n`. -/
def decimal : Nat → Nat → List Char
  | 0, _ => []
  | w + 1, n => decimal w (n / 10) ++ [Nat.digitChar (n % 10)]

def isLeap (y : Nat) : Bool := y % 4 = 0 && (y % 100 ≠ 0 || y % 400 = 0)

/-- The days from the first of January of the year 0 to that of the year `y`. -/
def daysBeforeYear (y : Nat) : Nat := 365 * y + (y + 3) / 4 - (y + 99) / 100 + (y + 399) / 400

/-- By the average length of a year, which is off by one year at most. -/
def yearOf (day : Nat) : Nat :=
  let y := day * 400 / 146097
  if day < daysBeforeYear y then y - 1
  else if daysBeforeYear (y + 1) ≤ day then y + 1
  else y

def monthLengths (y : Nat) : List Nat := [31, if isLeap y then 29 else 28, 31, 30, 31, 30, 31, 31, 30, 31, 30, 31]

/-- The month in which a day of the year is, and the day of the month, counted from 0 both. -/
def monthDay : List Nat → Nat → Nat × Nat
  | [], day => (0, day)
  | w :: ws, day => if day < w then (0, day) else ((monthDay ws (day - w)).1 + 1, (monthDay ws (day - w)).2)

def date (day : Nat) : List Char :=
  let y := yearOf day
  let m := monthDay (monthLengths y) (day - daysBeforeYear y)
  decimal 4 y ++ '-' :: (decimal 2 (m.1 + 1) ++ '-' :: decimal 2 (m.2 + 1))

def clock (secs : Nat) : List Char :=
  decimal 2 (secs / 3600) ++ ':' :: (decimal 2 (secs / 60 % 60) ++ ':' :: decimal 2 (secs % 60))

def fraction (nanos : Nat) : List Char :=
  if nanos = 0 then []
  else if nanos % 1000000 = 0 then '.' :: decimal 3 (nanos / 1000000)
  else if nanos % 1000 = 0 then '.' :: decimal 6 (nanos / 1000)
  else '.' :: decimal 9 nanos

/-- The nanoseconds from the year 0 to 1970. -/
def epoch : Int := 62167219200000000000

/-- The text of a time in the years 0 to 9999, in nanoseconds since 1970. -/
def text (t : Int) : String :=
  let n := (t + epoch).toNat
  .ofList (date (n / 86400000000000) ++ 'T' ::
    (clock (n / 1000000000 % 86400) ++ (fraction (n % 1000000000) ++ ['+', '0', '0', ':', '0', '0'])))

example : text 0 = "1970-01-01T00:00:00+00:00" ∧ text (-epoch) = "0000-01-01T00:00:00+00:00" ∧
    text 1709210096789000000 = "2024-02-29T12:34:56.789+00:00" ∧
    text 253402300799999999999 = "9999-12-31T23:59:59.999999999+00:00" := by decide

/-! ### Numbers -/

theorem decimal_append_lt {w a b : Nat} (h : a < b) (hb : b < 10 ^ w) (r r' : List Char) :
    decimal w a ++ r < decimal w b ++ r' := by
  induction w generalizing a b r r' with
  | zero =>
    rw [Nat.pow_zero] at hb
    omega
  | succ w ih =>
    rw [decimal, decimal, List.append_assoc, List.append_assoc]
    by_cases hdiv : a / 10 < b / 10
    · exact ih hdiv (by rw [Nat.pow_succ] at hb; omega) _ _
    · have hdigit : ∀ c < 10, ∀ d < c, Nat.digitChar d < Nat.digitChar c := by decide
      have heq : a / 10 = b / 10 := by omega
      rw [heq]
      exact List.append_left_lt (List.cons_lt_cons_iff.2 (.inl (hdigit _ (by omega) _ (by omega))))

/-- A field of one width: what comes behind it counts where the numbers are equal. -/
theorem field_lt {w a b : Nat} {r r' : List Char} (hb : b < 10 ^ w) (h : a < b ∨ a = b ∧ r < r') :
    decimal w a ++ r < decimal w b ++ r' := by
  rcases h with h | ⟨rfl, h⟩
  · exact decimal_append_lt h hb _ _
  · exact List.append_left_lt h

theorem cons_lt_cons {c : Char} {r r' : List Char} (h : r < r') : c :: r < c :: r' :=
  List.cons_lt_cons_iff.2 (.inr ⟨rfl, h⟩)

/-! ### Dates -/

theorem daysBeforeYear_near (y : Nat) :
    146097 * y ≤ 400 * daysBeforeYear y + 700 ∧ 400 * daysBeforeYear y ≤ 146097 * y + 700 := by
  unfold daysBeforeYear
  omega

theorem yearOf_spec (day : Nat) : daysBeforeYear (yearOf day) ≤ day ∧ day < daysBeforeYear (yearOf day + 1) := by
  unfold yearOf
  dsimp only
  generalize hy : day * 400 / 146097 = y
  have h := daysBeforeYear_near y
  have hbefore := daysBeforeYear_near (y - 1)
  have hafter := daysBeforeYear_near (y + 1 + 1)
  split
  · rcases Nat.eq_zero_or_pos y with rfl | hpos
    · have hzero : daysBeforeYear 0 = 0 := rfl
      omega
    · rw [Nat.sub_add_cancel hpos]
      omega
  split <;> omega

theorem daysBeforeYear_succ (y : Nat) : daysBeforeYear (y + 1) = daysBeforeYear y + (monthLengths y).sum := by
  have hsum : (monthLengths y).sum = if isLeap y then 366 else 365 := by
    rw [monthLengths]
    split <;> rfl
  have h4 : (y + 1 + 3) / 4 = (y + 3) / 4 + if y % 4 = 0 then 1 else 0 := by split <;> omega
  have h100 : (y + 1 + 99) / 100 = (y + 99) / 100 + if y % 100 = 0 then 1 else 0 := by split <;> omega
  have h400 : (y + 1 + 399) / 400 = (y + 399) / 400 + if y % 400 = 0 then 1 else 0 := by split <;> omega
  have hle : (y + 99) / 100 ≤ 365 * y + (y + 3) / 4 := by omega
  have hmod : (y % 100 = 0 → y % 4 = 0) ∧ (y % 400 = 0 → y % 100 = 0) := by omega
  rw [hsum, daysBeforeYear, daysBeforeYear, h4, h100, h400, isLeap]
  generalize (y + 3) / 4 = a at *
  generalize (y + 99) / 100 = b at *
  generalize (y + 399) / 400 = c at *
  by_cases y4 : y % 4 = 0 <;> by_cases y100 : y % 100 = 0 <;> by_cases y400 : y % 400 = 0 <;>
    simp [y4, y100, y400] at hmod ⊢ <;> omega

theorem daysBeforeYear_mono : Monotone daysBeforeYear :=
  monotone_nat_of_le_succ fun y => daysBeforeYear_succ y ▸ Nat.le_add_right _ _

theorem yearOf_lt {day : Nat} (h : day < 3652425) : yearOf day < 10000 := by
  by_contra hge
  have hmono := daysBeforeYear_mono (Nat.not_lt.1 hge)
  have hspec := yearOf_spec day
  have htenThousand : daysBeforeYear 10000 = 3652425 := rfl
  omega

/-- Of two days the earlier one is in an earlier year or comes first in the same. -/
theorem yearOf_lt_yearOf {day day' : Nat} (h : day < day') :
    yearOf day < yearOf day' ∨
      yearOf day = yearOf day' ∧ day - daysBeforeYear (yearOf day) < day' - daysBeforeYear (yearOf day') := by
  have hspec := yearOf_spec day
  have hspec' := yearOf_spec day'
  rcases Nat.lt_trichotomy (yearOf day) (yearOf day') with hlt | heq | hgt
  · exact .inl hlt
  · rw [heq] at hspec ⊢
    exact .inr ⟨rfl, by omega⟩
  · have hmono := daysBeforeYear_mono (Nat.succ_le_of_lt hgt)
    rw [Nat.succ_eq_add_one] at hmono
    omega

theorem monthDay_lt_monthDay (ws : List Nat) {day day' : Nat} (h : day < day') :
    (monthDay ws day).1 < (monthDay ws day').1 ∨
      (monthDay ws day).1 = (monthDay ws day').1 ∧ (monthDay ws day).2 < (monthDay ws day').2 := by
  induction ws generalizing day day' with
  | nil => exact .inr ⟨rfl, h⟩
  | cons w ws ih =>
    rw [monthDay, monthDay]
    by_cases hday : day < w <;> by_cases hday' : day' < w
    · rw [if_pos hday, if_pos hday']
      exact .inr ⟨rfl, h⟩
    · rw [if_pos hday, if_neg hday']
      exact .inl (Nat.succ_pos _)
    · omega
    · rw [if_neg hday, if_neg hday']
      have hlater := ih (show day - w < day' - w by omega)
      dsimp only
      omega

theorem monthDay_bounds {ws : List Nat} (hws : ∀ w ∈ ws, w ≤ 31) {day : Nat} (h : day < ws.sum) :
    (monthDay ws day).1 < ws.length ∧ (monthDay ws day).2 < 31 := by
  induction ws generalizing day with
  | nil => cases h
  | cons w ws ih =>
    rw [List.forall_mem_cons] at hws
    rw [List.sum_cons] at h
    rw [monthDay, List.length_cons]
    split
    · exact ⟨Nat.succ_pos _, by omega⟩
    · obtain ⟨hmonth, hday⟩ := ih hws.2 (show day - w < ws.sum by omega)
      exact ⟨Nat.succ_lt_succ hmonth, hday⟩

theorem monthLengths_le (y : Nat) : ∀ w ∈ monthLengths y, w ≤ 31 := by
  intro w hw
  rw [monthLengths] at hw
  split at hw <;> revert w <;> decide

theorem date_append_lt {day day' : Nat} (h : day < day') (hday' : day' < 3652425) (r r' : List Char) :
    date day ++ r < date day' ++ r' := by
  have hspec := yearOf_spec day'
  rw [daysBeforeYear_succ] at hspec
  have hrest : day' - daysBeforeYear (yearOf day') < (monthLengths (yearOf day')).sum := by omega
  obtain ⟨hmonth, hbound⟩ := monthDay_bounds (monthLengths_le (yearOf day')) hrest
  rw [show (monthLengths (yearOf day')).length = 12 from rfl] at hmonth
  unfold date
  dsimp only
  simp only [List.append_assoc, List.cons_append]
  refine field_lt (yearOf_lt hday') ((yearOf_lt_yearOf h).imp_right fun ⟨hyear, hlt⟩ => ⟨hyear, cons_lt_cons ?_⟩)
  rw [hyear] at hlt ⊢
  refine field_lt (by omega) ?_
  rcases monthDay_lt_monthDay (monthLengths (yearOf day')) hlt with hlt | ⟨heq, hlt⟩
  · exact .inl (by omega)
  · exact .inr ⟨by omega, cons_lt_cons (field_lt (by omega) (.inl (by omega)))⟩

/-! ### The time of the day -/

theorem clock_append_lt {secs secs' : Nat} (h : secs < secs') (hsecs' : secs' < 86400) (r r' : List Char) :
    clock secs ++ r < clock secs' ++ r' := by
  unfold clock
  simp only [List.append_assoc, List.cons_append]
  refine field_lt (by omega) ?_
  by_cases hhour : secs / 3600 < secs' / 3600
  · exact .inl hhour
  refine .inr ⟨by omega, cons_lt_cons (field_lt (by omega) ?_)⟩
  by_cases hminute : secs / 60 % 60 < secs' / 60 % 60
  · exact .inl hminute
  · exact .inr ⟨by omega, cons_lt_cons (field_lt (by omega) (.inl (by omega)))⟩

/-! ### The fraction -/

theorem le_of_mem_decimal {w n : Nat} {c : Char} (h : c ∈ decimal w n) : '0' ≤ c := by
  induction w generalizing n with
  | zero => cases h
  | succ w ih =>
    rw [decimal, List.mem_append, List.mem_singleton] at h
    rcases h with h | rfl
    · exact ih h
    · have hdigit : ∀ d < 10, '0' ≤ Nat.digitChar d := by decide
      exact hdigit _ (Nat.mod_lt _ (by decide))

theorem length_decimal (w n : Nat) : (decimal w n).length = w := by
  induction w generalizing n with
  | zero => rfl
  | succ w ih => rw [decimal, List.length_append, ih, List.length_singleton]

/-- Digits that are left out at the end are zeros. -/
theorem decimal_mul_pow (w k n : Nat) :
    decimal (w + k) (n * 10 ^ k) = decimal w n ++ List.replicate k '0' := by
  induction k with
  | zero => simp
  | succ k ih =>
    have hdiv : n * 10 ^ (k + 1) / 10 = n * 10 ^ k := by
      rw [Nat.pow_succ, ← Nat.mul_assoc, Nat.mul_div_cancel _ (by decide)]
    have hmod : n * 10 ^ (k + 1) % 10 = 0 := by rw [Nat.pow_succ, ← Nat.mul_assoc, Nat.mul_mod_left]
    rw [← Nat.add_assoc, decimal, hdiv, hmod, ih, List.append_assoc, List.replicate_succ']
    rfl

/-- The fraction is a dot and the nine digits without zeros at the end. -/
theorem fraction_eq {nanos : Nat} (h : nanos ≠ 0) :
    ∃ p k, fraction nanos = '.' :: p ∧ (∀ c ∈ p, '0' ≤ c) ∧ p ++ List.replicate k '0' = decimal 9 nanos := by
  unfold fraction
  rw [if_neg h]
  split
  · have hmul : nanos / 1000000 * 10 ^ 6 = nanos := by omega
    exact ⟨_, 6, rfl, fun _ => le_of_mem_decimal, by rw [← decimal_mul_pow, hmul]⟩
  split
  · have hmul : nanos / 1000 * 10 ^ 3 = nanos := by omega
    exact ⟨_, 3, rfl, fun _ => le_of_mem_decimal, by rw [← decimal_mul_pow, hmul]⟩
  · exact ⟨_, 0, rfl, fun _ => le_of_mem_decimal, List.append_nil _⟩

theorem not_lt_replicate {s : List Char} (hs : ∀ c ∈ s, '0' ≤ c) : ¬ s < List.replicate s.length '0' := by
  induction s with
  | nil => exact List.not_lt_nil _
  | cons c s ih =>
    rw [List.forall_mem_cons] at hs
    rw [List.length_cons, List.replicate_succ, List.cons_lt_cons_iff, not_or]
    exact ⟨Char.not_lt.2 hs.1, fun h => ih hs.2 h.2⟩

/-- Digits are ordered as they are with zeros behind them if something less than a digit ends them. -/
theorem append_lt_of_replicate {p q : List Char} {k l : Nat} {e : Char} (he : e < '0') (hp : ∀ c ∈ p, '0' ≤ c)
    (hq : ∀ c ∈ q, '0' ≤ c) (hlen : p.length + k = q.length + l)
    (h : p ++ List.replicate k '0' < q ++ List.replicate l '0') (r r' : List Char) : p ++ e :: r < q ++ e :: r' := by
  induction p generalizing q with
  | nil =>
    rcases q with _ | ⟨c, q⟩
    · simp only [List.length_nil, Nat.zero_add] at hlen
      exact absurd h (by rw [hlen]; exact List.lt_irrefl _)
    · exact List.cons_lt_cons_iff.2 (.inl (Std.lt_of_lt_of_le he (hq c List.mem_cons_self)))
  | cons c p ih =>
    rcases q with _ | ⟨d, q⟩
    · -- nothing is less than zeros
      exfalso
      rw [List.nil_append] at h
      have hall : ∀ x ∈ c :: p ++ List.replicate k '0', '0' ≤ x := by
        intro x hx
        rcases List.mem_append.1 hx with hx | hx
        · exact hp x hx
        · obtain rfl := List.eq_of_mem_replicate hx
          exact Char.le_refl '0'
      refine not_lt_replicate hall ?_
      rwa [List.length_append, List.length_replicate, hlen, List.length_nil, Nat.zero_add]
    · rw [List.forall_mem_cons] at hp hq
      rw [List.cons_append, List.cons_append, List.cons_lt_cons_iff] at h ⊢
      rw [List.length_cons, List.length_cons] at hlen
      exact h.imp_right fun h => ⟨h.1, ih hp.2 hq.2 (by omega) h.2⟩

theorem fraction_append_lt {nanos nanos' : Nat} (h : nanos < nanos') (hnanos' : nanos' < 1000000000)
    (r r' : List Char) : fraction nanos ++ '+' :: r < fraction nanos' ++ '+' :: r' := by
  obtain ⟨q, l, hq, hdigits', hzeros'⟩ := fraction_eq (show nanos' ≠ 0 by omega)
  rw [hq]
  rcases Nat.eq_zero_or_pos nanos with rfl | hpos
  · exact List.cons_lt_cons_iff.2 (.inl (by decide))
  obtain ⟨p, k, hp, hdigits, hzeros⟩ := fraction_eq (show nanos ≠ 0 by omega)
  have hlen : p.length + k = q.length + l := by
    have hlength := congrArg List.length hzeros
    have hlength' := congrArg List.length hzeros'
    rw [List.length_append, List.length_replicate, length_decimal] at hlength hlength'
    omega
  have hlt : decimal 9 nanos < decimal 9 nanos' := by
    have happend := decimal_append_lt (w := 9) h hnanos' [] []
    rwa [List.append_nil, List.append_nil] at happend
  rw [hp]
  exact cons_lt_cons (append_lt_of_replicate (by decide) hdigits hdigits' hlen (by rwa [hzeros, hzeros']) r r')

/-! ### Times -/

/-- In the years 0 to 9999 an earlier time has a smaller text. -/
theorem text_lt_text {t t' : Int} (hfirst : -epoch ≤ t) (h : t < t') (hlast : t' < 253402300800000000000) :
    (text t).toList < (text t').toList := by
  have hn : (t + epoch).toNat < (t' + epoch).toNat := by omega
  have hn' : (t' + epoch).toNat < 315569520000000000000 := by
    unfold epoch
    omega
  unfold text
  dsimp only
  rw [String.toList_ofList, String.toList_ofList]
  generalize (t + epoch).toNat = n at hn ⊢
  generalize (t' + epoch).toNat = n' at hn hn' ⊢
  by_cases hday : n / 86400000000000 < n' / 86400000000000
  · exact date_append_lt hday (by omega) _ _
  have hday : n / 86400000000000 = n' / 86400000000000 := by omega
  rw [hday]
  refine List.append_left_lt (cons_lt_cons ?_)
  by_cases hsecs : n / 1000000000 % 86400 < n' / 1000000000 % 86400
  · exact clock_append_lt hsecs (by omega) _ _
  have hsecs : n / 1000000000 % 86400 = n' / 1000000000 % 86400 := by omega
  rw [hsecs]
  exact List.append_left_lt (fraction_append_lt (by omega) (by omega) _ _)

end Rfc3339
end Lib
