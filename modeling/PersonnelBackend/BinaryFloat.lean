import Mathlib.Algebra.Order.Group.Nat
import Mathlib.Algebra.Order.Ring.Int
import Mathlib.Order.Compare
import Mathlib.Order.Monotone.Basic

/-! Binary floating-point numbers as they are stored: a sign, and a magnitude whose
low bits are the fraction and whose high bits are the exponent. The magnitudes are
ordered as the numbers they stand for, so that flipping bits gives a code that is
ordered as the numbers are, the negative ones included. -/
namespace PersonnelBackend.BinaryFloat

/-- The number a magnitude with `p` bits of fraction stands for, in units of the
smallest positive one. -/
def units (p m : ℕ) : ℕ :=
  if m / 2 ^ p = 0 then m % 2 ^ p else (2 ^ p + m % 2 ^ p) * 2 ^ (m / 2 ^ p - 1)

lemma units_eq (p e f : ℕ) (hf : f < 2 ^ p) :
    units p (2 ^ p * e + f) = if e = 0 then f else (2 ^ p + f) * 2 ^ (e - 1) := by
  have hdiv : (2 ^ p * e + f) / 2 ^ p = e := by
    rw [Nat.mul_add_div (Nat.two_pow_pos p), Nat.div_eq_of_lt hf, Nat.add_zero]
  have hmod : (2 ^ p * e + f) % 2 ^ p = f := by rw [Nat.mul_add_mod, Nat.mod_eq_of_lt hf]
  rw [units, hdiv, hmod]

lemma units_lt_succ (p m : ℕ) : units p m < units p (m + 1) := by
  have hpos : 0 < 2 ^ p := Nat.two_pow_pos p
  obtain ⟨e, f, hf, rfl⟩ : ∃ e f, f < 2 ^ p ∧ m = 2 ^ p * e + f :=
    ⟨m / 2 ^ p, m % 2 ^ p, Nat.mod_lt _ hpos, (Nat.div_add_mod m (2 ^ p)).symm⟩
  rw [units_eq p e f hf]
  by_cases hlast : f + 1 < 2 ^ p
  · rw [Nat.add_assoc, units_eq p e (f + 1) hlast]
    split_ifs
    · exact Nat.lt_succ_self f
    · exact Nat.mul_lt_mul_of_pos_right (by omega) (Nat.two_pow_pos _)
  -- the fraction overflows into the exponent
  · have hnext : 2 ^ p * e + f + 1 = 2 ^ p * (e + 1) + 0 := by
      rw [Nat.mul_succ]
      omega
    rw [hnext, units_eq p (e + 1) 0 hpos, if_neg (Nat.succ_ne_zero e), Nat.add_sub_cancel,
      Nat.add_zero]
    split_ifs with he
    · subst he
      simpa using hf
    · obtain ⟨e, rfl⟩ := Nat.exists_eq_succ_of_ne_zero he
      rw [Nat.succ_sub_one, Nat.succ_eq_add_one, pow_succ 2 e, mul_comm (2 ^ e) 2, ← mul_assoc]
      exact Nat.mul_lt_mul_of_pos_right (by omega) (Nat.two_pow_pos _)

lemma units_strictMono (p : ℕ) : StrictMono (units p) := strictMono_nat_of_lt_succ (units_lt_succ p)

lemma units_zero (p : ℕ) : units p 0 = 0 := by simp [units]

/-- The magnitude of a natural number that has room in the fraction. -/
def ofNat (p bias n : ℕ) : ℕ :=
  if n = 0 then 0 else 2 ^ p * (n.log2 + bias) + (n * 2 ^ p / 2 ^ n.log2 - 2 ^ p)

lemma units_ofNat {p bias n : ℕ} (hn : n ≤ 2 ^ (p + 1)) (hbias : 0 < bias) :
    units p (ofNat p bias n) = n * 2 ^ (bias + p - 1) := by
  by_cases h0 : n = 0
  · rw [ofNat, if_pos h0, units_zero, h0, Nat.zero_mul]
  have hlow := Nat.log2_self_le h0
  have hhigh := Nat.lt_log2_self (n := n)
  rw [ofNat, if_neg h0]
  generalize n.log2 = e at hlow hhigh ⊢
  -- no bit of the number is lost
  have hdvd : 2 ^ e ∣ n * 2 ^ p := by
    rcases Nat.lt_or_ge p e with he | he
    · have hpe : e = p + 1 := by
        have := (Nat.pow_le_pow_iff_right (a := 2) (by decide)).mp (hlow.trans hn)
        omega
      have hne : n = 2 ^ e := le_antisymm (hpe ▸ hn) hlow
      rw [hne]
      exact Dvd.intro _ rfl
    · exact (pow_dvd_pow 2 he).mul_left n
  obtain ⟨q, hq⟩ := hdvd
  have hpos : 0 < 2 ^ e := Nat.two_pow_pos e
  have hdiv : n * 2 ^ p / 2 ^ e = q := by rw [hq, Nat.mul_div_cancel_left q hpos]
  have hql : 2 ^ p ≤ q := by
    refine Nat.le_of_mul_le_mul_left ?_ hpos
    rw [← hq]
    exact Nat.mul_le_mul_right _ hlow
  have hqh : q < 2 ^ p + 2 ^ p := by
    refine Nat.lt_of_mul_lt_mul_left (a := 2 ^ e) ?_
    rw [← hq, ← Nat.two_mul, ← Nat.mul_assoc, ← pow_succ]
    exact Nat.mul_lt_mul_of_pos_right hhigh (Nat.two_pow_pos p)
  rw [hdiv, units_eq p (e + bias) (q - 2 ^ p) (by omega), if_neg (by omega),
    Nat.add_sub_cancel' hql, Nat.add_sub_assoc hbias, pow_add, ← Nat.mul_assoc, Nat.mul_comm q,
    ← hq, Nat.mul_assoc, ← pow_add]
  congr 2
  omega

/-- The number of `p + 1` bits nearest to `n`, the one with an even last bit of two. -/
def roundEven (p n : ℕ) : ℕ :=
  let u := 2 ^ (n.log2 - p)
  let q := n / u
  (if u < 2 * (n % u) ∨ u = 2 * (n % u) ∧ q % 2 = 1 then q + 1 else q) * u

lemma roundEven_of_dvd {p n : ℕ} (h : 2 ^ (n.log2 - p) ∣ n) : roundEven p n = n := by
  have hpos : 0 < 2 ^ (n.log2 - p) := Nat.two_pow_pos _
  rw [roundEven, Nat.mod_eq_zero_of_dvd h, if_neg (by omega), Nat.div_mul_cancel h]

lemma roundEven_of_le {p n : ℕ} (h : n ≤ 2 ^ (p + 1)) : roundEven p n = n := by
  refine roundEven_of_dvd ?_
  rcases Nat.lt_or_eq_of_le h with hlt | rfl
  · have hlog : n.log2 - p = 0 := by
      by_cases h0 : n = 0
      · rw [h0, Nat.log2_zero, Nat.zero_sub]
      · have := (Nat.log2_lt h0).mpr hlt
        omega
    rw [hlog, pow_zero]
    exact Nat.one_dvd n
  · rw [Nat.log2_two_pow]
    exact pow_dvd_pow 2 (Nat.sub_le (p + 1) p)

example : roundEven 52 (2 ^ 53 + 1) = 2 ^ 53 := by decide +kernel

def signed (negative : Bool) (n : ℕ) : ℤ := if negative then -n else n

/-- The code of a number: the magnitude with the sign bit flipped, and with all
its bits flipped if it is negative. -/
def rank (w : ℕ) (negative : Bool) (m : ℕ) : ℕ := if negative then 2 ^ w - 1 - m else 2 ^ w + m

lemma compare_congr {α β : Type*} [LinearOrder α] [LinearOrder β] {a b : α} {c d : β}
    (hlt : a < b ↔ c < d) (hgt : b < a ↔ d < c) : compare a b = compare c d := by
  rcases lt_trichotomy a b with h | h | h
  · rw [compare_lt_iff_lt.mpr h, compare_lt_iff_lt.mpr (hlt.mp h)]
  · have hcd : c = d := le_antisymm (not_lt.mp fun hdc => absurd (hgt.mpr hdc) h.not_gt)
      (not_lt.mp fun hcd => absurd (hlt.mpr hcd) h.not_lt)
    rw [compare_eq_iff_eq.mpr h, compare_eq_iff_eq.mpr hcd]
  · rw [compare_gt_iff_gt.mpr h, compare_gt_iff_gt.mpr (hgt.mp h)]

lemma compare_rank {w p m n : ℕ} {a b : Bool} (hm : m < 2 ^ w) (hn : n < 2 ^ w)
    (hza : m = 0 → a = false) (hzb : n = 0 → b = false) :
    compare (rank w a m) (rank w b n) = compare (signed a (units p m)) (signed b (units p n)) := by
  -- the codes are ordered as the numbers are. There must be no negative zero
  have hlt : units p m < units p n ↔ m < n := (units_strictMono p).lt_iff_lt
  have hgt : units p n < units p m ↔ n < m := (units_strictMono p).lt_iff_lt
  have hpos : ∀ k, 0 < units p k ↔ 0 < k := fun k => by
    have h := (units_strictMono p).lt_iff_lt (a := 0) (b := k)
    rwa [units_zero] at h
  have hposm := hpos m
  have hposn := hpos n
  cases a with
  | false =>
    cases b with
    | false =>
      simp only [rank, signed, Bool.false_eq_true, if_false]
      exact compare_congr (by omega) (by omega)
    | true =>
      have hn0 : 0 < n := Nat.pos_of_ne_zero fun h => by simpa using hzb h
      simp only [rank, signed, Bool.false_eq_true, if_false, if_true]
      exact compare_congr (by omega) (by omega)
  | true =>
    have hm0 : 0 < m := Nat.pos_of_ne_zero fun h => by simpa using hza h
    cases b with
    | false =>
      simp only [rank, signed, Bool.false_eq_true, if_false, if_true]
      exact compare_congr (by omega) (by omega)
    | true =>
      simp only [rank, signed, if_true]
      exact compare_congr (by omega) (by omega)

end PersonnelBackend.BinaryFloat
