import Mathlib.Data.Nat.Notation
import Mathlib.Tactic.Common
import Mathlib.Algebra.Order.Group.Nat

/-! Comparing codes symbol by symbol, with a prefix before what it is a prefix of:
fields of the same length, fields that end with a delimiter smaller than every
other symbol, and numbers written with a fixed number of digits. -/
namespace PersonnelBackend.LexicalCode

universe u

variable {α : Type u} {cmp : α → α → Ordering}

lemma compareLex_append_self (hrefl : ∀ a, cmp a a = .eq) (l x y : List α) :
    List.compareLex cmp (l ++ x) (l ++ y) = List.compareLex cmp x y := by
  induction l with
  | nil => rfl
  | cons a l ih =>
    rw [List.cons_append, List.cons_append, List.compareLex_cons_cons, hrefl, ih, Ordering.eq_then]

lemma compareLex_append {l l' : List α} (h : l.length = l'.length) (x y : List α) :
    List.compareLex cmp (l ++ x) (l' ++ y) =
      (List.compareLex cmp l l').then (List.compareLex cmp x y) := by
  induction l generalizing l' with
  | nil =>
    obtain rfl : l' = [] := List.length_eq_zero_iff.mp h.symm
    rfl
  | cons a l ih =>
    cases l' with
    | nil => cases h
    | cons a' l' =>
      simp only [List.cons_append, List.compareLex_cons_cons]
      rw [ih (by simpa using h), Ordering.then_assoc]

section delimiter

variable {z : α}

structure IsLeast (cmp : α → α → Ordering) (z : α) : Prop where
  self : cmp z z = .eq
  lt : ∀ c, c ≠ z → cmp z c = .lt
  gt : ∀ c, c ≠ z → cmp c z = .gt

lemma compareLex_delimited (hz : IsLeast cmp z) {l l' : List α} (h : z ∉ l) (h' : z ∉ l')
    (x y : List α) :
    List.compareLex cmp (l ++ z :: x) (l' ++ z :: y) =
      (List.compareLex cmp l l').then (List.compareLex cmp x y) := by
  induction l generalizing l' with
  | nil =>
    cases l' with
    | nil =>
      simp only [List.nil_append, List.compareLex_cons_cons, hz.self, List.compareLex_nil_nil]
    | cons c l' =>
      have hc : c ≠ z := fun e => h' (e ▸ List.mem_cons_self)
      simp only [List.nil_append, List.cons_append, List.compareLex_cons_cons, hz.lt c hc,
        List.compareLex_nil_cons]
      rfl
  | cons a l ih =>
    have ha : a ≠ z := fun e => h (e ▸ List.mem_cons_self)
    cases l' with
    | nil =>
      simp only [List.nil_append, List.cons_append, List.compareLex_cons_cons, hz.gt a ha,
        List.compareLex_cons_nil]
      rfl
    | cons c l' =>
      simp only [List.cons_append, List.compareLex_cons_cons]
      rw [ih (fun hm => h (List.mem_cons_of_mem _ hm)) (fun hm => h' (List.mem_cons_of_mem _ hm)),
        Ordering.then_assoc]

lemma compareLex_concat (hz : IsLeast cmp z) (l l' : List α) :
    List.compareLex cmp (l ++ [z]) (l' ++ [z]) = List.compareLex cmp l l' := by
  have before : ∀ m : List α, m ≠ [] → List.compareLex cmp [z] (m ++ [z]) = .lt := by
    intro m hm
    obtain ⟨c, m, rfl⟩ := List.exists_cons_of_ne_nil hm
    rw [List.cons_append, List.compareLex_cons_cons]
    by_cases hc : c = z
    · subst hc
      cases m <;> simp [hz.self, List.compareLex_nil_cons]
    · rw [hz.lt c hc]
      rfl
  have after : ∀ m : List α, m ≠ [] → List.compareLex cmp (m ++ [z]) [z] = .gt := by
    intro m hm
    obtain ⟨c, m, rfl⟩ := List.exists_cons_of_ne_nil hm
    rw [List.cons_append, List.compareLex_cons_cons]
    by_cases hc : c = z
    · subst hc
      cases m <;> simp [hz.self, List.compareLex_cons_nil]
    · rw [hz.gt c hc]
      rfl
  induction l generalizing l' with
  | nil =>
    cases l' with
    | nil => simp [List.compareLex_cons_cons, hz.self]
    | cons c l' => exact before _ (by simp)
  | cons a l ih =>
    cases l' with
    | nil => exact after _ (by simp)
    | cons c l' =>
      rw [List.cons_append, List.cons_append, List.compareLex_cons_cons,
        List.compareLex_cons_cons, ih]

end delimiter

/-! ### Numbers with a fixed number of digits -/

/-- The last `k` digits of `n` to the base `b`, most significant first. -/
def digits (b : ℕ) : ℕ → ℕ → List ℕ
  | 0, _ => []
  | k + 1, n => n / b ^ k % b :: digits b k n

@[simp] lemma digits_length (b k n : ℕ) : (digits b k n).length = k := by
  induction k with
  | zero => rfl
  | succ k ih => simp [digits, ih]

lemma compare_add_mul {c r s p q : ℕ} (hr : r < c) (hs : s < c) :
    compare (r + c * p) (s + c * q) = (compare p q).then (compare r s) := by
  rcases Nat.lt_trichotomy p q with h | rfl | h
  · have hle : c * (p + 1) ≤ c * q := Nat.mul_le_mul_left c h
    rw [Nat.compare_eq_lt.mpr h, Nat.compare_eq_lt.mpr (by rw [Nat.mul_succ] at hle; omega)]
    rfl
  · rw [Nat.compare_eq_eq.mpr rfl, Ordering.eq_then]
    rcases Nat.lt_trichotomy r s with h | rfl | h
    · rw [Nat.compare_eq_lt.mpr h, Nat.compare_eq_lt.mpr (by omega)]
    · rw [Nat.compare_eq_eq.mpr rfl, Nat.compare_eq_eq.mpr rfl]
    · rw [Nat.compare_eq_gt.mpr h, Nat.compare_eq_gt.mpr (by omega)]
  · have hle : c * (q + 1) ≤ c * p := Nat.mul_le_mul_left c h
    rw [Nat.compare_eq_gt.mpr h, Nat.compare_eq_gt.mpr (by rw [Nat.mul_succ] at hle; omega)]
    rfl

lemma compareLex_digits {b : ℕ} (hb : 0 < b) {symbol : ℕ → α}
    (hs : ∀ i < b, ∀ j < b, cmp (symbol i) (symbol j) = compare i j) (k m n : ℕ) :
    List.compareLex cmp ((digits b k m).map symbol) ((digits b k n).map symbol) =
      compare (m % b ^ k) (n % b ^ k) := by
  -- numbers are compared by their digits, if the symbols of the digits are ordered as the
  -- digits are
  induction k with
  | zero => simp [digits, Nat.mod_one, List.compareLex_nil_nil]
  | succ k ih =>
    have hpos : 0 < b ^ k := Nat.pow_pos hb
    rw [digits, digits, List.map_cons, List.map_cons, List.compareLex_cons_cons, ih,
      hs _ (Nat.mod_lt _ hb) _ (Nat.mod_lt _ hb), pow_succ, Nat.mod_mul, Nat.mod_mul,
      compare_add_mul (Nat.mod_lt _ hpos) (Nat.mod_lt _ hpos)]

end PersonnelBackend.LexicalCode
