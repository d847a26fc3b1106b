import Mathlib.Algebra.BigOperators.Group.List.Basic
import PersonnelBackend.FrameStream

/-! Parts laid one after another behind a table that says where each of them
begins: a part is found by its number without looking at the others, and by
bisection if the parts are sorted. -/
namespace PersonnelBackend.Packed
open Framing

universe u

/-! ### Where the parts begin -/

/-- Where the parts of these sizes begin if the first of them begins at `next`,
which is left out. -/
def startsFrom : ℕ → List ℕ → List ℕ
  | _, [] => []
  | _, [_] => []
  | next, size :: size' :: sizes => (next + size) :: startsFrom (next + size) (size' :: sizes)

lemma startsFrom_length (next : ℕ) (sizes : List ℕ) :
    (startsFrom next sizes).length = sizes.length - 1 := by
  induction sizes generalizing next with
  | nil => rfl
  | cons size sizes ih =>
    cases sizes with
    | nil => rfl
    | cons size' sizes => simp [startsFrom, ih]

lemma startsFrom_getElem? (next : ℕ) (sizes : List ℕ) {i : ℕ} (hi : i + 1 < sizes.length) :
    (startsFrom next sizes)[i]? = some (next + (sizes.take (i + 1)).sum) := by
  induction sizes generalizing next i with
  | nil => simp at hi
  | cons size sizes ih =>
    cases sizes with
    | nil => simp at hi
    | cons size' sizes =>
      cases i with
      | zero => simp [startsFrom]
      | succ i =>
        have hrest := ih (next + size) (i := i) (by simpa using hi)
        rw [startsFrom, List.getElem?_cons_succ, hrest, List.take_succ_cons (i := i + 1),
          List.sum_cons, Nat.add_assoc]

lemma startsFrom_le {next start : ℕ} {sizes : List ℕ} (h : start ∈ startsFrom next sizes) :
    start ≤ next + sizes.sum := by
  induction sizes generalizing next with
  | nil => cases h
  | cons size sizes ih =>
    cases sizes with
    | nil => cases h
    | cons size' sizes =>
      rw [startsFrom] at h
      rcases List.mem_cons.mp h with rfl | h
      · simp
      · have := ih h
        simp only [List.sum_cons] at this ⊢
        omega

/-! ### Parts -/

section parts

variable {α : Type u} {parts : List (List α)} {i : ℕ}

lemma drop_start (hi : i < parts.length) :
    parts.flatten.drop ((parts.map List.length).take i).sum =
      parts[i] ++ (parts.drop (i + 1)).flatten := by
  rw [List.drop_sum_flatten, List.drop_eq_getElem_cons hi, List.flatten_cons]

lemma start_le (parts : List (List α)) (i : ℕ) :
    ((parts.map List.length).take i).sum ≤ parts.flatten.length := by
  have hsplit := List.sum_take_add_sum_drop (parts.map List.length) i
  rw [List.length_flatten]
  omega

lemma drop_header (header : List α) (hi : i < parts.length) (s : List α) :
    (header ++ (parts.flatten ++ s)).drop (header.length + ((parts.map List.length).take i).sum) =
      parts[i] ++ ((parts.drop (i + 1)).flatten ++ s) := by
  rw [List.drop_append, List.drop_eq_nil_of_le (Nat.le_add_right _ _), List.nil_append,
    Nat.add_sub_cancel_left, List.drop_append_of_le_length (start_le parts i), drop_start hi,
    List.append_assoc]

lemma drop_mul {w : ℕ} (hw : ∀ part ∈ parts, part.length = w) (hi : i < parts.length) :
    parts.flatten.drop (i * w) = parts[i] ++ (parts.drop (i + 1)).flatten := by
  have hlengths : parts.map List.length = List.replicate parts.length w :=
    List.eq_replicate_iff.mpr ⟨List.length_map _, by simpa using hw⟩
  rw [← drop_start hi, hlengths, List.take_replicate, List.sum_replicate_nat, Nat.min_eq_left hi.le]

end parts

def table (w : ℕ) (entries : List ℕ) : List UInt8 := (entries.map (leBytes w)).flatten

lemma table_length (w : ℕ) (entries : List ℕ) : (table w entries).length = entries.length * w := by
  rw [table, List.length_flatten, List.map_map]
  have hconst : (List.length ∘ leBytes w) = fun _ => w := funext fun n => leBytes_length w n
  rw [hconst, List.map_const', List.sum_replicate_nat]

lemma take_table {w : ℕ} {entries : List ℕ} {i n : ℕ} (h : entries[i]? = some n)
    (rest : List UInt8) :
    ((table w entries ++ rest).drop (i * w)).take w = leBytes w n := by
  obtain ⟨hi, rfl⟩ := List.getElem?_eq_some_iff.mp h
  have hi' : i < (entries.map (leBytes w)).length := by rwa [List.length_map]
  have hentry := drop_mul (w := w) (by simp) hi'
  have hle : i * w ≤ (table w entries).length := by
    rw [table_length]
    exact Nat.mul_le_mul_right w hi.le
  rw [List.drop_append_of_le_length hle, table, hentry, List.getElem_map, List.append_assoc,
    List.take_left' (leBytes_length w _)]

/-! ### Bisection -/

section bisection

variable {β : Type u}

/-- Look between `lo` and `hi` for a number whose probe says `eq`. No probe fails
the search. -/
def bisect (probe : ℕ → Option (Ordering × β)) : ℕ → ℕ → ℕ → Option (Option β)
  | 0, _, _ => none
  | fuel + 1, lo, hi =>
    if lo < hi then
      let center := lo + (hi - lo) / 2
      match probe center with
      | none => none
      | some (.eq, b) => some (some b)
      | some (.lt, _) => bisect probe fuel lo center
      | some (.gt, _) => bisect probe fuel (center + 1) hi
    else some none

variable {probe : ℕ → Option (Ordering × β)} {order : ℕ → Ordering} {found : ℕ → β}

lemma bisect_spec (hgt : ∀ i j, i ≤ j → order j = .gt → order i = .gt)
    (hlt : ∀ i j, i ≤ j → order i = .lt → order j = .lt) {fuel lo hi : ℕ} (hf : hi - lo < fuel)
    (hprobe : ∀ i, lo ≤ i → i < hi → probe i = some (order i, found i)) :
    (∃ i, lo ≤ i ∧ i < hi ∧ order i = .eq ∧ bisect probe fuel lo hi = some (some (found i))) ∨
      ((∀ i, lo ≤ i → i < hi → order i ≠ .eq) ∧ bisect probe fuel lo hi = some none) := by
  -- bisection finds the place in a sorted sequence, or there is none
  induction fuel generalizing lo hi with
  | zero => omega
  | succ fuel ih =>
    rw [bisect]
    by_cases hlh : lo < hi
    · have hcenter := hprobe (lo + (hi - lo) / 2) (by omega) (by omega)
      simp only [if_pos hlh, hcenter]
      generalize hc : lo + (hi - lo) / 2 = center at hcenter ⊢
      cases ho : order center with
      | eq => exact Or.inl ⟨center, by omega, by omega, ho, rfl⟩
      | lt =>
        have hfuel : center - lo < fuel := by omega
        rcases ih hfuel (fun i h h' => hprobe i h (by omega)) with
          ⟨i, h, h', he, hb⟩ | ⟨hnone, hb⟩
        · exact Or.inl ⟨i, h, by omega, he, hb⟩
        · refine Or.inr ⟨fun i h h' => ?_, hb⟩
          rcases Nat.lt_or_ge i center with hi' | hi'
          · exact hnone i h hi'
          · simp [hlt center i hi' ho]
      | gt =>
        have hfuel : hi - (center + 1) < fuel := by omega
        rcases ih hfuel (fun i h h' => hprobe i (by omega) h') with
          ⟨i, h, h', he, hb⟩ | ⟨hnone, hb⟩
        · exact Or.inl ⟨i, by omega, h', he, hb⟩
        · refine Or.inr ⟨fun i h h' => ?_, hb⟩
          rcases Nat.lt_or_ge center i with hi' | hi'
          · exact hnone i hi' h'
          · simp [hgt i center hi' ho]
    · rw [if_neg hlh]
      exact Or.inr ⟨fun i h h' => by omega, rfl⟩

end bisection

end PersonnelBackend.Packed
