import PersonnelBackend.LexicalCode

/-! The bytes of strings are ordered as the strings are: the code of a character is
a number to the base 64, and the first byte of a longer code is larger. -/
namespace PersonnelBackend.Utf8Order
open LexicalCode

lemma compare_byte_of_lt {a b : ℕ} (h : a < b) (hb : b < 256) :
    compare (UInt8.ofNat a) (UInt8.ofNat b) = .lt := by
  have hbytes : UInt8.ofNat a < UInt8.ofNat b := by
    rw [UInt8.lt_iff_toNat_lt, UInt8.toNat_ofNat', UInt8.toNat_ofNat']
    omega
  exact if_pos hbytes

lemma compare_byte {i j n : ℕ} (hi : i + n < 256) (hj : j + n < 256) :
    compare (UInt8.ofNat (i + n)) (UInt8.ofNat (j + n)) = compare i j := by
  rcases Nat.lt_trichotomy i j with h | rfl | h
  · rw [compare_byte_of_lt (by omega) hj, Nat.compare_eq_lt.mpr h]
  · rw [Nat.compare_eq_eq.mpr rfl]
    exact Std.ReflCmp.compare_self
  · rw [Nat.compare_eq_gt.mpr h]
    exact Std.OrientedCmp.gt_iff_lt.mpr (compare_byte_of_lt (by omega) hi)

lemma compareLex_byte_lt {a b : ℕ} (hb : b < 256) {x y : List UInt8}
    (h : a < b ∨ a = b ∧ List.compareLex compare x y = .lt) :
    List.compareLex compare (UInt8.ofNat a :: x) (UInt8.ofNat b :: y) = .lt := by
  rw [List.compareLex_cons_cons]
  rcases h with h | ⟨rfl, h⟩
  · rw [compare_byte_of_lt h hb]
    rfl
  · rw [h, show compare (UInt8.ofNat a) (UInt8.ofNat a) = .eq from Std.ReflCmp.compare_self]
    rfl

/-- How many bytes follow the first byte of a character. -/
def following (v : ℕ) : ℕ :=
  if v ≤ 0x7F then 0 else if v ≤ 0x7FF then 1 else if v ≤ 0xFFFF then 2 else 3

/-- What the first byte is counted from. -/
def lead : ℕ → ℕ
  | 0 => 0
  | 1 => 0xC0
  | 2 => 0xE0
  | _ => 0xF0

/-- The code of a character, as digits to the base 64. -/
def charCode (v : ℕ) : List UInt8 :=
  UInt8.ofNat (v / 64 ^ following v + lead (following v)) ::
    (digits 64 (following v) v).map fun i => UInt8.ofNat (i + 0x80)

lemma toNat_lt (c : Char) : c.val.toNat < 0x110000 := by
  rcases c.valid with h | h
  · exact Nat.lt_trans h (by decide)
  · exact h.2

lemma utf8EncodeChar_eq (c : Char) : String.utf8EncodeChar c = charCode c.val.toNat := by
  have hmax := toNat_lt c
  simp only [String.utf8EncodeChar, charCode, following]
  generalize c.val.toNat = v at hmax ⊢
  split_ifs with h1 h2 h3
  · simp [lead, digits]
  · have hv : v / 64 % 32 = v / 64 := by omega
    simp [lead, digits, hv]
  · have hv : v / 4096 % 16 = v / 4096 := by omega
    simp [lead, digits, hv]
  · have hv : v / 262144 % 8 = v / 262144 := by omega
    simp [lead, digits, hv]

lemma first_lt {v : ℕ} (h : v < 0x110000) : v / 64 ^ following v + lead (following v) < 256 := by
  unfold following
  split_ifs <;> simp only [lead] <;> omega

lemma following_cases {v w : ℕ} (h : v < w) :
    following v = following w ∨
      v / 64 ^ following v + lead (following v) < w / 64 ^ following w + lead (following w) := by
  -- a larger character has a longer code with a larger first byte, or a code of the same
  -- length
  unfold following
  split_ifs <;>
  first
  | exact Or.inl rfl
  | refine Or.inr ?_
    simp only [lead]
    omega

lemma compareLex_charCode {v w : ℕ} (h : v < w) (hw : w < 0x110000) (x y : List UInt8) :
    List.compareLex compare (charCode v ++ x) (charCode w ++ y) = .lt := by
  have hbyte := first_lt hw
  rw [charCode, charCode, List.cons_append, List.cons_append]
  refine compareLex_byte_lt hbyte ?_
  rcases following_cases h with heq | hlt
  · rw [heq]
    generalize following w = k
    have hpos : 0 < 64 ^ k := Nat.pow_pos (by decide)
    rcases Nat.lt_or_ge (v / 64 ^ k) (w / 64 ^ k) with hlt | hge
    · exact Or.inl (by omega)
    · have hle : v / 64 ^ k ≤ w / 64 ^ k := Nat.div_le_div_right h.le
      have hmod : v % 64 ^ k < w % 64 ^ k := by
        have hv := Nat.div_add_mod v (64 ^ k)
        have hw := Nat.div_add_mod w (64 ^ k)
        have heq : v / 64 ^ k = w / 64 ^ k := le_antisymm hle hge
        rw [heq] at hv
        omega
      refine Or.inr ⟨by omega, ?_⟩
      have hdigits : ∀ i < 64, ∀ j < 64, compare (UInt8.ofNat (i + 0x80)) (UInt8.ofNat (j + 0x80)) =
          compare i j :=
        fun i hi j hj => compare_byte (by omega) (by omega)
      rw [compareLex_append (by simp), compareLex_digits (by decide) hdigits,
        Nat.compare_eq_lt.mpr hmod]
      rfl
  · exact Or.inl hlt

lemma compareLex_utf8 {s t : String} (h : s < t) :
    List.compareLex compare s.toByteArray.data.toList t.toByteArray.data.toList = .lt := by
  have hbytes : ∀ s : String, s.toByteArray.data.toList = s.toList.flatMap String.utf8EncodeChar :=
    fun s => by
    rw [← String.utf8Encode_toList, List.utf8Encode]
    simp
  rw [hbytes, hbytes]
  have hlist : s.toList < t.toList := h
  generalize s.toList = l at hlist
  generalize t.toList = l' at hlist
  induction hlist with
  | @nil b l' =>
    rw [List.flatMap_cons, utf8EncodeChar_eq, charCode, List.cons_append, List.flatMap_nil]
    rfl
  | @rel a l b l' h =>
    rw [List.flatMap_cons, List.flatMap_cons, utf8EncodeChar_eq, utf8EncodeChar_eq]
    exact compareLex_charCode h (toNat_lt b) _ _
  | cons h ih =>
    rw [List.flatMap_cons, List.flatMap_cons,
      compareLex_append_self (fun _ => Std.ReflCmp.compare_self)]
    exact ih

end PersonnelBackend.Utf8Order
