import Mathlib.Algebra.Order.Field.Rat
import Mathlib.Algebra.Order.Field.Basic
import PersonnelBackend.BinaryFloat
import PersonnelBackend.LexicalCode
import PersonnelBackend.DatabaseTable

/-! The keys the server stores rows under (`datum.cc`): a primary key is turned
into a string of bytes, and the rows are kept in the order of these strings. The
strings are ordered as ReQL orders the keys, and two keys share a string only if
they are the same value. -/
namespace PersonnelBackend.PrimaryKeys
open Document Database BinaryFloat LexicalCode

/-! ### Numbers -/

/-- A finite double: the sign bit, eleven bits of exponent and 52 of fraction. -/
structure Double where
  bits : BitVec 64
  finite : bits.toNat % 2 ^ 63 < 0x7FF0000000000000

namespace Double

def magnitude (d : Double) : ℕ := d.bits.toNat % 2 ^ 63

def units (d : Double) : ℤ := signed d.bits.msb (BinaryFloat.units 52 d.magnitude)

def value (d : Double) : ℚ := d.units / 2 ^ 1074

/-- Sort negative zero as equivalent to 0. -/
def unsignedZero (d : Double) : Double := if d.magnitude = 0 then ⟨0, by decide⟩ else d

/-- Mangle the bits so that lexicographic ordering matches double ordering. -/
def mangle (u : BitVec 64) : BitVec 64 :=
  if u &&& (1#64 <<< 63) ≠ 0 then ~~~u else u ^^^ (1#64 <<< 63)

end Double

/-! ### The strings of keys -/

mutual
/-- The values that can be primary keys, pseudotypes aside. -/
inductive Key
  | bool (value : Bool)
  | num (value : Double)
  | str (value : String)
  | array (items : Keys)
inductive Keys
  | nil
  | cons (head : Key) (rest : Keys)
end

inductive KeyError
  | nullByte (value : List UInt8) (offset : ℕ)
  | tooLong (key : Key)

def hexDigit (i : ℕ) : UInt8 := UInt8.ofNat (if i < 10 then 0x30 + i else 0x57 + i)

section strings

-- what `printf` writes for a double with the format `%.20g`
variable (reconstructable : Double → List UInt8)

/-- The method `num_to_str_key`: all 64 bits as hexadecimal digits, and the number
in decimal after them. -/
def numToStrKey (d : Double) (out : List UInt8) : List UInt8 :=
  let value := d.unsignedZero
  out ++ [0x4E] ++ (digits 16 16 (Double.mangle value.bits).toNat).map hexDigit ++
    0x23 :: reconstructable value

def boolToStrKey (b : Bool) (out : List UInt8) : List UInt8 :=
  out ++ [0x42] ++ [if b then 0x74 else 0x66]

/-- The method `str_to_str_key` without escaping, as primary keys use it. -/
def strToStrKey (s out : List UInt8) : Except KeyError (List UInt8) :=
  let out := out ++ [0x53]
  match s.findIdx? (· = 0) with
  | some offset => .error (.nullByte s offset)
  | none => .ok (out ++ s.take (maxKeySize - out.length))

mutual
def toStrKey : Key → List UInt8 → Except KeyError (List UInt8)
  | .bool b, out => .ok (boolToStrKey b out)
  | .num d, out => .ok (numToStrKey reconstructable d out)
  | .str s, out => strToStrKey (utf8 s) out
  | .array items, out => arrayToStrKey items (out ++ [0x41])
/-- The loop of `array_to_str_key`, which stops when the string is long enough. -/
def arrayToStrKey : Keys → List UInt8 → Except KeyError (List UInt8)
  | .nil, out => .ok out
  | .cons item rest, out =>
    if out.length < maxKeySize then
      match toStrKey item out with
      | .error e => .error e
      | .ok out => arrayToStrKey rest (out ++ [0])
    else .ok out
end

def printPrimary (key : Key) : Except KeyError (List UInt8) :=
  match toStrKey reconstructable key [] with
  | .error e => .error e
  | .ok s => if s.length > maxPrimaryKeySize then .error (.tooLong key) else .ok s

end strings

/-! ### The order of keys -/

def Key.type : Key → ℕ
  | .array _ => 2
  | .bool _ => 4
  | .num _ => 6
  | .str _ => 8

mutual
/-- The method `cmp`, on the values that can be primary keys. -/
def Key.cmp : Key → Key → Ordering
  | .bool a, .bool b => compare a b
  | .num a, .num b => compare a.value b.value
  | .str a, .str b => List.compareLex compare (utf8 a) (utf8 b)
  | .array a, .array b => a.cmp b
  | a, b => compare a.type b.type
def Keys.cmp : Keys → Keys → Ordering
  | .nil, .nil => .eq
  | .nil, .cons _ _ => .lt
  | .cons _ _, .nil => .gt
  | .cons a as, .cons b bs => (a.cmp b).then (as.cmp bs)
end

mutual
def Key.json : Key → Json
  | .bool b => .bool b
  | .num d => .num (.finite d.value)
  | .str s => .str s
  | .array items => .arr items.json
def Keys.json : Keys → Items
  | .nil => .nil
  | .cons head rest => .cons head.json rest.json
end

/-! ### Doubles and their codes -/

lemma xor_eq_add {w : ℕ} {x y : BitVec w} (h : x &&& y = 0#w) : x ^^^ y = x + y := by
  rw [BitVec.add_eq_or_of_and_eq_zero _ _ h]
  ext i hi
  have hbit : (x &&& y)[i] = false := by rw [h, BitVec.getElem_zero]
  rw [BitVec.getElem_and] at hbit
  rw [BitVec.getElem_xor, BitVec.getElem_or]
  cases hx : x[i] with
  | false => rw [Bool.false_xor, Bool.false_or]
  | true =>
    rw [hx, Bool.true_and] at hbit
    rw [hbit]
    rfl

lemma highBit_and (u : BitVec 64) : u &&& (1#64 <<< 63) ≠ 0 ↔ u.msb = true := by
  have htwo : (1#64 <<< 63) = BitVec.twoPow 64 63 := rfl
  rw [htwo, BitVec.and_twoPow, BitVec.msb_eq_getLsbD_last]
  split_ifs with h
  · exact ⟨fun _ => h, fun _ => by decide⟩
  · exact ⟨fun hne => absurd rfl hne, fun hb => absurd hb h⟩

lemma mangle_toNat (u : BitVec 64) :
    (Double.mangle u).toNat = rank 63 u.msb (u.toNat % 2 ^ 63) := by
  have hmsb := BitVec.msb_eq_decide u
  have hlt := u.isLt
  have hbit : (1#64 <<< 63).toNat = 2 ^ 63 := rfl
  rw [Double.mangle]
  split_ifs with h
  · rw [highBit_and] at h
    have hge : 2 ^ 63 ≤ u.toNat := by simpa [hmsb] using h
    rw [h, BitVec.toNat_not, rank, if_pos rfl]
    omega
  · have hmsb' : u.msb = false := by
      rw [highBit_and] at h
      simpa using h
    have hlow : u.toNat < 2 ^ 63 := by simpa [hmsb] using hmsb'
    rw [xor_eq_add (not_not.mp h), BitVec.toNat_add, hbit, hmsb', rank]
    simp only [Bool.false_eq_true, if_false]
    omega

namespace Double

lemma unsignedZero_units (d : Double) : d.unsignedZero.units = d.units := by
  rw [unsignedZero]
  split_ifs with h
  · rw [units, units, h]
    cases d.bits.msb <;> simp [signed, magnitude, BinaryFloat.units_zero]
  · rfl

lemma unsignedZero_sign (d : Double) (h : d.unsignedZero.magnitude = 0) :
    d.unsignedZero.bits.msb = false := by
  rw [unsignedZero] at h ⊢
  split_ifs at h ⊢ with hz
  · rfl
  · exact absurd h hz

lemma compare_mangle (d e : Double) :
    compare (mangle d.unsignedZero.bits).toNat (mangle e.unsignedZero.bits).toNat =
      compare d.units e.units := by
  have hm : ∀ d : Double, d.magnitude < 2 ^ 63 := fun d => Nat.mod_lt _ (by decide)
  rw [mangle_toNat, mangle_toNat, ← unsignedZero_units d, ← unsignedZero_units e]
  exact compare_rank (hm _) (hm _) d.unsignedZero_sign e.unsignedZero_sign

lemma compare_value (d e : Double) : compare d.value e.value = compare d.units e.units := by
  have hpos : (0 : ℚ) < 2 ^ 1074 := pow_pos (by decide) 1074
  refine compare_congr ?_ ?_
  · rw [value, value, div_lt_div_iff_of_pos_right hpos, Int.cast_lt]
  · rw [value, value, div_lt_div_iff_of_pos_right hpos, Int.cast_lt]

end Double

/-! ### What the accepted strings are -/

section accepted

variable (reconstructable : Double → List UInt8)

/-- The string of a number, whatever it is appended to. -/
def Double.code (d : Double) : List UInt8 :=
  0x4E :: ((digits 16 16 (Double.mangle d.unsignedZero.bits).toNat).map hexDigit ++
    0x23 :: reconstructable d.unsignedZero)

mutual
/-- The string of a key that is not cut off. -/
def Key.code : Key → List UInt8
  | .bool b => [0x42, if b then 0x74 else 0x66]
  | .num d => d.code reconstructable
  | .str s => 0x53 :: utf8 s
  | .array items => 0x41 :: items.code
def Keys.code : Keys → List UInt8
  | .nil => []
  | .cons head rest => head.code ++ 0 :: rest.code
end

mutual
/-- No string in the key has a null byte. -/
def Key.Plain : Key → Prop
  | .bool _ => True
  | .num _ => True
  | .str s => 0 ∉ utf8 s
  | .array items => items.Plain
def Keys.Plain : Keys → Prop
  | .nil => True
  | .cons head rest => head.Plain ∧ rest.Plain
end

variable {reconstructable}

lemma strToStrKey_ok {value out s : List UInt8} (h : strToStrKey value out = .ok s) :
    0 ∉ value ∧ s = out ++ [0x53] ++ value.take (maxKeySize - (out.length + 1)) := by
  rw [strToStrKey] at h
  split at h
  · cases h
  · next hnone =>
    refine ⟨fun hmem => ?_, ?_⟩
    · exact absurd (List.findIdx?_eq_none_iff.mp hnone 0 hmem) (by simp)
    · simpa using (Except.ok.inj h).symm

mutual
lemma toStrKey_length (k : Key) {out s : List UInt8} (h : toStrKey reconstructable k out = .ok s) :
    out.length ≤ s.length := by
  match k with
  | .bool b =>
    obtain rfl : boolToStrKey b out = s := by simpa [toStrKey] using h
    simp [boolToStrKey]
  | .num d =>
    obtain rfl : numToStrKey reconstructable d out = s := by simpa [toStrKey] using h
    simp only [numToStrKey, List.append_assoc, List.length_append]
    omega
  | .str value =>
    rw [toStrKey] at h
    rw [(strToStrKey_ok h).2, List.append_assoc, List.length_append]
    omega
  | .array items =>
    rw [toStrKey] at h
    have hle := arrayToStrKey_length items h
    rw [List.length_append] at hle
    omega
lemma arrayToStrKey_length (ks : Keys) {out s : List UInt8}
    (h : arrayToStrKey reconstructable ks out = .ok s) :
    out.length ≤ s.length := by
  match ks with
  | .nil =>
    obtain rfl : out = s := by simpa [arrayToStrKey] using h
    exact le_rfl
  | .cons item rest =>
    rw [arrayToStrKey] at h
    split_ifs at h
    · split at h
      · cases h
      · next out' hitem =>
        have h1 := toStrKey_length item hitem
        have h2 := arrayToStrKey_length rest h
        rw [List.length_append] at h2
        omega
    · obtain rfl : out = s := by simpa using h
      exact le_rfl
end

mutual
lemma toStrKey_code (k : Key) {out s : List UInt8} (h : toStrKey reconstructable k out = .ok s)
    (hs : s.length ≤ maxPrimaryKeySize) : k.Plain ∧ s = out ++ k.code reconstructable := by
  -- a string that is short enough for a primary key has not been cut off
  match k with
  | .bool b =>
    obtain rfl : boolToStrKey b out = s := by simpa [toStrKey] using h
    exact ⟨trivial, by simp [boolToStrKey, Key.code]⟩
  | .num d =>
    obtain rfl : numToStrKey reconstructable d out = s := by simpa [toStrKey] using h
    exact ⟨trivial, by simp [numToStrKey, Key.code, Double.code]⟩
  | .str value =>
    rw [toStrKey] at h
    obtain ⟨hplain, rfl⟩ := strToStrKey_ok h
    have hmax : maxPrimaryKeySize < maxKeySize := by decide
    have hshort : (utf8 value).length ≤ maxKeySize - (out.length + 1) := by
      rw [List.append_assoc, List.length_append, List.length_append, List.length_take] at hs
      simp only [List.length_singleton] at hs
      omega
    refine ⟨hplain, ?_⟩
    rw [List.take_of_length_le hshort, List.append_assoc]
    rfl
  | .array items =>
    rw [toStrKey] at h
    obtain ⟨hplain, rfl⟩ := arrayToStrKey_code items h hs
    exact ⟨hplain, by simp [Key.code]⟩
lemma arrayToStrKey_code (ks : Keys) {out s : List UInt8}
    (h : arrayToStrKey reconstructable ks out = .ok s) (hs : s.length ≤ maxPrimaryKeySize) :
    ks.Plain ∧ s = out ++ ks.code reconstructable := by
  match ks with
  | .nil =>
    obtain rfl : out = s := by simpa [arrayToStrKey] using h
    exact ⟨trivial, by simp [Keys.code]⟩
  | .cons item rest =>
    have hmax : maxPrimaryKeySize < maxKeySize := by decide
    have hout := arrayToStrKey_length _ h
    rw [arrayToStrKey, if_pos (by omega)] at h
    split at h
    · cases h
    · next out' hitem =>
      have hle := arrayToStrKey_length rest h
      rw [List.length_append] at hle
      obtain ⟨hplain, rfl⟩ := toStrKey_code item hitem (by omega)
      obtain ⟨hplain', rfl⟩ := arrayToStrKey_code rest h hs
      exact ⟨⟨hplain, hplain'⟩, by simp [Keys.code]⟩
end

lemma printPrimary_code {k : Key} {s : List UInt8} (h : printPrimary reconstructable k = .ok s) :
    k.Plain ∧ s = k.code reconstructable := by
  rw [printPrimary] at h
  split at h
  · cases h
  · next s' hk =>
    split_ifs at h with hlong
    obtain rfl : s' = s := by simpa using h
    simpa using toStrKey_code k hk (not_lt.mp hlong)

end accepted

/-! ### The order of the strings -/

lemma zero_isLeast : IsLeast (compare : UInt8 → UInt8 → Ordering) 0 where
  self := rfl
  lt := by
    intro c hc
    have hpos : (0 : UInt8) < c := UInt8.pos_iff_ne_zero.mpr hc
    simp [compare, compareOfLessAndEq, hpos]
  gt := by
    intro c hc
    simp [compare, compareOfLessAndEq, hc]

lemma compare_hexDigit : ∀ i < 16, ∀ j < 16, compare (hexDigit i) (hexDigit j) = compare i j := by
  decide

section order

variable (reconstructable : Double → List UInt8)

lemma compare_hex (m n : BitVec 64) :
    List.compareLex compare ((digits 16 16 m.toNat).map hexDigit)
      ((digits 16 16 n.toNat).map hexDigit) =
      compare m.toNat n.toNat := by
  have hm : m.toNat % 16 ^ 16 = m.toNat := Nat.mod_eq_of_lt m.isLt
  have hn : n.toNat % 16 ^ 16 = n.toNat := Nat.mod_eq_of_lt n.isLt
  rw [compareLex_digits (by decide) compare_hexDigit, hm, hn]

lemma mangle_injective {u v : BitVec 64} (h : (Double.mangle u).toNat = (Double.mangle v).toNat) :
    u = v := by
  have hu := BitVec.msb_eq_decide u
  have hv := BitVec.msb_eq_decide v
  have hult := u.isLt
  have hvlt := v.isLt
  rw [mangle_toNat, mangle_toNat, rank, rank, hu, hv] at h
  simp only [decide_eq_true_eq] at h
  refine BitVec.eq_of_toNat_eq ?_
  split_ifs at h <;> omega

lemma unsignedZero_eq {d e : Double} (h : d.value = e.value) : d.unsignedZero = e.unsignedZero := by
  have hmangle : (Double.mangle d.unsignedZero.bits).toNat =
      (Double.mangle e.unsignedZero.bits).toNat := by
    rw [← Nat.compare_eq_eq, Double.compare_mangle, ← Double.compare_value,
      Std.LawfulEqCmp.compare_eq_iff_eq, h]
  have hbits := mangle_injective hmangle
  cases hd : d.unsignedZero
  cases he : e.unsignedZero
  simpa [hd, he] using hbits

lemma compare_byte_self (c : UInt8) : compare c c = .eq := Std.ReflCmp.compare_self

lemma compare_num (d e : Double) (x y : List UInt8) :
    List.compareLex compare (d.code reconstructable ++ 0 :: x) (e.code reconstructable ++ 0 :: y) =
      (compare d.value e.value).then (List.compareLex compare x y) := by
  have hhex :=
    (compare_hex (Double.mangle d.unsignedZero.bits) (Double.mangle e.unsignedZero.bits)).trans
    ((Double.compare_mangle d e).trans (Double.compare_value d e).symm)
  have hsplit : ∀ (d : Double) (x : List UInt8), d.code reconstructable ++ 0 :: x =
      0x4E :: ((digits 16 16 (Double.mangle d.unsignedZero.bits).toNat).map hexDigit ++
        ((0x23 :: reconstructable d.unsignedZero) ++ 0 :: x)) := by
    intro d x
    simp [Double.code]
  rw [hsplit, hsplit, List.compareLex_cons_cons, compare_byte_self, Ordering.eq_then,
    compareLex_append (by simp), hhex]
  cases hc : compare d.value e.value with
  | lt => rfl
  | gt => rfl
  | eq =>
    -- equal digits come from equal doubles, so that the decimal texts agree as well
    rw [unsignedZero_eq (Std.LawfulEqCmp.compare_eq_iff_eq.mp hc),
      compareLex_append_self compare_byte_self, List.compareLex_cons_cons, compare_byte_self,
      Ordering.eq_then]

lemma code_head (k : Key) : ∃ c rest, k.code reconstructable = c :: rest ∧ c ≠ 0 := by
  cases k with
  | bool b => exact ⟨_, _, rfl, by decide⟩
  | num d => exact ⟨_, _, rfl, by decide⟩
  | str s => exact ⟨_, _, rfl, by decide⟩
  | array items => exact ⟨_, _, rfl, by decide⟩

mutual
lemma compare_code (a b : Key) (ha : a.Plain) (hb : b.Plain) (x y : List UInt8) :
    List.compareLex compare (a.code reconstructable ++ 0 :: x) (b.code reconstructable ++ 0 :: y) =
      (a.cmp b).then (List.compareLex compare x y) := by
  -- a string followed by a null byte is compared before what comes after it
  match a, b with
  | .bool a, .bool b => cases a <;> cases b <;> rfl
  | .num a, .num b => exact compare_num reconstructable a b x y
  | .str a, .str b => exact compareLex_delimited zero_isLeast ha hb x y
  | .array as, .array bs => exact compare_codes as bs ha hb x y
  | .bool _, .num _ | .bool _, .str _ | .bool _, .array _
  | .num _, .bool _ | .num _, .str _ | .num _, .array _
  | .str _, .bool _ | .str _, .num _ | .str _, .array _
  | .array _, .bool _ | .array _, .num _ | .array _, .str _ => rfl
lemma compare_codes (as bs : Keys) (ha : as.Plain) (hb : bs.Plain) (x y : List UInt8) :
    List.compareLex compare (as.code reconstructable ++ 0 :: x)
      (bs.code reconstructable ++ 0 :: y) =
      (as.cmp bs).then (List.compareLex compare x y) := by
  match as, bs with
  | .nil, .nil => rfl
  | .nil, .cons b bs =>
    obtain ⟨c, rest, hcode, hc⟩ := code_head reconstructable b
    simp only [Keys.code, hcode, List.nil_append, List.cons_append, List.compareLex_cons_cons,
      zero_isLeast.lt c hc]
    rfl
  | .cons a as, .nil =>
    obtain ⟨c, rest, hcode, hc⟩ := code_head reconstructable a
    simp only [Keys.code, hcode, List.nil_append, List.cons_append, List.compareLex_cons_cons,
      zero_isLeast.gt c hc]
    rfl
  | .cons a as, .cons b bs =>
    simp only [Keys.code, Keys.cmp, List.append_assoc, List.cons_append]
    rw [compare_code a b ha.1 hb.1, compare_codes as bs ha.2 hb.2, Ordering.then_assoc]
end

lemma compare_plain {a b : Key} (ha : a.Plain) (hb : b.Plain) :
    List.compareLex compare (a.code reconstructable) (b.code reconstructable) = a.cmp b := by
  rw [← compareLex_concat zero_isLeast, compare_code reconstructable a b ha hb,
    List.compareLex_nil_nil, Ordering.then_eq]

end order

lemma utf8_inj {a b : String} : utf8 a = utf8 b ↔ a = b := by
  rw [utf8, utf8, Array.toList_inj, ByteArray.ext_iff.symm, String.toByteArray_inj]

mutual
lemma Key.cmp_eq_iff (a b : Key) : a.cmp b = .eq ↔ a.json = b.json := by
  match a, b with
  | .bool a, .bool b => cases a <;> cases b <;> simp [Key.cmp, Key.json]
  | .num a, .num b => simp [Key.cmp, Key.json]
  | .str a, .str b => simp [Key.cmp, Key.json, utf8_inj]
  | .array as, .array bs => simpa [Key.cmp, Key.json] using Keys.cmp_eq_iff as bs
  | .bool _, .num _ | .bool _, .str _ | .bool _, .array _
  | .num _, .bool _ | .num _, .str _ | .num _, .array _
  | .str _, .bool _ | .str _, .num _ | .str _, .array _
  | .array _, .bool _ | .array _, .num _ | .array _, .str _ => simp [Key.cmp, Key.json, Key.type]
lemma Keys.cmp_eq_iff (as bs : Keys) : as.cmp bs = .eq ↔ as.json = bs.json := by
  match as, bs with
  | .nil, .nil => simp [Keys.cmp]
  | .nil, .cons _ _ => simp [Keys.cmp, Keys.json]
  | .cons _ _, .nil => simp [Keys.cmp, Keys.json]
  | .cons a as, .cons b bs =>
    simp only [Keys.cmp, Keys.json, Ordering.then_eq_eq, Key.cmp_eq_iff a b, Keys.cmp_eq_iff as bs,
      Items.cons.injEq]
end

/-! ### The check of the model -/

def Double.text (d : Double) : List UInt8 := Database.reconstructable (.finite d.value)

lemma Double.text_unsignedZero (d : Double) : d.unsignedZero.text = d.text := by
  rw [text, text, value, value, unsignedZero_units]

mutual
lemma Key.keySize_json (k : Key) (out : List UInt8) :
    (keySize k.json out.length).toOption =
      (toStrKey Double.text k out).toOption.map List.length := by
  match k with
  | .bool b => simp [Key.json, keySize, toStrKey, boolToStrKey, Except.toOption]
  | .num d =>
    have htext : (Database.reconstructable (.finite d.value)).length =
        d.unsignedZero.text.length := by
      rw [Double.text_unsignedZero, Double.text]
    simp only [Key.json, keySize, toStrKey, numToStrKey, Except.toOption, Option.map_some, htext,
      List.length_append, List.length_cons, List.length_nil, List.length_map, digits_length]
    congr 1
    omega
  | .str s =>
    simp only [Key.json, keySize, toStrKey, strToStrKey]
    cases (utf8 s).findIdx? (· = 0) with
    | some offset => rfl
    | none =>
      simp only [Except.toOption, Option.map_some, List.length_append, List.length_singleton,
        List.length_take]
  | .array items =>
    have h := Keys.keySize_json items (out ++ [0x41])
    rwa [List.length_append] at h
lemma Keys.keySize_json (ks : Keys) (out : List UInt8) :
    (itemsKeySize ks.json out.length).toOption =
      (arrayToStrKey Double.text ks out).toOption.map List.length := by
  match ks with
  | .nil => rfl
  | .cons item rest =>
    rw [Keys.json, itemsKeySize, arrayToStrKey]
    split_ifs
    · have h := Key.keySize_json item out
      cases hitem : toStrKey Double.text item out with
      | error e =>
        rw [hitem] at h
        cases hsize : keySize item.json out.length with
        | error e => rfl
        | ok size =>
          rw [hsize] at h
          cases h
      | ok s =>
        rw [hitem] at h
        cases hsize : keySize item.json out.length with
        | error e =>
          rw [hsize] at h
          cases h
        | ok size =>
          rw [hsize] at h
          obtain rfl : size = s.length := Option.some.inj h
          have hrest := Keys.keySize_json rest (s ++ [0])
          rwa [List.length_append] at hrest
    · rfl
end

/-- The model takes exactly the keys that have a string. -/
theorem isPrimary_json_iff (k : Key) :
    isPrimary k.json = true ↔ ∃ s, printPrimary Double.text k = .ok s := by
  have h := Key.keySize_json k []
  rw [isPrimary, checkPrimary, printPrimary]
  cases hstr : toStrKey Double.text k [] with
  | error e =>
    rw [hstr] at h
    cases hsize : keySize k.json 0 with
    | error e => simp [Except.isOk, Except.toBool]
    | ok size =>
      rw [List.length_nil, hsize] at h
      cases h
  | ok s =>
    rw [hstr] at h
    cases hsize : keySize k.json 0 with
    | error e =>
      rw [List.length_nil, hsize] at h
      cases h
    | ok size =>
      rw [List.length_nil, hsize] at h
      obtain rfl : size = s.length := Option.some.inj h
      dsimp only
      split_ifs <;> simp [Except.isOk, Except.toBool]

section results

variable (reconstructable : Double → List UInt8) (a b : Key) {s t : List UInt8}

/-- The rows of a table are stored in the order of their keys. -/
theorem stored_in_order (ha : printPrimary reconstructable a = .ok s)
    (hb : printPrimary reconstructable b = .ok t) :
    List.compareLex compare s t = a.cmp b := by
  obtain ⟨hplain, rfl⟩ := printPrimary_code ha
  obtain ⟨hplain', rfl⟩ := printPrimary_code hb
  exact compare_plain reconstructable hplain hplain'

def minusTwo : Double := ⟨0xC000000000000000, by decide⟩
def half : Double := ⟨0x3FE0000000000000, by decide⟩

/-- The array of a negative number and a boolean comes before that of a positive
number. -/
theorem stored_in_order_half : minusTwo.text = utf8 "-2" ∧ half.text = utf8 "0.5" ∧ ∃ s t,
    printPrimary Double.text (.array (.cons (.num minusTwo) (.cons (.bool true) .nil))) = .ok s ∧
    printPrimary Double.text (.array (.cons (.num half) .nil)) = .ok t ∧
    List.compareLex compare s t = .lt := by
  obtain ⟨s, hs⟩ := (isPrimary_json_iff
    (.array (.cons (.num minusTwo) (.cons (.bool true) .nil)))).mp (by decide +kernel)
  obtain ⟨t, ht⟩ := (isPrimary_json_iff (.array (.cons (.num half) .nil))).mp (by decide +kernel)
  refine ⟨by decide +kernel, by decide +kernel, s, t, hs, ht,
    (stored_in_order Double.text _ _ hs ht).trans ?_⟩
  have hlt : compare minusTwo.value half.value = .lt := by
    rw [Double.compare_value, ← Double.compare_mangle]
    decide
  rw [Key.cmp, Keys.cmp, Key.cmp, hlt]
  rfl

variable {reconstructable a b}

lemma printPrimary_eq_iff (ha : printPrimary reconstructable a = .ok s)
    (hb : printPrimary reconstructable b = .ok t) :
    s = t ↔ a.json = b.json := by
  obtain ⟨hplain, rfl⟩ := printPrimary_code ha
  obtain ⟨hplain', rfl⟩ := printPrimary_code hb
  rw [← Key.cmp_eq_iff, ← compare_plain reconstructable hplain hplain',
    Std.LawfulEqCmp.compare_eq_iff_eq]

end results

end PersonnelBackend.PrimaryKeys
