import PersonnelBackend.DatumFormat

/-! What is written can be read, from a stream and out of the middle of a buffer. -/
namespace PersonnelBackend.Datums
open Framing Packed
open PrimaryKeys (Double)

/-! ### Numbers and strings -/

lemma and_127 (n : ℕ) : n &&& 127 = n % 128 := Nat.and_two_pow_sub_one_eq_mod n 7

lemma toNat_digit (n : ℕ) : (UInt8.ofNat (n &&& 127 ||| 128)).toNat = n % 128 + 128 := by
  have hor : n % 128 ||| 128 = n % 128 + 128 := by
    have hlt : n % 128 < 2 ^ 7 := Nat.mod_lt n (by decide)
    have h := Nat.two_pow_add_eq_or_of_lt hlt 1
    rw [Nat.or_comm, Nat.add_comm]
    exact h.symm
  rw [and_127, hor, UInt8.toNat_ofNat']
  omega

lemma and_128 (b : UInt8) : b.toNat &&& 128 = 0 ↔ b.toNat < 128 := by
  have hall : ∀ i : Fin 256, i.val &&& 128 = 0 ↔ i.val < 128 := by decide +kernel
  exact hall ⟨b.toNat, b.toNat_lt⟩

lemma serializeVarintWith_length {fuel n : ℕ} (h : n < 128 ^ (fuel + 1)) :
    (serializeVarintWith (fuel + 1) n).length = 1 + digitsLeft fuel (n / 128) := by
  induction fuel generalizing n with
  | zero =>
    rw [serializeVarintWith, if_neg (by omega)]
    rfl
  | succ fuel ih =>
    rw [serializeVarintWith, digitsLeft]
    by_cases hn : 128 ≤ n
    · have hrest : n / 128 < 128 ^ (fuel + 1) := by
        rw [Nat.div_lt_iff_lt_mul (by decide), ← pow_succ]
        exact h
      rw [if_pos hn, if_pos (Nat.div_pos hn (by decide)), List.length_cons,
        Nat.shiftRight_eq_div_pow, ih hrest, Nat.add_assoc]
    · rw [if_neg hn, if_neg (by omega), List.length_singleton]

lemma serializeVarint_length {n : ℕ} (h : n < 2 ^ 64) :
    (serializeVarint n).length = varintSerializedSize n :=
  serializeVarintWith_length (h.trans (by decide))

lemma or_shiftLeft {value offset : ℕ} (h : value < 2 ^ offset) (x : ℕ) :
    value ||| x <<< offset = value + x * 2 ^ offset := by
  rw [Nat.or_comm, ← Nat.shiftLeft_add_eq_or_of_lt h, Nat.shiftLeft_eq, Nat.add_comm]

lemma deserializeVarintFrom_last {offset value : ℕ} {b : UInt8} (hb : b.toNat < 128)
    (hv : value < 2 ^ offset) (ho : offset = 63 → b.toNat ≤ 1) (s : List UInt8) :
    deserializeVarintFrom offset value (b :: s) = .ok (value + b.toNat * 2 ^ offset, s) := by
  have hx : b.toNat &&& 127 = b.toNat := by rw [and_127, Nat.mod_eq_of_lt hb]
  simp only [deserializeVarintFrom, hx, if_pos ((and_128 b).mpr hb), or_shiftLeft hv]
  rw [if_neg fun h => absurd (ho h.1) (by omega)]

lemma deserializeVarintFrom_more {offset value : ℕ} {b : UInt8} (hb : 128 ≤ b.toNat)
    (hv : value < 2 ^ offset) (ho : offset ≠ 63) (s : List UInt8) :
    deserializeVarintFrom offset value (b :: s) =
      deserializeVarintFrom (offset + 7) (value + b.toNat % 128 * 2 ^ offset) s := by
  have hmore : ¬ b.toNat &&& 128 = 0 := fun h => absurd ((and_128 b).mp h) (by omega)
  simp only [deserializeVarintFrom, and_127, if_neg hmore, if_neg ho, or_shiftLeft hv]

lemma deserializeVarintFrom_serialize {fuel k n value : ℕ} (hk : k + fuel = 9)
    (hv : value < 2 ^ (7 * k)) (hn : n < 2 ^ (64 - 7 * k)) (s : List UInt8) :
    deserializeVarintFrom (7 * k) value (serializeVarintWith (fuel + 1) n ++ s) =
      .ok (value + n * 2 ^ (7 * k), s) := by
  induction fuel generalizing k n value with
  | zero =>
    obtain rfl : k = 9 := hk
    have hbyte : (UInt8.ofNat n).toNat = n := by
      rw [UInt8.toNat_ofNat']
      omega
    rw [serializeVarintWith, if_neg (by omega), List.singleton_append,
      deserializeVarintFrom_last (by omega) hv (by omega), hbyte]
  | succ fuel ih =>
    rw [serializeVarintWith]
    by_cases hmore : 128 ≤ n
    · rw [if_pos hmore, List.cons_append,
        deserializeVarintFrom_more (by rw [toNat_digit]; omega) hv (by omega), toNat_digit,
        Nat.shiftRight_eq_div_pow]
      have hpow : 2 ^ (7 * (k + 1)) = 128 * 2 ^ (7 * k) := by
        rw [show 7 * (k + 1) = 7 + 7 * k by omega, pow_add]
        rfl
      have hdigit : (n % 128 + 128) % 128 = n % 128 := by omega
      have hle : n % 128 * 2 ^ (7 * k) ≤ 127 * 2 ^ (7 * k) := Nat.mul_le_mul_right _ (by omega)
      have hrest : n / 2 ^ 7 < 2 ^ (64 - 7 * (k + 1)) := by
        rw [Nat.div_lt_iff_lt_mul (by decide), ← pow_add]
        exact hn.trans_eq (congrArg _ (by omega))
      have hn' : n = n % 128 + n / 2 ^ 7 * 128 := by omega
      rw [show 7 * k + 7 = 7 * (k + 1) by omega, hdigit, ih (by omega) (by omega) hrest, hpow]
      nth_rewrite 3 [hn']
      rw [Nat.add_mul, Nat.mul_assoc, Nat.add_assoc]
    · have hbyte : (UInt8.ofNat n).toNat = n := by
        rw [UInt8.toNat_ofNat']
        omega
      rw [if_neg hmore, List.singleton_append,
        deserializeVarintFrom_last (by omega) hv (by omega), hbyte]

lemma deserializeVarint_serialize {n : ℕ} (hn : n < 2 ^ 64) (s : List UInt8) :
    deserializeVarint (serializeVarint n ++ s) = .ok (n, s) := by
  have h : deserializeVarintFrom (7 * 0) 0 (serializeVarintWith (9 + 1) n ++ s) =
      .ok (0 + n * 2 ^ (7 * 0), s) :=
    deserializeVarintFrom_serialize rfl (by decide) hn s
  rw [Nat.zero_add, Nat.mul_zero, pow_zero, Nat.mul_one] at h
  exact h

namespace Read

variable {α β : Type} {read : Read α} {s s' : List UInt8} {a : α}

lemma bind_ok (h : read s = .ok (a, s')) (f : α → Read β) : (read >>= f) s = f a s' := by
  change (read s >>= fun p => f p.1 p.2) = f a s'
  rw [h]
  rfl

lemma guaranteed_ok (h : read s = .ok (a, s')) : read.guaranteed s = some (a, s') := by
  rw [guaranteed, h]
  rfl

end Read

lemma inRange_some {α : Type} (a : α) (s : List UInt8) : inRange (some a) s = .ok (a, s) := rfl

lemma forceRead_append {n : ℕ} {bytes : List UInt8} (h : bytes.length = n) (s : List UInt8) :
    forceRead n (bytes ++ s) = .ok (bytes, s) := by
  have hlen : ¬ (bytes ++ s).length < n := by
    rw [List.length_append]
    omega
  rw [forceRead, if_neg hlen, List.take_left' h, List.drop_left' h]

lemma deserializeString_serialize {str : List UInt8} (h : str.length < 2 ^ 64) (s : List UInt8) :
    deserializeString (serializeString str ++ s) = .ok (str, s) := by
  rw [deserializeString, serializeString, List.append_assoc,
    Read.bind_ok (deserializeVarint_serialize h (str ++ s)), forceRead_append rfl]

lemma serializeString_length {str : List UInt8} (h : str.length < 2 ^ 64) :
    (serializeString str).length = stringSerializedSize str := by
  rw [serializeString, List.length_append, serializeVarint_length h, stringSerializedSize]

lemma stringAt_serialize {str : List UInt8} (h : str.length < 2 ^ 64) (s : List UInt8) :
    stringAt (serializeString str ++ s) = some str := by
  have hlen := serializeString_length h
  have hvarint := serializeVarint_length h
  rw [stringSerializedSize] at hlen
  have hdrop : (serializeString str ++ s).drop (varintSerializedSize str.length) = str ++ s := by
    rw [serializeString, List.append_assoc, List.drop_left' hvarint]
  have hread := Read.guaranteed_ok (deserializeVarint_serialize h (str ++ s))
  rw [← List.append_assoc, ← serializeString] at hread
  rw [stringAt, hread]
  simp only [Option.bind_eq_bind, Option.bind_some]
  rw [hdrop, List.take_left' rfl, if_pos]
  rw [List.length_append]
  omega

lemma doubleOfBits_bits (d : Double) : doubleOfBits d.bits.toNat = some d := by
  have hbits : BitVec.ofNat 64 d.bits.toNat = d.bits := by
    rw [BitVec.ofNat_toNat, BitVec.setWidth_eq]
  rw [doubleOfBits, dif_pos (by rw [hbits]; exact d.finite)]
  simp only [hbits]

lemma toNat_bits (d : Double) :
    d.bits.toNat = (if d.bits.msb then 2 ^ 63 else 0) + d.magnitude := by
  have hlt := d.bits.isLt
  rw [Double.magnitude, BitVec.msb_eq_decide]
  split_ifs with h
  · have hle : 2 ^ 63 ≤ d.bits.toNat := of_decide_eq_true h
    omega
  · have hlt' : ¬ 2 ^ 63 ≤ d.bits.toNat := fun hle => h (decide_eq_true hle)
    omega

lemma numberAsInteger_spec {d : Double} {i : ℕ} (h : numberAsInteger d = some i) :
    i ≤ 2 ^ 53 ∧ doubleOfInteger d.bits.msb i = some d := by
  rw [numberAsInteger] at h
  simp only at h
  split_ifs at h with hle hexact
  obtain rfl := Option.some.inj h
  have hi : BinaryFloat.units 52 d.magnitude / one ≤ 2 ^ 53 :=
    Nat.div_le_of_le_mul (by rwa [Nat.mul_comm])
  have hmagnitude : BinaryFloat.ofNat 52 1023 (BinaryFloat.units 52 d.magnitude / one) =
      d.magnitude := by
    refine (BinaryFloat.units_strictMono 52).injective ?_
    exact (BinaryFloat.units_ofNat hi (by decide)).trans hexact
  refine ⟨hi, ?_⟩
  rw [doubleOfInteger, hmagnitude, ← toNat_bits, doubleOfBits_bits]

/-! ### Scalars -/

lemma deserializeType_code (type : SerializedType) (s : List UInt8) :
    deserializeType (type.code :: s) = .ok (type, s) := by
  rw [deserializeType, SerializedType.ofCode_code]

lemma deserializeWith_code (fuel : ℕ) (type : SerializedType) (s : List UInt8) :
    deserializeWith (fuel + 1) (type.code :: s) = deserializeBody (deserializeWith fuel) type s :=
  Read.bind_ok (deserializeType_code type s) _

lemma serializeString_bound {type : UInt8} {str : List UInt8}
    (h : (type :: serializeString str).length < 2 ^ 63) : str.length < 2 ^ 64 := by
  rw [List.length_cons, serializeString, List.length_append] at h
  omega

lemma Scalar.serialize_length {v : Scalar} (h : v.serialize.length < 2 ^ 63) :
    v.serialize.length = v.serializedSize := by
  cases v with
  | num d =>
    rw [Scalar.serialize, Scalar.serializedSize]
    cases hd : numberAsInteger d with
    | some i =>
      have hi := (numberAsInteger_spec hd).1
      simp only [List.length_cons, serializeVarint_length (show i < 2 ^ 64 by omega), Nat.add_comm]
    | none => simp only [List.length_cons, leBytes_length]
  | str s =>
    rw [Scalar.serialize, Scalar.serializedSize, List.length_cons,
      serializeString_length (serializeString_bound h), Nat.add_comm]
  | binary s =>
    rw [Scalar.serialize, Scalar.serializedSize, List.length_cons,
      serializeString_length (serializeString_bound h), Nat.add_comm]
  | _ => rfl

lemma deserializeInteger_serialize {d : Double} {i : ℕ} (h : numberAsInteger d = some i)
    (s : List UInt8) :
    deserializeInteger d.bits.msb (serializeVarint i ++ s) = .ok (.scalar (.num d), s) := by
  obtain ⟨hi, hd⟩ := numberAsInteger_spec h
  rw [deserializeInteger, Read.bind_ok (deserializeVarint_serialize (by omega) s),
    BinaryFloat.roundEven_of_le (p := 52) hi, if_neg (by omega), hd]
  rfl

lemma deserializeWith_scalar {v : Scalar} (h : v.serialize.length < 2 ^ 63) (fuel : ℕ)
    (s : List UInt8) :
    deserializeWith (fuel + 1) (v.serialize ++ s) = .ok (.scalar v, s) := by
  cases v with
  | bool b =>
    rw [Scalar.serialize, List.cons_append, deserializeWith_code]
    cases b <;> rfl
  | num d =>
    rw [Scalar.serialize]
    cases hd : numberAsInteger d with
    | some i =>
      have hread := deserializeInteger_serialize hd s
      simp only
      rw [List.cons_append, deserializeWith_code]
      cases hneg : d.bits.msb <;> rwa [hneg] at hread
    | none =>
      have hbits : leNat (leBytes 8 d.bits.toNat) = d.bits.toNat := by
        rw [leNat_leBytes]
        exact Nat.mod_eq_of_lt d.bits.isLt
      simp only
      rw [List.cons_append, deserializeWith_code, deserializeBody,
        Read.bind_ok (forceRead_append (leBytes_length 8 _) s), hbits, doubleOfBits_bits]
      rfl
  | str str =>
    rw [Scalar.serialize, List.cons_append, deserializeWith_code, deserializeBody,
      Read.bind_ok (deserializeString_serialize (serializeString_bound h) s)]
    rfl
  | binary str =>
    rw [Scalar.serialize, List.cons_append, deserializeWith_code, deserializeBody,
      Read.bind_ok (deserializeString_serialize (serializeString_bound h) s)]
    rfl
  | _ => rfl

/-! ### Packed elements -/

def innerSize (parts : List (List UInt8)) : ℕ :=
  let sizes := (parts.map List.length).sum
  sizes + (offsetTableSerializedSize parts.length sizes).1

def offsetSize (parts : List (List UInt8)) : OffsetSize :=
  (offsetTableSerializedSize parts.length (parts.map List.length).sum).2

def packBody (parts : List (List UInt8)) : List UInt8 :=
  serializeVarint parts.length ++
    (table (offsetSize parts).bytes (startsFrom 0 (parts.map List.length)) ++ parts.flatten)

/-- The format of the elements of an array or object. -/
def pack (parts : List (List UInt8)) : List UInt8 :=
  serializeVarint (innerSize parts) ++ packBody parts

lemma offsetTableSerializedSize_fst (numElements remaining : ℕ) :
    (offsetTableSerializedSize numElements remaining).1 =
      varintSerializedSize numElements +
        (numElements - 1) * (offsetTableSerializedSize numElements remaining).2.bytes := by
  unfold offsetTableSerializedSize
  split_ifs with h
  · rfl
  · simp [show numElements - 1 = 0 by omega]

lemma getOffsetSize_chooseOffset (total : OffsetSize → ℕ) (h8 : total .u8 ≤ total .u16)
    (h16 : total .u16 ≤ total .u32) (h32 : total .u32 ≤ total .u64) :
    getOffsetSizeFromInnerSize (total (chooseOffset total)) = chooseOffset total := by
  -- a total that was raised beyond a limit stays beyond it with wider offsets, so that the
  -- width can be told from the total
  unfold chooseOffset raiseOffset getOffsetSizeFromInnerSize
  by_cases h1 : 0xFF < total .u8
  · rw [if_pos h1]
    by_cases h2 : 0xFFFF < total .u16
    · rw [if_pos h2]
      by_cases h4 : 0xFFFFFFFF < total .u32
      · rw [if_pos h4, if_neg (by omega), if_neg (by omega), if_neg (by omega)]
      · rw [if_neg h4, if_neg (by omega), if_neg (by omega), if_pos (by omega)]
    · have h4 : ¬ 0xFFFFFFFF < total .u16 := by omega
      rw [if_neg h2, if_neg h4, if_neg (by omega), if_pos (by omega)]
  · have h2 : ¬ 0xFFFF < total .u8 := by omega
    have h4 : ¬ 0xFFFFFFFF < total .u8 := by omega
    rw [if_neg h1, if_neg h2, if_neg h4, if_pos (by omega)]

lemma getOffsetSizeFromInnerSize_eq {numElements : ℕ} (h : 1 < numElements) (remaining : ℕ) :
    getOffsetSizeFromInnerSize (remaining + (offsetTableSerializedSize numElements remaining).1) =
      (offsetTableSerializedSize numElements remaining).2 := by
  rw [offsetTableSerializedSize]
  simp only [if_pos h]
  rw [← Nat.add_assoc]
  refine getOffsetSize_chooseOffset
    (fun size => remaining + varintSerializedSize numElements + (numElements - 1) * size.bytes)
      ?_ ?_ ?_ <;>
  · simp only [OffsetSize.bytes]
    omega

lemma lt_getOffsetSizeFromInnerSize {n : ℕ} (h : n < 2 ^ 64) :
    n < 256 ^ (getOffsetSizeFromInnerSize n).bytes := by
  unfold getOffsetSizeFromInnerSize
  split_ifs <;> simp only [OffsetSize.bytes] <;> omega

section pack

variable {parts : List (List UInt8)}

lemma sum_le_innerSize (parts : List (List UInt8)) :
    (parts.map List.length).sum ≤ innerSize parts := Nat.le_add_right _ _

lemma length_le_innerSize (parts : List (List UInt8)) : parts.length ≤ innerSize parts + 1 := by
  have hbytes : 0 < (offsetSize parts).bytes := by cases offsetSize parts <;> decide
  have hmul := Nat.le_mul_of_pos_right (parts.length - 1) hbytes
  rw [innerSize, offsetTableSerializedSize_fst]
  rw [offsetSize] at hmul
  omega

lemma offsets_length (parts : List (List UInt8)) :
    (parts.length - 1) * (getOffsetSizeFromInnerSize (innerSize parts)).bytes =
    (table (offsetSize parts).bytes (startsFrom 0 (parts.map List.length))).length := by
  rw [table_length, startsFrom_length, List.length_map]
  rcases Nat.lt_or_ge 1 parts.length with hn | hn
  · rw [innerSize, getOffsetSizeFromInnerSize_eq hn, offsetSize]
  · rw [Nat.sub_eq_zero_of_le hn, Nat.zero_mul, Nat.zero_mul]

variable (h : innerSize parts < 2 ^ 63)
include h

lemma length_lt : parts.length < 2 ^ 64 := by
  have := length_le_innerSize parts
  omega

lemma packBody_length : (packBody parts).length = innerSize parts := by
  rw [packBody, List.length_append, List.length_append, serializeVarint_length (length_lt h),
    table_length, startsFrom_length, List.length_map, List.length_flatten, innerSize,
    offsetTableSerializedSize_fst, offsetSize]
  omega

lemma pack_length :
    (pack parts).length = innerSize parts + varintSerializedSize (innerSize parts) := by
  rw [pack, List.length_append, serializeVarint_length (by omega), packBody_length h, Nat.add_comm]

lemma deserializeVarint_pack (s : List UInt8) :
    deserializeVarint (pack parts ++ s) = .ok (innerSize parts, packBody parts ++ s) := by
  rw [pack, List.append_assoc]
  exact deserializeVarint_serialize (by omega) _

lemma deserializeVarint_packBody (s : List UInt8) :
    deserializeVarint (packBody parts ++ s) = .ok (parts.length,
      table (offsetSize parts).bytes (startsFrom 0 (parts.map List.length)) ++
        (parts.flatten ++ s)) := by
  rw [packBody, List.append_assoc, List.append_assoc]
  exact deserializeVarint_serialize (length_lt h) _

lemma readInnerSerializedSize_pack (s : List UInt8) :
    readInnerSerializedSize (pack parts ++ s) = some (innerSize parts) := by
  rw [readInnerSerializedSize, Read.guaranteed_ok (deserializeVarint_pack h s)]
  rfl

lemma getArraySize_pack (s : List UInt8) : getArraySize (pack parts ++ s) = some parts.length := by
  rw [getArraySize, Read.guaranteed_ok (deserializeVarint_pack h s)]
  simp only [Option.bind_eq_bind, Option.bind_some]
  rw [Read.guaranteed_ok (deserializeVarint_packBody h s)]
  rfl

lemma start_fits {start : ℕ} (hs : start ∈ startsFrom 0 (parts.map List.length)) :
    start < 256 ^ (offsetSize parts).bytes := by
  have hn : 1 < parts.length := by
    have := List.length_pos_of_mem hs
    rw [startsFrom_length, List.length_map] at this
    omega
  have hle := startsFrom_le hs
  have hsum := sum_le_innerSize parts
  have hlt := lt_getOffsetSizeFromInnerSize (n := innerSize parts) (by omega)
  rw [innerSize, getOffsetSizeFromInnerSize_eq hn, ← offsetSize, ← innerSize] at hlt
  omega

lemma offset_entry {i : ℕ} (hi : i + 1 < parts.length) (s : List UInt8) :
    ∃ entry rest, (forceRead (getOffsetSizeFromInnerSize (innerSize parts)).bytes).guaranteed
        ((table (offsetSize parts).bytes (startsFrom 0 (parts.map List.length)) ++ s).drop
          (i * (getOffsetSizeFromInnerSize (innerSize parts)).bytes)) = some (entry, rest) ∧
      leNat entry = ((parts.map List.length).take (i + 1)).sum := by
  have hwidth : getOffsetSizeFromInnerSize (innerSize parts) = offsetSize parts := by
    rw [innerSize, getOffsetSizeFromInnerSize_eq (by omega), offsetSize]
  have hstart := startsFrom_getElem? 0 (parts.map List.length) (i := i) (by rwa [List.length_map])
  rw [Nat.zero_add] at hstart
  have htake := take_table (w := (offsetSize parts).bytes) hstart s
  have hfits := start_fits h (List.mem_of_getElem? hstart)
  rw [hwidth]
  generalize ((table (offsetSize parts).bytes _ ++ s).drop (i * (offsetSize parts).bytes)) =
    at_ at htake ⊢
  have hlen : ¬ at_.length < (offsetSize parts).bytes := by
    have := congrArg List.length htake
    rw [List.length_take, leBytes_length] at this
    omega
  refine ⟨_, _, Read.guaranteed_ok (if_neg hlen), ?_⟩
  rw [htake, leNat_leBytes, Nat.mod_eq_of_lt hfits]

lemma getElementOffset_pack {i : ℕ} (hi : i < parts.length) (s : List UInt8) :
    ∃ offset, getElementOffset (pack parts ++ s) i = some offset ∧
    offset ≤ (pack parts ++ s).length ∧
      (pack parts ++ s).drop offset = parts[i] ++ ((parts.drop (i + 1)).flatten ++ s) := by
  have hread := Read.guaranteed_ok (deserializeVarint_packBody h s)
  rw [getElementOffset, Read.guaranteed_ok (deserializeVarint_pack h s)]
  simp only [Option.bind_eq_bind, Option.bind_some, hread, if_pos hi]
  rw [pack, packBody, List.append_assoc, List.append_assoc, List.append_assoc, ← List.append_assoc,
    offsets_length, List.length_append, Nat.add_sub_cancel]
  -- the two sizes and the table are one header
  have hdrop := drop_header (serializeVarint (innerSize parts) ++ serializeVarint parts.length ++
    table (offsetSize parts).bytes (startsFrom 0 (parts.map List.length))) hi s
  have hle := start_le parts i
  have hentry := offset_entry h (i := i - 1)
  have hsize := offsets_length parts
  generalize serializeVarint (innerSize parts) ++ serializeVarint parts.length = head at hdrop ⊢
  generalize table (offsetSize parts).bytes _ = offsets at hdrop hentry hsize ⊢
  rw [List.length_append, List.append_assoc] at hdrop
  refine ⟨head.length + offsets.length + ((parts.map List.length).take i).sum, ?_, ?_, hdrop⟩
  · by_cases h0 : i = 0
    · subst h0
      rw [if_pos rfl, List.take_zero, List.sum_nil, Nat.add_zero]
    · obtain ⟨entry, rest, hforce, hnat⟩ := hentry (by omega) (parts.flatten ++ s)
      have hin : (i - 1) * (getOffsetSizeFromInnerSize (innerSize parts)).bytes ≤
          offsets.length := by
        rw [← hsize]
        exact Nat.mul_le_mul_right _ (by omega)
      have hat : (head ++ (offsets ++ (parts.flatten ++ s))).drop
          (head.length + (i - 1) * (getOffsetSizeFromInnerSize (innerSize parts)).bytes) =
          (offsets ++ (parts.flatten ++ s)).drop
            ((i - 1) * (getOffsetSizeFromInnerSize (innerSize parts)).bytes) := by
        rw [List.drop_append, List.drop_eq_nil_of_le (Nat.le_add_right _ _), List.nil_append,
          Nat.add_sub_cancel_left]
      rw [if_neg h0, if_pos (by simp only [List.length_append]; omega), hat, hforce]
      simp only [Option.bind_some, hnat, Nat.sub_add_cancel (Nat.pos_of_ne_zero h0)]
  · simp only [List.length_append]
    omega

end pack

end PersonnelBackend.Datums
