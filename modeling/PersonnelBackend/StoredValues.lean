import Mathlib.Algebra.Order.BigOperators.Group.List
import Mathlib.Data.List.Forall2
import PersonnelBackend.DatumStorage

/-! Values as such, and the forms the server holds them in. Whatever the form, a
value has the same elements and the same fields, and the same bytes are written
for it; and what is written is read back as the value. -/
namespace PersonnelBackend.Datums
open Framing Packed

/-! ### Values -/

inductive Value
  | scalar (value : Scalar)
  | array (items : List Value)
  | object (pairs : List (List UInt8 × Value))

namespace Value

def isObject : Value → Bool
  | .object _ => true
  | _ => false

def members : Value → List (Option (List UInt8) × Value)
  | .scalar _ => []
  | .array items => items.map fun item => (none, item)
  | .object pairs => pairs.map fun pair => (some pair.1, pair.2)

section fold

variable {α : Type} (scalar : Scalar → α) (node : Bool → List (Option (List UInt8) × α) → α)

mutual
/-- What is computed from the results for the elements. -/
def fold : Value → α
  | .scalar s => scalar s
  | .array items => node false (foldItems items)
  | .object pairs => node true (foldPairs pairs)
def foldItems : List Value → List (Option (List UInt8) × α)
  | [] => []
  | item :: items => (none, fold item) :: foldItems items
def foldPairs : List (List UInt8 × Value) → List (Option (List UInt8) × α)
  | [] => []
  | (key, value) :: pairs => (some key, fold value) :: foldPairs pairs
end

lemma foldItems_eq (items : List Value) :
    foldItems scalar node items = items.map fun item => (none, fold scalar node item) := by
  induction items with
  | nil => rfl
  | cons item items ih => rw [foldItems, ih, List.map_cons]

lemma foldPairs_eq (pairs : List (List UInt8 × Value)) :
    foldPairs scalar node pairs = pairs.map fun pair => (some pair.1, fold scalar node pair.2) := by
  induction pairs with
  | nil => rfl
  | cons pair pairs ih => rw [foldPairs, ih, List.map_cons]

variable {scalar node}

lemma fold_node {d : Value} (hd : ∀ s, d ≠ .scalar s) :
    fold scalar node d = node d.isObject
      (d.members.map fun member => (member.1, fold scalar node member.2)) := by
  cases d with
  | scalar s => exact absurd rfl (hd s)
  | array items =>
    rw [fold, foldItems_eq, members, List.map_map]
    rfl
  | object pairs =>
    rw [fold, foldPairs_eq, members, List.map_map]
    rfl

end fold

theorem induct {motive : Value → Prop} (scalar : ∀ s, motive (.scalar s))
    (node : ∀ d, (∀ s, d ≠ .scalar s) → (∀ member ∈ d.members, motive member.2) → motive d)
    (d : Value) :
    motive d :=
  @Value.rec motive (fun items => ∀ item ∈ items, motive item)
    (fun pairs => ∀ pair ∈ pairs, motive pair.2)
    (fun pair => motive pair.2) scalar
    (fun items h => node (.array items) (by simp) (List.forall_mem_map.mpr h))
    (fun pairs h => node (.object pairs) (by simp) (List.forall_mem_map.mpr h))
    (by simp) (fun _ _ h hs => List.forall_mem_cons.mpr ⟨h, hs⟩) (by simp)
    (fun _ _ h hs => List.forall_mem_cons.mpr ⟨h, hs⟩) (fun _ _ h => h) d

def encodeMember (member : Option (List UInt8) × List UInt8) : List UInt8 :=
  (member.1.map serializeString).getD [] ++ member.2

def encode : Value → List UInt8 := fold Scalar.serialize fun isObject members =>
  (if isObject then SerializedType.bufRObject else SerializedType.bufRArray).code ::
    pack (members.map encodeMember)

/-- What `datum_serialize` has to say about a value: too large an array, or a value
that must not be stored. -/
def result : Value → SerializationResult := fold Scalar.result fun isObject members =>
  SerializationResult.or { arrayTooBig := !isObject && 100000 < members.length }
    ((members.map Prod.snd).foldr SerializationResult.or {})

def depth : Value → ℕ := fold (fun _ => 1) fun _ members => (members.map Prod.snd).foldr max 0 + 1

def parts (d : Value) : List (List UInt8) :=
  d.members.map fun member => encodeMember (member.1, encode member.2)

variable {d : Value} (hd : ∀ s, d ≠ .scalar s)
include hd

lemma encode_node : encode d =
    (if d.isObject then SerializedType.bufRObject else SerializedType.bufRArray).code ::
      pack d.parts := by
  rw [encode, fold_node hd, List.map_map]
  rfl

omit hd in
lemma encode_scalar (s : Scalar) : encode (.scalar s) = s.serialize := by
  rw [encode, fold]

omit hd in
lemma encode_array (values : List Value) :
    encode (.array values) = SerializedType.bufRArray.code :: pack (Value.array values).parts :=
  encode_node (by simp)

omit hd in
lemma encode_object (fields : List (List UInt8 × Value)) :
    encode (.object fields) = SerializedType.bufRObject.code :: pack (Value.object fields).parts :=
  encode_node (by simp)

lemma result_node : result d =
    SerializationResult.or { arrayTooBig := !d.isObject && 100000 < d.members.length }
      ((d.members.map fun member => result member.2).foldr SerializationResult.or {}) := by
  rw [result, fold_node hd, List.length_map, List.map_map]
  rfl

lemma depth_node : depth d = (d.members.map fun member => depth member.2).foldr max 0 + 1 := by
  rw [depth, fold_node hd, List.map_map]
  rfl

lemma depth_member {member : Option (List UInt8) × Value} (h : member ∈ d.members) :
    depth member.2 < depth d := by
  rw [depth_node hd]
  generalize d.members = members at h
  induction members with
  | nil => cases h
  | cons first rest ih =>
    rw [List.map_cons, List.foldr_cons]
    rcases List.mem_cons.mp h with rfl | h
    · omega
    · have := ih h
      omega

end Value

/-! ### Forms of a value -/

/-- A value that is small enough for the sizes the server computes with. -/
def Value.Fits (d : Value) : Prop := d.encode.length < 2 ^ 63

/-- The value that a datum stands for. A buffer may have more in it than the value
it is the buffer of. -/
inductive Represents : Datum → Value → Prop
  | scalar (s : Scalar) : Represents (.scalar s) (.scalar s)
  | array {items : List Datum} {values : List Value} (size : items.length = values.length)
      (each : ∀ i (h : i < items.length) (h' : i < values.length), Represents items[i] values[i]) :
      Represents (.array items) (.array values)
  | object {pairs : List (List UInt8 × Datum)} {fields : List (List UInt8 × Value)}
      (keys : pairs.map Prod.fst = fields.map Prod.fst)
      (each : ∀ i (h : i < pairs.length) (h' : i < fields.length),
        Represents pairs[i].2 fields[i].2) :
      Represents (.object pairs) (.object fields)
  | bufArray {buf : List UInt8} {values : List Value} (h : pack (Value.array values).parts <+: buf)
      (fits : (Value.array values).Fits) : Represents (.bufArray buf) (.array values)
  | bufObject {buf : List UInt8} {fields : List (List UInt8 × Value)}
      (h : pack (Value.object fields).parts <+: buf) (fits : (Value.object fields).Fits) :
      Represents (.bufObject buf) (.object fields)

lemma part_length_le {parts : List (List UInt8)} {part : List UInt8} (h : part ∈ parts) :
    part.length ≤ innerSize parts :=
  (List.single_le_sum (by simp) _ (List.mem_map_of_mem h)).trans (sum_le_innerSize parts)

lemma Value.members_keys (d : Value) : ∀ member ∈ d.members, member.1.isSome = d.isObject := by
  cases d with
  | scalar s => simp [Value.members]
  | array items => exact List.forall_mem_map.mpr fun _ _ => rfl
  | object pairs => exact List.forall_mem_map.mpr fun _ _ => rfl

section fits

variable {d : Value} (hd : ∀ s, d ≠ .scalar s) (h : d.Fits)
include hd h

lemma Value.Fits.innerSize_lt : innerSize d.parts < 2 ^ 63 - 1 := by
  rw [Value.Fits, Value.encode_node hd, List.length_cons, pack, packBody] at h
  generalize d.parts = parts at h
  simp only [List.length_append, table_length, startsFrom_length, List.length_map,
    List.length_flatten] at h
  have hbytes : 0 < (offsetSize parts).bytes := by cases offsetSize parts <;> decide
  have hmul := Nat.le_mul_of_pos_right (parts.length - 1) hbytes
  rw [serializeVarint_length (n := parts.length) (by omega)] at h
  rw [innerSize, offsetTableSerializedSize_fst, ← offsetSize]
  omega

lemma Value.Fits.member {member : Option (List UInt8) × Value} (hm : member ∈ d.members) :
    member.2.Fits := by
  have hinner := h.innerSize_lt hd
  have hpart : (Value.encodeMember (member.1, member.2.encode)).length ≤ innerSize d.parts :=
    part_length_le (List.mem_map_of_mem (f := fun member =>
      Value.encodeMember (member.1, member.2.encode)) hm)
  rw [Value.encodeMember, List.length_append] at hpart
  rw [Value.Fits]
  simp only at hpart
  omega

lemma Value.Fits.keys : ∀ member ∈ d.members, ∀ key ∈ member.1, key.length < 2 ^ 64 := by
  intro member hm key hkey
  have hinner := h.innerSize_lt hd
  have hpart : (Value.encodeMember (member.1, member.2.encode)).length ≤ innerSize d.parts :=
    part_length_le (List.mem_map_of_mem (f := fun member =>
      Value.encodeMember (member.1, member.2.encode)) hm)
  rw [Value.encodeMember, Option.mem_def.mp hkey, List.length_append, Option.map_some,
    Option.getD_some, serializeString, List.length_append] at hpart
  omega

end fits

/-! ### Reading -/

lemma deserializeBuffer_pack {parts : List (List UInt8)} (h : (pack parts).length < 2 ^ 63)
    (hi : innerSize parts < 2 ^ 63) (s : List UInt8) :
    deserializeBuffer (pack parts ++ s) = .ok (pack parts, s) := by
  have hlen := pack_length hi
  rw [deserializeBuffer, Read.bind_ok (deserializeVarint_pack hi s), if_neg (by omega),
    Read.bind_ok (inRange_some () _), Read.bind_ok (forceRead_append (packBody_length hi) s)]
  rfl

lemma deserializeWith_encode {d : Value} (h : d.Fits) (fuel : ℕ) (s : List UInt8) :
    ∃ v, deserializeWith (fuel + 1) (d.encode ++ s) = .ok (v, s) ∧ Represents v d := by
  cases d with
  | scalar value => exact ⟨_, deserializeWith_scalar h fuel s, .scalar value⟩
  | array values =>
    have hinner := h.innerSize_lt (by simp)
    refine ⟨.bufArray (pack (Value.array values).parts), ?_, .bufArray (List.prefix_refl _) h⟩
    rw [Value.Fits, Value.encode_array, List.length_cons] at h
    rw [Value.encode_array, List.cons_append, deserializeWith_code, deserializeBody,
      Read.bind_ok (deserializeBuffer_pack (by omega) (by omega) s)]
    rfl
  | object fields =>
    have hinner := h.innerSize_lt (by simp)
    refine ⟨.bufObject (pack (Value.object fields).parts), ?_, .bufObject (List.prefix_refl _) h⟩
    rw [Value.Fits, Value.encode_object, List.length_cons] at h
    rw [Value.encode_object, List.cons_append, deserializeWith_code, deserializeBody,
      Read.bind_ok (deserializeBuffer_pack (by omega) (by omega) s)]
    rfl

lemma deserialize_encode {d : Value} (h : d.Fits) (s : List UInt8) :
    ∃ v, deserialize (d.encode ++ s) = .ok (v, s) ∧ Represents v d := deserializeWith_encode h _ s

section buffer

variable {buf s : List UInt8} {offset : ℕ} (ho : offset ≤ buf.length)
include ho

lemma deserializeFromBuf_encode {d : Value} (h : d.Fits) (hbuf : buf.drop offset = d.encode ++ s) :
    ∃ v, deserializeFromBuf buf offset = some v ∧ Represents v d := by
  rw [deserializeFromBuf, if_pos ho, hbuf]
  cases d with
  | array values =>
    rw [Value.encode_array, List.cons_append, Read.guaranteed_ok (deserializeType_code _ _)]
    exact ⟨_, rfl, .bufArray (List.prefix_append _ _) h⟩
  | object fields =>
    rw [Value.encode_object, List.cons_append, Read.guaranteed_ok (deserializeType_code _ _)]
    exact ⟨_, rfl, .bufObject (List.prefix_append _ _) h⟩
  | scalar value =>
    have hscalar : deserialize (value.serialize ++ s) = .ok (.scalar value, s) :=
      deserializeWith_scalar h _ s
    have hread := Read.guaranteed_ok hscalar
    refine ⟨.scalar value, ?_, .scalar value⟩
    cases value with
    | str str =>
      rw [Value.encode_scalar, Scalar.serialize, List.cons_append,
        Read.guaranteed_ok (deserializeType_code _ _)]
      simp only [Option.bind_eq_bind, Option.bind_some,
        stringAt_serialize (serializeString_bound h) s]
    | binary str =>
      rw [Value.encode_scalar, Scalar.serialize, List.cons_append,
        Read.guaranteed_ok (deserializeType_code _ _)]
      simp only [Option.bind_eq_bind, Option.bind_some,
        stringAt_serialize (serializeString_bound h) s]
    | num d =>
      rw [Value.encode_scalar, hread, Scalar.serialize]
      cases numberAsInteger d with
      | none =>
        simp only
        rw [List.cons_append, Read.guaranteed_ok (deserializeType_code _ _)]
        rfl
      | some i =>
        simp only
        rw [List.cons_append, Read.guaranteed_ok (deserializeType_code _ _)]
        cases d.bits.msb <;> rfl
    | bool b =>
      rw [Value.encode_scalar, hread, Scalar.serialize, List.cons_append,
        Read.guaranteed_ok (deserializeType_code _ _)]
      rfl
    | _ =>
      rw [Value.encode_scalar, hread, Scalar.serialize, List.cons_append,
        Read.guaranteed_ok (deserializeType_code _ _)]
      rfl

lemma deserializePairFromBuf_encode {key : List UInt8} {d : Value}
    (h : (serializeString key ++ d.encode).length < 2 ^ 63)
    (hbuf : buf.drop offset = serializeString key ++ d.encode ++ s) :
    ∃ v, deserializePairFromBuf buf offset = some (key, v) ∧ Represents v d := by
  rw [List.length_append, serializeString, List.length_append] at h
  have hkey : key.length < 2 ^ 64 := by omega
  have hlen := serializeString_length hkey
  rw [List.append_assoc] at hbuf
  have htotal := congrArg List.length hbuf
  rw [List.length_drop, List.length_append, hlen] at htotal
  have hvalue : buf.drop (offset + stringSerializedSize key) = d.encode ++ s := by
    rw [← List.drop_drop, hbuf, List.drop_left' hlen]
  have hin : offset + stringSerializedSize key ≤ buf.length := by omega
  obtain ⟨v, hv, hd⟩ :=
    deserializeFromBuf_encode hin (show d.encode.length < 2 ^ 63 by omega) hvalue
  refine ⟨v, ?_, hd⟩
  rw [deserializePairFromBuf, if_pos ho, hbuf, stringAt_serialize hkey]
  simp only [Option.bind_eq_bind, Option.bind_some, hv]

end buffer

/-! ### Elements -/

lemma mapM_range' {β γ : Type} {f : ℕ → Option β} {R : β → γ → Prop} {start : ℕ} {targets : List γ}
    (h : ∀ i (hi : i < targets.length), ∃ b, f (start + i) = some b ∧ R b targets[i]) :
    ∃ bs, (List.range' start targets.length).mapM f = some bs ∧ List.Forall₂ R bs targets := by
  induction targets generalizing start with
  | nil => exact ⟨[], rfl, .nil⟩
  | cons target targets ih =>
    obtain ⟨b, hb, hr⟩ := h 0 (by simp)
    have hrest : ∀ i (hi : i < targets.length), ∃ b, f (start + 1 + i) = some b ∧ R b targets[i] :=
      fun i hi => by
      obtain ⟨b, hb, hr⟩ := h (i + 1) (by simpa using hi)
      exact ⟨b, by rw [← hb, Nat.add_assoc, Nat.add_comm 1], hr⟩
    obtain ⟨bs, hbs, hrs⟩ := ih hrest
    refine ⟨b :: bs, ?_, .cons hr hrs⟩
    rw [List.length_cons, List.range'_succ, List.mapM_cons, show f start = some b from hb, hbs]
    rfl

lemma mapM_range {β γ : Type} {f : ℕ → Option β} {R : β → γ → Prop} {targets : List γ}
    (h : ∀ i (hi : i < targets.length), ∃ b, f i = some b ∧ R b targets[i]) :
    ∃ bs, (List.range targets.length).mapM f = some bs ∧ List.Forall₂ R bs targets := by
  rw [List.range_eq_range']
  exact mapM_range' fun i hi => by simpa using h i hi

section elements

variable {buf : List UInt8}

lemma getArraySize_buf {d : Value} (hd : ∀ s, d ≠ .scalar s) (h : d.Fits)
    (hbuf : pack d.parts <+: buf) :
    getArraySize buf = some d.members.length := by
  obtain ⟨s, rfl⟩ := hbuf
  have hinner := h.innerSize_lt hd
  rw [getArraySize_pack (by omega) s, Value.parts, List.length_map]

lemma uncheckedGet_bufArray {values : List Value} (h : (Value.array values).Fits)
    (hbuf : pack (Value.array values).parts <+: buf) {i : ℕ} (hi : i < values.length) :
    ∃ v, (Datum.bufArray buf).uncheckedGet i = some v ∧ Represents v values[i] := by
  obtain ⟨s, rfl⟩ := hbuf
  have hinner := h.innerSize_lt (by simp)
  have hi' : i < (Value.array values).parts.length := by simpa [Value.parts, Value.members] using hi
  have hpart : (Value.array values).parts[i] = values[i].encode := by
    simp [Value.parts, Value.members, Value.encodeMember]
  obtain ⟨offset, hoffset, hle, hdrop⟩ := getElementOffset_pack (by omega) hi' s
  rw [hpart] at hdrop
  have hmem : (none, values[i]) ∈ (Value.array values).members :=
    List.mem_map_of_mem (List.getElem_mem hi)
  have hfits : values[i].Fits := h.member (by simp) hmem
  rw [Datum.uncheckedGet, hoffset]
  exact deserializeFromBuf_encode hle hfits hdrop

lemma uncheckedGetPair_bufObject {fields : List (List UInt8 × Value)}
    (h : (Value.object fields).Fits) (hbuf : pack (Value.object fields).parts <+: buf) {i : ℕ}
    (hi : i < fields.length) :
    ∃ v, (Datum.bufObject buf).uncheckedGetPair i = some (fields[i].1, v) ∧
    Represents v fields[i].2 := by
  obtain ⟨s, rfl⟩ := hbuf
  have hinner := h.innerSize_lt (by simp)
  have hi' : i < (Value.object fields).parts.length := by
    simpa [Value.parts, Value.members] using hi
  have hpart : (Value.object fields).parts[i] =
      serializeString fields[i].1 ++ fields[i].2.encode := by
    simp [Value.parts, Value.members, Value.encodeMember]
  obtain ⟨offset, hoffset, hle, hdrop⟩ := getElementOffset_pack (by omega) hi' s
  have hlen := part_length_le (List.getElem_mem hi')
  rw [hpart] at hdrop hlen
  rw [Datum.uncheckedGetPair, hoffset]
  exact deserializePairFromBuf_encode hle (by omega) hdrop

end elements

/-- An element of a datum, and the element of the value it stands for. -/
structure MemberOf (a : Option (List UInt8) × Datum) (b : Option (List UInt8) × Value) : Prop where
  key : a.1 = b.1
  value : Represents a.2 b.2

lemma Represents.members {v : Datum} {d : Value} (h : Represents v d) (hd : ∀ s, d ≠ .scalar s) :
    ∃ ms, v.members = some ms ∧ List.Forall₂ MemberOf ms d.members := by
  cases h with
  | scalar s => exact absurd rfl (hd s)
  | @array items values size each =>
    refine ⟨_, rfl, ?_⟩
    rw [Value.members, List.forall₂_map_left_iff, List.forall₂_map_right_iff, List.forall₂_iff_get]
    exact ⟨size, fun i h h' => ⟨rfl, each i h h'⟩⟩
  | @object pairs fields keys each =>
    refine ⟨_, rfl, ?_⟩
    rw [Value.members, List.forall₂_map_left_iff, List.forall₂_map_right_iff, List.forall₂_iff_get]
    refine ⟨by simpa using congrArg List.length keys, fun i h h' => ⟨?_, each i h h'⟩⟩
    have hkey := List.getElem_of_eq keys (i := i) (by simpa using h)
    simpa using hkey
  | @bufArray buf values hbuf hf =>
    have hget : ∀ i (hi : i < (Value.array values).members.length),
        ∃ m, ((Datum.bufArray buf).uncheckedGet i).map (fun item => (none, item)) = some m ∧
          MemberOf m (Value.array values).members[i] := fun i hi => by
      have hi' : i < values.length := by simpa [Value.members] using hi
      obtain ⟨v, hv, hr⟩ := uncheckedGet_bufArray hf hbuf hi'
      exact ⟨(none, v), by rw [hv]; rfl, by simpa [Value.members] using ⟨rfl, hr⟩⟩
    obtain ⟨ms, hms, hforall⟩ := mapM_range hget
    refine ⟨ms, ?_, hforall⟩
    rw [Datum.members, getArraySize_buf hd hf hbuf]
    exact hms
  | @bufObject buf fields hbuf hf =>
    have hget : ∀ i (hi : i < (Value.object fields).members.length),
        ∃ m, ((Datum.bufObject buf).uncheckedGetPair i).map
          (fun pair => (some pair.1, pair.2)) = some m ∧
          MemberOf m (Value.object fields).members[i] := fun i hi => by
      have hi' : i < fields.length := by simpa [Value.members] using hi
      obtain ⟨v, hv, hr⟩ := uncheckedGetPair_bufObject hf hbuf hi'
      exact ⟨(some fields[i].1, v), by rw [hv]; rfl, by simpa [Value.members] using ⟨rfl, hr⟩⟩
    obtain ⟨ms, hms, hforall⟩ := mapM_range hget
    refine ⟨ms, ?_, hforall⟩
    rw [Datum.members, getArraySize_buf hd hf hbuf]
    exact hms

/-! ### Writing -/

lemma SizeTree.size_node (n : ℕ) (children : List SizeTree) : (SizeTree.node n children).size = n :=
  rfl

section writing

variable (size : Datum → Option SizeTree) (write : Datum → SizeTree →
  Option Written) (check : CheckErrors)

/-- The datum is written as the value, with the size computed for it. -/
def WrittenAs (v : Datum) (d : Value) : Prop :=
  ∃ tree w, size v = some tree ∧ tree.size = d.encode.length ∧ write v tree = some w ∧
    w.bytes = d.encode ∧ (check = .yes → w.result = d.result)

/-- What is computed and written for the elements. -/
structure Laid (isObject : Bool) (members : List (Option (List UInt8) × Value))
    (sizes : List SizeTree) (w : Written) : Prop where
  elements : elementSizes isObject sizes =
    members.map fun m => (Value.encodeMember (m.1, m.2.encode)).length
  sum : (sizes.map SizeTree.size).sum = (members.map fun m =>
    (Value.encodeMember (m.1, m.2.encode)).length).sum
  bytes : w.bytes = (members.map fun m => Value.encodeMember (m.1, m.2.encode)).flatten
  result : check = .yes → w.result = (members.map fun m => m.2.result).foldr
    SerializationResult.or {}

variable {size write check}

lemma members_written {isObject : Bool} {ms : List (Option (List UInt8) × Datum)}
    {ns : List (Option (List UInt8) × Value)}
    (h : List.Forall₂ (fun m n => m.1 = n.1 ∧ WrittenAs size write check m.2 n.2) ms ns)
    (hkeys : ∀ n ∈ ns, n.1.isSome = isObject) (hfits : ∀ n ∈ ns, ∀ k ∈ n.1, k.length < 2 ^ 64) :
    ∃ sizes w, memberSizes size ms = some sizes ∧ serializeMembers write ms sizes = some w ∧
      Laid check isObject ns sizes w := by
  induction h with
  | nil => exact ⟨[], ⟨[], {}⟩, rfl, rfl, by cases isObject <;> rfl, rfl, rfl, fun _ => rfl⟩
  | @cons m n ms ns hm _ ih =>
    obtain ⟨hkey, tree, w, hsize, hlen, hwrite, hbytes, hresult⟩ := hm
    obtain ⟨sizes, ws, hsizes, hwrites, hlaid⟩ :=
      ih (fun n hn => hkeys n (List.mem_cons_of_mem _ hn))
        (fun n hn => hfits n (List.mem_cons_of_mem _ hn))
    obtain ⟨k, v⟩ := m
    obtain ⟨k', d⟩ := n
    obtain rfl : k = k' := hkey
    cases k with
    | none =>
      obtain rfl : false = isObject := hkeys _ List.mem_cons_self
      refine ⟨tree :: sizes, w.append ws, ?_, ?_, ?_, ?_, ?_, fun hc => ?_⟩
      · simp [memberSizes, hsize, hsizes]
      · simp [serializeMembers, hwrite, hwrites]
      · simpa [elementSizes, hlen, Value.encodeMember] using hlaid.elements
      · simp [hlaid.sum, hlen, Value.encodeMember]
      · simp [Written.append, hbytes, hlaid.bytes, Value.encodeMember]
      · simp [Written.append, hresult hc, hlaid.result hc]
    | some key =>
      obtain rfl : true = isObject := hkeys _ List.mem_cons_self
      have hstring := serializeString_length (hfits _ List.mem_cons_self key rfl)
      refine ⟨.node (stringSerializedSize key) [] :: tree :: sizes,
        Written.append ⟨serializeString key, {}⟩ (w.append ws), ?_, ?_, ?_, ?_, ?_, fun hc => ?_⟩
      · simp [memberSizes, hsize, hsizes]
      · simp [serializeMembers, hwrite, hwrites]
      · simp [elementSizes, SizeTree.size_node, hlaid.elements, hlen, hstring, Value.encodeMember]
      · simp [SizeTree.size_node, hlaid.sum, hlen, hstring, Value.encodeMember, Nat.add_assoc]
      · simp [Written.append, hbytes, hlaid.bytes, Value.encodeMember]
      · simp [Written.append, SerializationResult.or, hresult hc, hlaid.result hc]

end writing

section node

variable {v : Datum} (hv : ∀ s, v ≠ .scalar s) {check : CheckErrors} {fuel : ℕ}
include hv

lemma serializedSize_existing {buf : List UInt8} (h : v.existing check = some buf) {inner : ℕ}
    (hi : readInnerSerializedSize buf = some inner) :
    serializedSize check (fuel + 1) v = some
      (.node (1 + (inner + varintSerializedSize inner)) []) := by
  cases v with
  | scalar s => exact absurd rfl (hv s)
  | _ => simp [serializedSize, h, hi]

lemma serializeWith_existing {buf : List UInt8} (h : v.existing check = some buf)
    (tree : SizeTree) :
    serializeWith check (fuel + 1) v tree =
      some (v.header.append ⟨buf.take (tree.size - 1), {}⟩) := by
  cases v with
  | scalar s => exact absurd rfl (hv s)
  | _ => simp [serializeWith, h]

lemma serializedSize_members (h : v.existing check = none) {ms : List (Option (List UInt8) × Datum)}
    (hm : v.members = some ms) {sizes : List SizeTree}
    (hs : memberSizes (serializedSize check fuel) ms = some sizes) :
    serializedSize check (fuel + 1) v =
      some (.node (1 + ((innerSerializedSize ms.length sizes).1 +
        varintSerializedSize (innerSerializedSize ms.length sizes).1)) sizes) := by
  cases v with
  | scalar s => exact absurd rfl (hv s)
  | _ => simp [serializedSize, h, hm, hs]

lemma serializeWith_members (h : v.existing check = none) {ms : List (Option (List UInt8) × Datum)}
    (hm : v.members = some ms) {sizes : List SizeTree} {innerSize : ℕ} {offsetSize : OffsetSize}
    (hi : innerSerializedSize ms.length sizes = (innerSize, offsetSize)) {offsets : List UInt8}
    (ho : serializeOffsetTable v.isObject sizes offsetSize = some offsets)
    {elements : Written} (he : serializeMembers (serializeWith check fuel) ms sizes = some elements)
    (n : ℕ) :
    serializeWith check (fuel + 1) v (.node n sizes) =
      some (v.header.append (Written.append ⟨serializeVarint innerSize ++ offsets,
        {}⟩ elements)) := by
  cases v with
  | scalar s => exact absurd rfl (hv s)
  | _ => simp [serializeWith, SizeTree.children, h, hm, hi, ho, he]

end node

lemma Represents.header {v : Datum} {d : Value} (h : Represents v d) (hd : ∀ s, d ≠ .scalar s) :
    (∀ s, v ≠ .scalar s) ∧ v.isObject = d.isObject ∧ v.header =
      ⟨[(if d.isObject then SerializedType.bufRObject else SerializedType.bufRArray).code],
        { arrayTooBig := !d.isObject && 100000 < d.members.length }⟩ := by
  cases h with
  | scalar s => exact absurd rfl (hd s)
  | array size each =>
    exact ⟨by simp, rfl, by simp [Datum.header, Datum.isObject, Value.isObject, Datum.arrSize,
      Value.members, size]⟩
  | object keys each => exact ⟨by simp, rfl, by simp [Datum.header, Datum.isObject, Value.isObject]⟩
  | bufArray hbuf hf =>
    have hsize := getArraySize_buf hd hf hbuf
    exact ⟨by simp, rfl, by simp [Datum.header, Datum.isObject, Value.isObject,
      Datum.arrSize, hsize]⟩
  | bufObject hbuf _ => exact ⟨by simp, rfl, by simp [Datum.header, Datum.isObject, Value.isObject]⟩

lemma Represents.existing {v : Datum} {d : Value} (h : Represents v d) {check : CheckErrors}
    {buf : List UInt8} (he : v.existing check = some buf) : check = .no ∧ pack d.parts <+: buf := by
  cases check with
  | yes => cases he
  | no =>
    cases h with
    | bufArray hbuf _ => exact ⟨rfl, by rwa [← Option.some.inj he]⟩
    | bufObject hbuf _ => exact ⟨rfl, by rwa [← Option.some.inj he]⟩
    | _ => cases he

lemma Value.parts_lengths (d : Value) :
    d.parts.map List.length = d.members.map fun m =>
      (Value.encodeMember (m.1, m.2.encode)).length := by
  rw [Value.parts, List.map_map]
  rfl

lemma innerSerializedSize_eq {d : Value} {n : ℕ} (hn : n = d.members.length) {sizes : List SizeTree}
    (hs : (sizes.map SizeTree.size).sum =
      (d.members.map fun m => (Value.encodeMember (m.1, m.2.encode)).length).sum) :
    innerSerializedSize n sizes = (innerSize d.parts, offsetSize d.parts) := by
  have hlen : d.parts.length = n := by rw [Value.parts, List.length_map, hn]
  rw [innerSerializedSize, innerSize, offsetSize, hs, ← d.parts_lengths, hlen]

lemma serializeOffsetTable_eq {d : Value} (h : innerSize d.parts < 2 ^ 63) {sizes : List SizeTree}
    (hs : elementSizes d.isObject sizes =
      d.members.map fun m => (Value.encodeMember (m.1, m.2.encode)).length) :
    serializeOffsetTable d.isObject sizes (offsetSize d.parts) =
      some (serializeVarint d.parts.length ++
      table (offsetSize d.parts).bytes (startsFrom 0 (d.parts.map List.length))) := by
  have hfits : (startsFrom 0 (d.parts.map List.length)).all
      (· < 256 ^ (offsetSize d.parts).bytes) = true :=
    List.all_eq_true.mpr fun start hstart => decide_eq_true (start_fits h hstart)
  rw [serializeOffsetTable, hs, ← d.parts_lengths]
  simp only [hfits, if_true, List.length_map]

section written

variable {check : CheckErrors} {v : Datum} {d : Value} {fuel : ℕ}

lemma Represents.written_existing (h : Represents v d) (hd : ∀ s, d ≠ .scalar s) (hf : d.Fits)
    {buf : List UInt8} (he : v.existing check = some buf) :
    WrittenAs (serializedSize check (fuel + 1)) (serializeWith check (fuel + 1)) check v d := by
  obtain ⟨hv, -, hheader⟩ := h.header hd
  obtain ⟨rfl, s, rfl⟩ := h.existing he
  have hinner := hf.innerSize_lt hd
  have hinner' : innerSize d.parts < 2 ^ 63 := by omega
  have hread := readInnerSerializedSize_pack hinner' s
  have hlen := pack_length hinner'
  refine ⟨_, _, serializedSize_existing hv he hread, ?_, serializeWith_existing hv he _,
    ?_, by simp⟩
  · rw [SizeTree.size_node, Value.encode_node hd, List.length_cons, hlen, Nat.add_comm]
  · rw [SizeTree.size_node, Nat.add_sub_cancel_left, ← hlen, List.take_left' rfl, hheader,
      Value.encode_node hd]
    rfl

lemma Represents.written_members (h : Represents v d) (hd : ∀ s, d ≠ .scalar s) (hf : d.Fits)
    (he : v.existing check = none)
    (hm : ∀ n ∈ d.members, ∀ v, Represents v n.2 →
      WrittenAs (serializedSize check fuel) (serializeWith check fuel) check v n.2) :
    WrittenAs (serializedSize check (fuel + 1)) (serializeWith check (fuel + 1)) check v d := by
  obtain ⟨hv, hobject, hheader⟩ := h.header hd
  have hinner := hf.innerSize_lt hd
  obtain ⟨ms, hms, hmembers⟩ := h.members hd
  have heach : List.Forall₂ (fun m n => m.1 = n.1 ∧
      WrittenAs (serializedSize check fuel) (serializeWith check fuel) check m.2 n.2) ms
        d.members := by
    have hboth :=
      (List.forall₂_and_left (p := fun n : Option (List UInt8) × Value => ∀ v, Represents v n.2 →
      WrittenAs (serializedSize check fuel) (serializeWith check fuel) check v n.2) _ _).mpr ⟨hm,
        hmembers.flip⟩
    exact hboth.flip.imp fun m n hmn => ⟨hmn.2.key, hmn.1 m.2 hmn.2.value⟩
  obtain ⟨sizes, w, hsizes, hw, hlaid⟩ := members_written heach (Value.members_keys d) (hf.keys hd)
  have hsize := innerSerializedSize_eq hmembers.length_eq hlaid.sum
  have hinner' : innerSize d.parts < 2 ^ 63 := by omega
  have hlen := pack_length hinner'
  have hoffsets := serializeOffsetTable_eq hinner' hlaid.elements
  rw [← hobject] at hoffsets
  refine ⟨_, _, serializedSize_members hv he hms hsizes, ?_,
    serializeWith_members hv he hms hsize hoffsets hw _, ?_, fun hc => ?_⟩
  · rw [SizeTree.size_node, hsize, Value.encode_node hd, List.length_cons, hlen, Nat.add_comm]
  · rw [hheader, Value.encode_node hd]
    simp only [Written.append, hlaid.bytes, pack, packBody, List.append_assoc,
      List.singleton_append]
    rfl
  · rw [hheader, Value.result_node hd]
    simp [Written.append, SerializationResult.or, hlaid.result hc]

end written

lemma Represents.written (check : CheckErrors) {v : Datum} {d : Value} (h : Represents v d)
    (hf : d.Fits) {fuel : ℕ} (hfuel : d.depth ≤ fuel) :
    WrittenAs (serializedSize check fuel) (serializeWith check fuel) check v d := by
  -- a value is written in the same way whatever its form is
  induction d using Value.induct generalizing v fuel with
  | scalar s =>
    cases h
    obtain ⟨fuel, rfl⟩ := Nat.exists_eq_add_of_le' (show 1 ≤ fuel from hfuel)
    exact ⟨_, _, rfl, (Scalar.serialize_length hf).symm, rfl, rfl, fun _ => rfl⟩
  | node d hd ih =>
    obtain ⟨fuel, rfl⟩ :=
      Nat.exists_eq_add_of_le' (show 1 ≤ fuel by rw [Value.depth_node hd] at hfuel; omega)
    cases he : v.existing check with
    | some buf => exact h.written_existing hd hf he
    | none =>
      refine h.written_members hd hf he fun n hn v hv => ih n hn hv (hf.member hd hn) ?_
      have := Value.depth_member hd hn
      omega

lemma Represents.serialize (check : CheckErrors) {v : Datum} {d : Value} (h : Represents v d)
    (hf : d.Fits) {fuel : ℕ} (hfuel : d.depth ≤ fuel) :
    ∃ w, Datums.serialize check fuel v = some w ∧ w.bytes = d.encode ∧
    (check = .yes → w.result = d.result) := by
  obtain ⟨tree, w, hsize, -, hwrite, hbytes, hresult⟩ := h.written check hf hfuel
  refine ⟨w, ?_, hbytes, hresult⟩
  rw [Datums.serialize, hsize]
  exact hwrite

/-- What is written for a value is read back as that value, in whatever form the
server holds it, and nothing of what follows is touched. -/
theorem written_and_read (check : CheckErrors) {v : Datum} {d : Value} (h : Represents v d)
    (hf : d.Fits) {fuel : ℕ} (hfuel : d.depth ≤ fuel) (rest : List UInt8) :
    ∃ w v', serialize check fuel v = some w ∧ deserialize (w.bytes ++ rest) = .ok (v', rest) ∧
    Represents v' d := by
  obtain ⟨w, hwrite, hbytes, -⟩ := h.serialize check hf hfuel
  obtain ⟨v', hread, hv'⟩ := deserialize_encode hf rest
  exact ⟨w, v', hwrite, by rwa [hbytes], hv'⟩

def sample : Value :=
  .object [([0x61], .array [.scalar .null, .scalar (.bool true)]), ([0x62], .scalar (.str [0x78]))]

def sampleBuilt : Datum :=
  .object [([0x61], .array [.scalar .null, .scalar (.bool true)]), ([0x62], .scalar (.str [0x78]))]

def sampleRead : Datum := .bufObject (pack sample.parts ++ [0xFF])

lemma sampleBuilt_represents : Represents sampleBuilt sample := by
  have harray : Represents (.array [.scalar .null, .scalar (.bool true)])
      (.array [.scalar .null, .scalar (.bool true)]) :=
    .array rfl fun i h _ => match i, h with
      | 0, _ => .scalar .null
      | 1, _ => .scalar (.bool true)
  exact .object rfl fun i h _ => match i, h with
    | 0, _ => harray
    | 1, _ => .scalar (.str [0x78])

lemma sample_fits : sample.Fits := by
  rw [Value.Fits]
  decide

lemma sampleRead_represents : Represents sampleRead sample :=
  .bufObject (List.prefix_append _ _) sample_fits

theorem written_and_read_sample :
    ∃ w v', serialize .yes 3 sampleRead = some w ∧ deserialize (w.bytes ++ [7]) = .ok (v', [7]) ∧
      Represents v' sample :=
  written_and_read .yes sampleRead_represents sample_fits (by decide) [7]

/-- Copying a buffer, or reading it and writing its elements anew, gives the same
bytes as writing the value the first time. -/
theorem same_bytes {v v' : Datum} {d : Value} (h : Represents v d) (h' : Represents v' d)
    (hf : d.Fits) {fuel fuel' : ℕ} (hfuel : d.depth ≤ fuel) (hfuel' : d.depth ≤ fuel')
    (check : CheckErrors) :
    ∃ w w', serialize check fuel v = some w ∧ serialize .yes fuel' v' = some w' ∧
    w.bytes = w'.bytes ∧
      w'.result = d.result := by
  obtain ⟨w, hwrite, hbytes, -⟩ := h.serialize check hf hfuel
  obtain ⟨w', hwrite', hbytes', hresult⟩ := h'.serialize .yes hf hfuel'
  exact ⟨w, w', hwrite, hwrite', by rw [hbytes, hbytes'], hresult rfl⟩

theorem same_bytes_sample :
    ∃ w w', serialize .no 3 sampleRead = some w ∧ serialize .yes 3 sampleBuilt = some w' ∧
    w.bytes = w'.bytes ∧
      w'.result = {} :=
  same_bytes sampleRead_represents sampleBuilt_represents sample_fits (by decide) (by decide) .no

/-! ### Fields -/

/-- The fields of an object, in the order of the bytes of their names. -/
def Sorted (fields : List (List UInt8 × Value)) : Prop :=
  fields.Pairwise fun p q => List.compareLex compare p.1 q.1 = .lt

section fields

variable {v : Datum} {fields : List (List UInt8 × Value)}

lemma Represents.pairs (h : Represents v (.object fields)) :
    v.objSize = some fields.length ∧ ∀ i (hi : i < fields.length),
      ∃ w, v.uncheckedGetPair i = some (fields[i].1, w) ∧ Represents w fields[i].2 := by
  cases h with
  | @object pairs _ keys each =>
    have hlen : pairs.length = fields.length := by simpa using congrArg List.length keys
    refine ⟨congrArg some hlen, fun i hi => ?_⟩
    have hi' : i < pairs.length := by omega
    have hkey := List.getElem_of_eq keys (i := i) (by simpa using hi')
    rw [List.getElem_map, List.getElem_map] at hkey
    refine ⟨pairs[i].2, ?_, each i hi' hi⟩
    rw [Datum.uncheckedGetPair, List.getElem?_eq_getElem hi', ← hkey]
  | bufObject hbuf hf =>
    refine ⟨?_, fun i hi => uncheckedGetPair_bufObject hf hbuf hi⟩
    rw [Datum.objSize, getArraySize_buf (by simp) hf hbuf, Value.members, List.length_map]

/-- How a key compares with the name of each field. -/
def place (key : List UInt8) (fields : List (List UInt8 × Value)) (i : ℕ) : Ordering :=
  if hi : i < fields.length then List.compareLex compare key fields[i].1 else .lt

lemma place_eq {key : List UInt8} {i : ℕ} (hi : i < fields.length) :
    place key fields i = List.compareLex compare key fields[i].1 := dif_pos hi

lemma place_eq_iff {key : List UInt8} {i : ℕ} (hi : i < fields.length) :
    place key fields i = .eq ↔ key = fields[i].1 := by
  rw [place_eq hi, Std.LawfulEqCmp.compare_eq_iff_eq]

variable (hs : Sorted fields) (key : List UInt8)
include hs

lemma Sorted.lt {i j : ℕ} (hij : i < j) (hj : j < fields.length) :
    List.compareLex compare (fields[i].1) fields[j].1 = .lt :=
  List.pairwise_iff_getElem.mp hs i j _ hj hij

lemma place_gt {i j : ℕ} (hij : i ≤ j) (h : place key fields j = .gt) :
    place key fields i = .gt := by
  rcases Nat.lt_or_ge j fields.length with hj | hj
  · rcases Nat.eq_or_lt_of_le hij with rfl | hij
    · exact h
    · have hi : i < fields.length := by omega
      rw [place_eq hj, Std.OrientedCmp.gt_iff_lt] at h
      rw [place_eq hi, Std.OrientedCmp.gt_iff_lt]
      exact Std.TransCmp.lt_trans (hs.lt hij hj) h
  · rw [place, dif_neg (by omega)] at h
    cases h

lemma place_lt {i j : ℕ} (hij : i ≤ j) (h : place key fields i = .lt) :
    place key fields j = .lt := by
  rcases Nat.lt_or_ge j fields.length with hj | hj
  · rcases Nat.eq_or_lt_of_le hij with rfl | hij
    · exact h
    · have hi : i < fields.length := by omega
      rw [place_eq hi] at h
      rw [place_eq hj]
      exact Std.TransCmp.lt_trans h (hs.lt hij hj)
  · rw [place, dif_neg (by omega)]

lemma Sorted.unique {i j : ℕ} (hi : i < fields.length) (hj : j < fields.length)
    (h : fields[i].1 = fields[j].1) : i = j := by
  rcases Nat.lt_trichotomy i j with hij | hij | hij
  · exact absurd ((Std.LawfulEqCmp.compare_eq_iff_eq.mpr h).symm.trans (hs.lt hij hj)) (by decide)
  · exact hij
  · exact absurd ((Std.LawfulEqCmp.compare_eq_iff_eq.mpr h.symm).symm.trans (hs.lt hij hi))
      (by decide)

lemma Represents.getField (h : Represents v (.object fields)) :
    (∀ d, (key, d) ∈ fields → ∃ w, v.getField key = some (some w) ∧ Represents w d) ∧
      ((∀ d, (key, d) ∉ fields) → v.getField key = some none) := by
  obtain ⟨hsize, hpairs⟩ := h.pairs
  have hany : ∀ i, ∃ w, ∀ hi : i < fields.length,
      v.uncheckedGetPair i = some (fields[i].1, w) ∧ Represents w fields[i].2 := fun i => by
    by_cases hi : i < fields.length
    · obtain ⟨w, hw⟩ := hpairs i hi
      exact ⟨w, fun _ => hw⟩
    · exact ⟨.scalar .null, fun hi' => absurd hi' hi⟩
  choose found hfound using hany
  have hprobe : ∀ i, 0 ≤ i → i < fields.length →
      (v.uncheckedGetPair i).map (fun pair => (List.compareLex compare key pair.1, pair.2)) =
        some (place key fields i, found i) := fun i _ hi => by
    rw [(hfound i hi).1, place_eq hi]
    rfl
  have hfield : v.getField key = bisect (fun i => (v.uncheckedGetPair i).map fun pair =>
      (List.compareLex compare key pair.1, pair.2)) (fields.length + 1) 0 fields.length := by
    rw [Datum.getField, hsize]
    rfl
  rw [hfield]
  rcases bisect_spec (fun i j => place_gt hs key) (fun i j => place_lt hs key)
    (show fields.length - 0 < fields.length + 1 by omega) hprobe with ⟨i, -, hi, heq,
      hb⟩ | ⟨hnone, hb⟩
  · have hkey : key = fields[i].1 := (place_eq_iff hi).mp heq
    have hmem : (key, fields[i].2) ∈ fields := by
      rw [hkey]
      exact List.getElem_mem hi
    rw [hb]
    refine ⟨fun d hd => ?_, fun habsent => absurd hmem (habsent _)⟩
    obtain ⟨j, hj, hdj⟩ := List.mem_iff_getElem.mp hd
    obtain rfl := hs.unique hi hj (by rw [← hkey, hdj])
    refine ⟨found i, rfl, ?_⟩
    have hrep := (hfound i hi).2
    rwa [hdj] at hrep
  · refine ⟨fun d hd => ?_, fun _ => hb⟩
    obtain ⟨j, hj, hdj⟩ := List.mem_iff_getElem.mp hd
    exact absurd ((place_eq_iff hj).mpr (by rw [hdj])) (hnone j (Nat.zero_le j) hj)

end fields

end PersonnelBackend.Datums
