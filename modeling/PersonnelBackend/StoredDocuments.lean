import PersonnelBackend.StoredValues
import PersonnelBackend.Utf8Order

/-! Documents as the server stores them: the JSON value a datum stands for, whether
it was built in memory or read from disk. The names of the fields are kept as
bytes, whose order is the order of the names. -/
namespace PersonnelBackend.Document

def Items.toList : Items → List Json
  | .nil => []
  | .cons head rest => head :: rest.toList

def Fields.toList : Fields → List (String × Json)
  | .nil => []
  | .cons name value rest => (name, value) :: rest.toList

lemma Items.toList_injective :
    ∀ {items items' : Items}, items.toList = items'.toList → items = items'
  | .nil, .nil, _ => rfl
  | .cons head rest, .cons head' rest', h => by
    obtain ⟨rfl, hrest⟩ := List.cons.inj h
    rw [Items.toList_injective hrest]

lemma Fields.toList_injective :
    ∀ {fields fields' : Fields}, fields.toList = fields'.toList → fields = fields'
  | .nil, .nil, _ => rfl
  | .cons name value rest, .cons name' value' rest', h => by
    obtain ⟨hfirst, hrest⟩ := List.cons.inj h
    obtain ⟨rfl, rfl⟩ := Prod.mk.inj hfirst
    rw [Fields.toList_injective hrest]

section sorted

variable {fields : Fields} (hs : fields.sorted = true)
include hs

lemma Fields.lt_of_after {k : String} (h : fields.after k = true) :
    ∀ p ∈ fields.toList, k < p.1 := by
  induction fields with
  | nil => simp [Fields.toList]
  | cons name value rest ih =>
    obtain ⟨-, hafter, hrest⟩ := Fields.sorted_cons.mp hs
    simp only [Fields.after, decide_eq_true_eq] at h
    intro p hp
    rcases List.mem_cons.mp hp with rfl | hp
    · exact h
    · exact ih hrest (Fields.after_trans h hafter) p hp

lemma Fields.toList_pairwise : fields.toList.Pairwise fun p q => p.1 < q.1 := by
  induction fields with
  | nil => exact .nil
  | cons name value rest ih =>
    obtain ⟨-, hafter, hrest⟩ := Fields.sorted_cons.mp hs
    exact .cons (Fields.lt_of_after hrest hafter) (ih hrest)

lemma Fields.get_eq_some_iff {k : String} {v : Json} :
    fields.get k = some v ↔ (k, v) ∈ fields.toList := by
  induction fields with
  | nil => simp [Fields.toList]
  | cons name value rest ih =>
    obtain ⟨-, hafter, hrest⟩ := Fields.sorted_cons.mp hs
    rw [Fields.get_cons, Fields.toList, List.mem_cons, Prod.mk.injEq]
    by_cases hk : k = name
    · subst hk
      have hnot : (k, v) ∉ rest.toList := fun h => lt_irrefl k (Fields.lt_of_after hrest hafter _ h)
      simp [hnot, eq_comm]
    · simp [hk, ih hrest]

end sorted

lemma Items.sorted_iff : ∀ items : Items, items.sorted = true ↔ ∀ j ∈ items.toList, j.sorted = true
  | .nil => by simp [Items.sorted, Items.toList]
  | .cons head rest => by simp [Items.sorted, Items.toList, Items.sorted_iff rest]

lemma Items.plain_iff : ∀ items : Items, items.plain = true ↔ ∀ j ∈ items.toList, j.plain = true
  | .nil => by simp [Items.plain, Items.toList]
  | .cons head rest => by simp [Items.plain, Items.toList, Items.plain_iff rest]

lemma Fields.plain_iff {fields : Fields} :
    fields.plain = true ↔ ∀ p ∈ fields.toList, p.1 ≠ reqlType ∧ p.2.plain = true := by
  induction fields with
  | nil => simp [Fields.plain, Fields.toList]
  | cons name value rest ih => simp [Fields.plain, Fields.toList, ih, and_assoc]

lemma mergeField_sorted_plain {l : Fields} (hs : l.sorted = true) (hl : l.plain = true)
    (name : String) {value : Json} (hvs : value.sorted = true) (hv : value.plain = true) :
    (mergeField (l.get name) value).sorted = true ∧
    (mergeField (l.get name) value).plain = true := by
  cases hg : l.get name with
  | none => exact ⟨hvs, hv⟩
  | some sub =>
    exact ⟨Json.merge_sorted sub value (Fields.get_sorted hs hg) hvs,
      Json.merge_plain sub value (Fields.get_plain hl hg).2 hv⟩

end PersonnelBackend.Document

namespace PersonnelBackend.Datums
open Document Database Packed

/-! ### The JSON value of a datum -/

/-- The value is the JSON value in the server's terms: numbers as doubles, strings
and names as bytes. -/
inductive Stands : Json → Value → Prop
  | null : Stands .null (.scalar .null)
  | bool (b : Bool) : Stands (.bool b) (.scalar (.bool b))
  | num (d : PrimaryKeys.Double) : Stands (.num (.finite d.value)) (.scalar (.num d))
  | str (s : String) : Stands (.str s) (.scalar (.str (utf8 s)))
  | arr {items : Items} {values : List Value} (size : items.toList.length = values.length)
      (each : ∀ i (h : i < items.toList.length) (h' : i < values.length),
        Stands items.toList[i] values[i]) :
      Stands (.arr items) (.array values)
  | obj {fields : Fields} {pairs : List (List UInt8 × Value)}
      (keys : fields.toList.map (fun p => utf8 p.1) = pairs.map Prod.fst)
      (each : ∀ i (h : i < fields.toList.length) (h' : i < pairs.length),
        Stands fields.toList[i].2 pairs[i].2) :
      Stands (.obj fields) (.object pairs)

/-- The datum is held for the JSON value, in some form. -/
def Denotes (v : Datum) (j : Json) : Prop := ∃ d, Represents v d ∧ Stands j d

/-- A field of a datum and the field it is held for. -/
structure FieldOf (pair : List UInt8 × Datum) (field : String × Json) : Prop where
  key : pair.1 = utf8 field.1
  value : Denotes pair.2 field.2

section fields

variable {fields : Fields} {pairs : List (List UInt8 × Value)}
  (h : Stands (.obj fields) (.object pairs))
include h

lemma Stands.length_eq : fields.toList.length = pairs.length := by
  cases h with
  | obj keys each => simpa using congrArg List.length keys

lemma Stands.key_eq {i : ℕ} (hi : i < fields.toList.length) (hi' : i < pairs.length) :
    utf8 fields.toList[i].1 = pairs[i].1 := by
  cases h with
  | obj keys each =>
    have hkey := List.getElem_of_eq keys (i := i) (by simpa using hi)
    rwa [List.getElem_map, List.getElem_map] at hkey

lemma Stands.field {i : ℕ} (hi : i < fields.toList.length) (hi' : i < pairs.length) :
    Stands fields.toList[i].2 pairs[i].2 := by
  cases h with
  | obj keys each => exact each i hi hi'

lemma Stands.sorted (hs : fields.sorted = true) : Sorted pairs := by
  have hlen := h.length_eq
  refine List.pairwise_iff_getElem.mpr fun i j hi hj hij => ?_
  rw [← h.key_eq (by omega) hi, ← h.key_eq (by omega) hj]
  exact Utf8Order.compareLex_utf8 (List.pairwise_iff_getElem.mp (Fields.toList_pairwise hs) i
    j _ _ hij)

end fields

lemma Denotes.isObject {v : Datum} {j : Json} (h : Denotes v j) :
    v.isObject = true ↔ ∃ fields, j = .obj fields := by
  obtain ⟨d, hv, hj⟩ := h
  cases hj with
  | obj keys each => cases hv <;> simp [Datum.isObject]
  | _ => cases hv <;> simp [Datum.isObject]

/-! ### The elements of a datum -/

def Datum.items (v : Datum) : Option (List Datum) := do
  let size ← v.arrSize
  (List.range size).mapM v.uncheckedGet

def Datum.pairs (v : Datum) : Option (List (List UInt8 × Datum)) := do
  let size ← v.objSize
  (List.range size).mapM v.uncheckedGetPair

lemma Represents.items {v : Datum} {values : List Value} (h : Represents v (.array values)) :
    ∃ items, v.items = some items ∧ List.Forall₂ Represents items values := by
  cases h with
  | @array items _ size each =>
    have hget : ∀ i (hi : i < values.length),
        ∃ w, (Datum.array items).uncheckedGet i = some w ∧ Represents w values[i] := fun i hi =>
      ⟨items[i], List.getElem?_eq_getElem _, each i (by omega) hi⟩
    rw [Datum.items, Datum.arrSize, size]
    exact mapM_range hget
  | bufArray hbuf fits =>
    have hsize := getArraySize_buf (by simp) fits hbuf
    rw [Value.members, List.length_map] at hsize
    rw [Datum.items, Datum.arrSize, hsize]
    exact mapM_range fun i hi => uncheckedGet_bufArray fits hbuf hi

lemma Represents.allPairs {v : Datum} {fields : List (List UInt8 × Value)}
    (h : Represents v (.object fields)) :
    ∃ pairs, v.pairs = some pairs ∧ List.Forall₂ (fun p f => p.1 = f.1 ∧
      Represents p.2 f.2) pairs fields := by
  obtain ⟨hsize, hget⟩ := h.pairs
  rw [Datum.pairs, hsize]
  refine mapM_range fun i hi => ?_
  obtain ⟨w, hw, hr⟩ := hget i hi
  exact ⟨_, hw, rfl, hr⟩

section elements

variable {v : Datum}

lemma Denotes.items {items : Items} (h : Denotes v (.arr items)) :
    ∃ ws, v.items = some ws ∧ List.Forall₂ Denotes ws items.toList := by
  obtain ⟨d, hv, hj⟩ := h
  cases hj with
  | @arr _ values size each =>
    obtain ⟨ws, hws, hrep⟩ := hv.items
    refine ⟨ws, hws, List.forall₂_iff_get.mpr ⟨by rw [hrep.length_eq, size], fun i h h' => ?_⟩⟩
    have hi : i < values.length := by omega
    exact ⟨values[i], (List.forall₂_iff_get.mp hrep).2 i h hi, each i h' hi⟩

lemma Denotes.pairs {fields : Fields} (h : Denotes v (.obj fields)) :
    ∃ ps, v.pairs = some ps ∧ List.Forall₂ FieldOf ps fields.toList := by
  obtain ⟨d, hv, hj⟩ := h
  cases d with
  | object pairs =>
    have hlen := hj.length_eq
    obtain ⟨ps, hps, hrep⟩ := hv.allPairs
    refine ⟨ps, hps, List.forall₂_iff_get.mpr ⟨by rw [hrep.length_eq, hlen], fun i h h' => ?_⟩⟩
    have hi : i < pairs.length := by omega
    obtain ⟨hkey, hvalue⟩ := (List.forall₂_iff_get.mp hrep).2 i h hi
    exact ⟨hkey.trans (hj.key_eq h' hi).symm, pairs[i].2, hvalue, hj.field h' hi⟩
  | _ => cases hj

lemma Denotes.object {pairs : List (List UInt8 × Datum)} {fields : Fields}
    (h : List.Forall₂ FieldOf pairs fields.toList) : Denotes (.object pairs) (.obj fields) := by
  obtain ⟨hlen, heach⟩ := List.forall₂_iff_get.mp h
  have hvalue : ∀ i : Fin pairs.length, ∃ d, Represents pairs[i].2 d ∧
    Stands fields.toList[i].2 d := fun i =>
    (heach i i.isLt (by omega)).value
  choose value hrep hstands using hvalue
  refine ⟨.object (List.ofFn fun i : Fin pairs.length => (pairs[i].1, value i)), .object ?_ ?_,
    .obj ?_ ?_⟩
  · exact List.ext_getElem (by simp) fun i h h' => by simp
  · intro i h h'
    simpa using hrep ⟨i, h⟩
  · refine List.ext_getElem (by simpa using hlen.symm) fun i h h' => ?_
    have hi : i < pairs.length := by simpa using h'
    simpa using (heach i hi (by omega)).key.symm
  · intro i h h'
    have hi : i < pairs.length := by omega
    simpa using hstands ⟨i, hi⟩

lemma Denotes.getField {fields : Fields} (h : Denotes v (.obj fields)) (hs : fields.sorted = true)
    (name : String) :
    ∃ o, v.getField (utf8 name) = some o ∧ Option.Rel Denotes o (fields.get name) := by
  obtain ⟨d, hv, hj⟩ := h
  cases d with
  | object pairs =>
    have hlen := hj.length_eq
    obtain ⟨hfound, hmissed⟩ := hv.getField (hj.sorted hs) (utf8 name)
    cases hget : fields.get name with
    | none =>
      refine ⟨none, hmissed fun d hd => ?_, .none⟩
      obtain ⟨i, hi, hid⟩ := List.mem_iff_getElem.mp hd
      have hname : fields.toList[i].1 = name :=
        PrimaryKeys.utf8_inj.mp ((hj.key_eq (by omega) hi).trans (congrArg Prod.fst hid))
      have hmem : (name, fields.toList[i].2) ∈ fields.toList := by
        rw [← hname]
        exact List.getElem_mem _
      rw [← Fields.get_eq_some_iff hs, hget] at hmem
      cases hmem
    | some value =>
      obtain ⟨i, hi, hid⟩ := List.mem_iff_getElem.mp ((Fields.get_eq_some_iff hs).mp hget)
      have hi' : i < pairs.length := by omega
      have hkey : pairs[i].1 = utf8 name := by rw [← hj.key_eq hi hi', hid]
      have hmem : (utf8 name, pairs[i].2) ∈ pairs := by
        rw [← hkey]
        exact List.getElem_mem _
      obtain ⟨w, hw, hr⟩ := hfound _ hmem
      refine ⟨some w, hw, .some ⟨_, hr, ?_⟩⟩
      have hstands := hj.field hi hi'
      rwa [hid] at hstands
  | _ => cases hj

end elements

/-! ### Objects of strings -/

def stringsValue (entries : List (String × String)) : Value :=
  .object (entries.map fun e => (utf8 e.1, .scalar (.str (utf8 e.2))))

def stringsDatum (entries : List (String × String)) : Datum :=
  .object (entries.map fun e => (utf8 e.1, .scalar (.str (utf8 e.2))))

lemma stringsDatum_represents (entries : List (String × String)) :
    Represents (stringsDatum entries) (stringsValue entries) := by
  refine .object (by simp) fun i h h' => ?_
  rw [List.getElem_map, List.getElem_map]
  exact .scalar _

lemma stands_strings_iff {fields : Fields} {entries : List (String × String)}
    (hf : fields.toList = entries.map fun e => (e.1, Json.str e.2)) {d : Value} :
    Stands (.obj fields) d ↔ d = stringsValue entries := by
  constructor
  · intro h
    cases h with
    | @obj _ pairs keys each =>
      rw [hf, List.map_map] at keys
      have hlen : pairs.length = entries.length := by
        simpa using (congrArg List.length keys).symm
      refine congrArg Value.object (List.ext_getElem (by simpa using hlen) fun i hi hi' => ?_)
      have hentry : i < entries.length := hlen ▸ hi
      have hkey : pairs[i].1 = utf8 entries[i].1 := by
        have hget := congrArg (·[i]?) keys
        simpa [hi, hentry] using hget.symm
      have hvalue := each i (by simpa [hf] using hentry) hi
      simp only [hf, List.getElem_map] at hvalue
      rw [List.getElem_map]
      refine Prod.ext hkey ?_
      generalize pairs[i].2 = v at hvalue
      cases hvalue
      rfl
  · rintro rfl
    refine .obj (by rw [hf]; simp [Function.comp_def]) fun i h h' => ?_
    simp only [hf, List.getElem_map]
    exact .str _

lemma stringsDatum_denotes {fields : Fields} (entries : List (String × String))
    (hf : fields.toList = entries.map fun e => (e.1, Json.str e.2)) :
    Denotes (stringsDatum entries) (.obj fields) :=
  ⟨stringsValue entries, stringsDatum_represents entries, (stands_strings_iff hf).mpr rfl⟩

/-! ### Fields on disk -/

/-- A document that is written and read again has the fields it had, and no other:
the search for a name in the bytes finds what the document has under it. -/
theorem field_of_stored (check : CheckErrors) (doc : Doc) {v : Datum} {d : Value}
    (h : Represents v d) (hj : Stands (.obj doc.fields) d) (hf : d.Fits) {fuel : ℕ}
    (hfuel : d.depth ≤ fuel) (rest : List UInt8) (name : String) :
    ∃ w v' o, serialize check fuel v = some w ∧ deserialize (w.bytes ++ rest) = .ok (v', rest) ∧
      v'.getField (utf8 name) = some o ∧ Option.Rel Denotes o (doc.get name) := by
  obtain ⟨w, hwrite, hbytes, -⟩ := h.serialize check hf hfuel
  obtain ⟨v', hread, hv'⟩ := deserialize_encode hf rest
  obtain ⟨o, hfield, hrel⟩ := Denotes.getField ⟨d, hv', hj⟩ doc.sorted name
  exact ⟨w, v', o, hwrite, by rwa [hbytes], hfield, hrel⟩

theorem field_of_stored_note :
    ∃ w v' o, serialize .yes 2 (stringsDatum [("id", "a"), ("note", "x")]) = some w ∧
      deserialize (w.bytes ++ [0xFF]) = .ok (v', [0xFF]) ∧
      v'.getField (utf8 "note") = some o ∧ Option.Rel Denotes o (some (.str "x")) :=
  field_of_stored .yes (Doc.strings [("id", "a"), ("note", "x")]) (stringsDatum_represents _)
    ((stands_strings_iff (by decide)).mpr rfl) (by rw [Value.Fits]; decide) (by decide) [0xFF]
    "note"

end PersonnelBackend.Datums
