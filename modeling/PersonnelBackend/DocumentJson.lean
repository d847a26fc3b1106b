import Mathlib.Data.String.Basic
import Mathlib.Data.Rat.Defs
import Mathlib.Tactic.Common

/-! JSON values as `express.json` hands them to the handlers and as RethinkDB
stores them. The server keeps the fields of an object in a map ordered by name,
so a stored object lists its fields in strictly increasing order and equality of
values is equality of terms. The server reads an object with the reserved field
`$reql_type$` as a pseudotype: times, binary data and geometries are converted and
are left out here, and any other such object is refused. -/
namespace PersonnelBackend.Document

/-- What a JSON number reads as: a double, or an infinity when it overflows. -/
inductive Number
  | finite (value : ℚ)
  | infinite (negative : Bool)
  deriving DecidableEq, Repr

def Number.isFinite : Number → Bool
  | .finite _ => true
  | .infinite _ => false

mutual
inductive Json
  | null
  | bool (value : Bool)
  | num (value : Number)
  | str (value : String)
  | arr (items : Items)
  | obj (fields : Fields)
  deriving DecidableEq, Repr
inductive Items
  | nil
  | cons (head : Json) (rest : Items)
  deriving DecidableEq, Repr
inductive Fields
  | nil
  | cons (name : String) (value : Json) (rest : Fields)
  deriving DecidableEq, Repr
end

/-- The values JavaScript compares by content rather than by identity. -/
def Json.isScalar : Json → Bool
  | .arr _ => false
  | .obj _ => false
  | _ => true

lemma Json.isScalar_str (s : String) : (Json.str s).isScalar = true := rfl

def Items.ofList : List Json → Items
  | [] => .nil
  | head :: rest => .cons head (ofList rest)

@[induction_eliminator]
theorem Fields.induction {motive : Fields → Prop} (nil : motive .nil)
    (cons : ∀ name value rest, motive rest → motive (.cons name value rest)) :
    ∀ fields, motive fields
  | .nil => nil
  | .cons name value rest => cons name value rest (Fields.induction nil cons rest)

/-! ### Reading and overwriting a field -/

def Fields.get : Fields → String → Option Json
  | .nil, _ => none
  | .cons name value rest, k => if k = name then some value else rest.get k

/-- As `datum_object_builder_t::overwrite`, on the ordered representation. -/
def Fields.overwrite (k : String) (v : Json) : Fields → Fields
  | .nil => .cons k v .nil
  | .cons name value rest =>
    if k < name then .cons k v (.cons name value rest)
    else if k = name then .cons k v rest
    else .cons name value (rest.overwrite k v)

@[simp] lemma Fields.get_nil (k : String) : Fields.nil.get k = none := rfl

lemma Fields.get_cons (name : String) (value : Json) (rest : Fields) (k : String) :
    (Fields.cons name value rest).get k = if k = name then some value else rest.get k := rfl

lemma Fields.get_overwrite (fields : Fields) (k j : String) (v : Json) :
    (fields.overwrite k v).get j = if j = k then some v else fields.get j := by
  induction fields with
  | nil => rfl
  | cons name value rest ih =>
    by_cases hlt : k < name
    · simp [Fields.overwrite, hlt, Fields.get_cons]
    · by_cases heq : k = name
      · subst heq
        by_cases hj : j = k <;> simp [Fields.overwrite, Fields.get_cons, hj]
      · simp only [Fields.overwrite, hlt, heq, if_false, Fields.get_cons, ih]
        by_cases hj : j = name
        · subst j
          simp [Ne.symm heq]
        · simp [hj]

/-! ### Ordered objects -/

/-- Every field comes after `k`, judged by the first one. -/
def Fields.after (k : String) : Fields → Bool
  | .nil => true
  | .cons name _ _ => decide (k < name)

mutual
/-- All objects inside the value list their fields in strictly increasing order. -/
def Json.sorted : Json → Bool
  | .arr items => items.sorted
  | .obj fields => fields.sorted
  | _ => true
def Items.sorted : Items → Bool
  | .nil => true
  | .cons head rest => head.sorted && rest.sorted
def Fields.sorted : Fields → Bool
  | .nil => true
  | .cons name value rest => value.sorted && rest.after name && rest.sorted
end

lemma Fields.sorted_nil : Fields.nil.sorted = true := by rw [Fields.sorted]

lemma Json.sorted_of_isScalar {v : Json} (h : v.isScalar = true) : v.sorted = true := by
  cases v <;> first | rfl | simp [Json.isScalar] at h

lemma Fields.sorted_cons {name : String} {value : Json} {rest : Fields} :
    (Fields.cons name value rest).sorted = true ↔
      value.sorted = true ∧ rest.after name = true ∧ rest.sorted = true := by
  simp [Fields.sorted, and_assoc]

lemma Fields.after_trans {k name : String} {fields : Fields} (hk : k < name)
    (h : fields.after name = true) : fields.after k = true := by
  cases fields with
  | nil => rfl
  | cons first value rest =>
    simp only [Fields.after, decide_eq_true_eq] at h ⊢
    exact hk.trans h

lemma Fields.get_of_after {k : String} {fields : Fields} (hs : fields.sorted = true)
    (h : fields.after k = true) : fields.get k = none := by
  induction fields with
  | nil => rfl
  | cons name value rest ih =>
    obtain ⟨-, hafter, hrest⟩ := Fields.sorted_cons.mp hs
    simp only [Fields.after, decide_eq_true_eq] at h
    rw [Fields.get_cons, if_neg h.ne]
    exact ih hrest (Fields.after_trans h hafter)

lemma Fields.get_sorted {k : String} {v : Json} {fields : Fields} (hs : fields.sorted = true)
    (h : fields.get k = some v) : v.sorted = true := by
  induction fields with
  | nil => simp at h
  | cons name value rest ih =>
    obtain ⟨hv, -, hrest⟩ := Fields.sorted_cons.mp hs
    rw [Fields.get_cons] at h
    split_ifs at h with hk
    · obtain rfl := Option.some.inj h
      exact hv
    · exact ih hrest h

lemma Fields.after_overwrite {name k : String} {v : Json} {fields : Fields} (hk : name < k)
    (h : fields.after name = true) : (fields.overwrite k v).after name = true := by
  cases fields with
  | nil => simpa [Fields.overwrite, Fields.after] using hk
  | cons first value rest =>
    simp only [Fields.after, decide_eq_true_eq] at h
    unfold Fields.overwrite
    split_ifs <;> simp [Fields.after, hk, h]

lemma Fields.overwrite_sorted {k : String} {v : Json} {fields : Fields} (hv : v.sorted = true)
    (hs : fields.sorted = true) : (fields.overwrite k v).sorted = true := by
  induction fields with
  | nil => simp [Fields.overwrite, Fields.sorted, Fields.after, hv]
  | cons name value rest ih =>
    obtain ⟨hvalue, hafter, hrest⟩ := Fields.sorted_cons.mp hs
    unfold Fields.overwrite
    split_ifs with hlt heq
    · exact Fields.sorted_cons.mpr ⟨hv, by simpa [Fields.after] using hlt, hs⟩
    · subst heq
      exact Fields.sorted_cons.mpr ⟨hv, hafter, hrest⟩
    · have hgt : name < k := lt_of_le_of_ne (not_lt.mp hlt) (Ne.symm heq)
      exact Fields.sorted_cons.mpr ⟨hvalue, Fields.after_overwrite hgt hafter, ih hrest⟩

/-! ### The reserved field -/

/-- The field that marks the pseudotypes of the server. -/
def reqlType : String := "$reql_type$"

def Json.isConverted : Json → Bool
  | .str name => name == "TIME" || name == "BINARY" || name == "GEOMETRY"
  | _ => false

mutual
/-- No object in the value has the reserved field; the server takes such a value
as it is and refuses any other one. -/
def Json.plain : Json → Bool
  | .arr items => items.plain
  | .obj fields => fields.plain
  | _ => true
def Items.plain : Items → Bool
  | .nil => true
  | .cons head rest => head.plain && rest.plain
def Fields.plain : Fields → Bool
  | .nil => true
  | .cons name value rest => name != reqlType && value.plain && rest.plain
end

mutual
/-- No object in the value is a time, binary data or a geometry. -/
def Json.ordinary : Json → Bool
  | .arr items => items.ordinary
  | .obj fields => fields.ordinary
  | _ => true
def Items.ordinary : Items → Bool
  | .nil => true
  | .cons head rest => head.ordinary && rest.ordinary
def Fields.ordinary : Fields → Bool
  | .nil => true
  | .cons name value rest =>
    !(name == reqlType && value.isConverted) && value.ordinary && rest.ordinary
end

lemma Json.plain_of_isScalar {v : Json} (h : v.isScalar = true) : v.plain = true := by
  cases v <;> first | rfl | simp [Json.isScalar] at h

lemma Json.ordinary_of_isScalar {v : Json} (h : v.isScalar = true) : v.ordinary = true := by
  cases v <;> first | rfl | simp [Json.isScalar] at h

lemma Fields.plain_cons {name : String} {value : Json} {rest : Fields} :
    (Fields.cons name value rest).plain = true ↔
      name ≠ reqlType ∧ value.plain = true ∧ rest.plain = true := by
  simp [Fields.plain, and_assoc]

lemma Fields.ordinary_cons {name : String} {value : Json} {rest : Fields} :
    (Fields.cons name value rest).ordinary = true ↔
      (name = reqlType → value.isConverted = false) ∧ value.ordinary = true ∧
        rest.ordinary = true := by
  simp [Fields.ordinary, and_assoc, imp_iff_not_or]

lemma Fields.get_plain {fields : Fields} {k : String} {v : Json} (hp : fields.plain = true)
    (h : fields.get k = some v) : k ≠ reqlType ∧ v.plain = true := by
  induction fields with
  | nil => simp at h
  | cons name value rest ih =>
    obtain ⟨hname, hvalue, hrest⟩ := Fields.plain_cons.mp hp
    rw [Fields.get_cons] at h
    split_ifs at h with hk
    · obtain rfl := Option.some.inj h
      exact ⟨hk ▸ hname, hvalue⟩
    · exact ih hrest h

lemma Fields.get_ordinary {fields : Fields} {k : String} {v : Json} (ho : fields.ordinary = true)
    (h : fields.get k = some v) : v.ordinary = true := by
  induction fields with
  | nil => simp at h
  | cons name value rest ih =>
    obtain ⟨-, hvalue, hrest⟩ := Fields.ordinary_cons.mp ho
    rw [Fields.get_cons] at h
    split_ifs at h
    · obtain rfl := Option.some.inj h
      exact hvalue
    · exact ih hrest h

lemma Fields.overwrite_plain {fields : Fields} {k : String} {v : Json} (hk : k ≠ reqlType)
    (hv : v.plain = true) (hp : fields.plain = true) : (fields.overwrite k v).plain = true := by
  induction fields with
  | nil => exact Fields.plain_cons.mpr ⟨hk, hv, rfl⟩
  | cons name value rest ih =>
    obtain ⟨hname, hvalue, hrest⟩ := Fields.plain_cons.mp hp
    unfold Fields.overwrite
    split_ifs
    · exact Fields.plain_cons.mpr ⟨hk, hv, hp⟩
    · exact Fields.plain_cons.mpr ⟨hk, hv, hrest⟩
    · exact Fields.plain_cons.mpr ⟨hname, hvalue, ih hrest⟩

lemma Fields.plain_of_overwrite {fields : Fields} {k : String} {v : Json}
    (hk : fields.get k = none) (h : (fields.overwrite k v).plain = true) : fields.plain = true := by
  induction fields with
  | nil => rfl
  | cons name value rest ih =>
    rw [Fields.get_cons] at hk
    unfold Fields.overwrite at h
    split_ifs at hk h
    · exact (Fields.plain_cons.mp h).2.2
    · obtain ⟨hname, hvalue, hrest⟩ := Fields.plain_cons.mp h
      exact Fields.plain_cons.mpr ⟨hname, hvalue, ih hk hrest⟩

lemma Fields.overwrite_ordinary {fields : Fields} {k : String} {v : Json}
    (hk : k = reqlType → v.isConverted = false) (hv : v.ordinary = true)
    (ho : fields.ordinary = true) : (fields.overwrite k v).ordinary = true := by
  induction fields with
  | nil => exact Fields.ordinary_cons.mpr ⟨hk, hv, rfl⟩
  | cons name value rest ih =>
    obtain ⟨hname, hvalue, hrest⟩ := Fields.ordinary_cons.mp ho
    unfold Fields.overwrite
    split_ifs
    · exact Fields.ordinary_cons.mpr ⟨hk, hv, ho⟩
    · exact Fields.ordinary_cons.mpr ⟨hk, hv, hrest⟩
    · exact Fields.ordinary_cons.mpr ⟨hname, hvalue, ih hrest⟩

/-! ### Merging -/

mutual
/-- As `datum_t::merge`: objects merge field by field, anything else is replaced. -/
def Json.merge (lhs : Json) : Json → Json
  | .obj r =>
    match lhs with
    | .obj l => .obj (l.merge r)
    | _ => .obj r
  | rhs => rhs
/-- The loop over the fields of the right-hand object. A field the left-hand
object lacks is taken over as it is. -/
def Fields.merge (l : Fields) : Fields → Fields
  | .nil => l
  | .cons name value rest =>
    (l.overwrite name (match l.get name with
      | some sub => sub.merge value
      | none => value)).merge rest
end

def mergeField (old : Option Json) (value : Json) : Json :=
  match old with
  | some sub => sub.merge value
  | none => value

lemma Json.merge_of_isScalar (lhs : Json) {v : Json} (h : v.isScalar = true) :
    lhs.merge v = v := by
  cases v <;> first | rfl | simp [Json.isScalar] at h

lemma mergeField_of_isScalar (old : Option Json) {v : Json} (h : v.isScalar = true) :
    mergeField old v = v := by
  cases old with
  | none => rfl
  | some sub => exact Json.merge_of_isScalar sub h

lemma mergeField_isScalar (old : Option Json) (v : Json) :
    (mergeField old v).isScalar = v.isScalar := by
  cases old with
  | none => rfl
  | some sub => cases v <;> cases sub <;> rfl

lemma mergeField_eq_str {old : Option Json} {v : Json} {x : String}
    (h : mergeField old v = .str x) :
    v = .str x := by
  have hv : v.isScalar = true := by
    rw [← mergeField_isScalar old, h]
    rfl
  rwa [mergeField_of_isScalar old hv] at h

lemma Fields.merge_cons (l : Fields) (name : String) (value : Json) (rest : Fields) :
    l.merge (.cons name value rest) =
      (l.overwrite name (mergeField (l.get name) value)).merge rest := by
  rw [Fields.merge]
  rfl

/-- Field by field, a merge is decided by the right-hand object alone or leaves
the left-hand field as it was. -/
theorem Fields.get_merge (l : Fields) {r : Fields} (hr : r.sorted = true) (k : String) :
    (l.merge r).get k =
      match r.get k with
      | some v => some (mergeField (l.get k) v)
      | none => l.get k := by
  induction r generalizing l with
  | nil => simp [Fields.merge]
  | cons name value rest ih =>
    obtain ⟨-, hafter, hrest⟩ := Fields.sorted_cons.mp hr
    rw [Fields.merge_cons, ih _ hrest, Fields.get_cons]
    by_cases hk : k = name
    · subst hk
      simp [Fields.get_of_after hrest hafter, Fields.get_overwrite]
    · simp [hk, Fields.get_overwrite]

mutual
theorem Json.merge_sorted (lhs rhs : Json) (hl : lhs.sorted = true) (hr : rhs.sorted = true) :
    (lhs.merge rhs).sorted = true := by
  match rhs, lhs with
  | .obj r, .obj l => exact Fields.merge_sorted l r hl hr
  | .obj r, .null | .obj r, .bool _ | .obj r, .num _ | .obj r, .str _ | .obj r, .arr _ => exact hr
  | .null, _ | .bool _, _ | .num _, _ | .str _, _ | .arr _, _ => exact hr
theorem Fields.merge_sorted (l r : Fields) (hl : l.sorted = true) (hr : r.sorted = true) :
    (l.merge r).sorted = true := by
  match r with
  | .nil => exact hl
  | .cons name value rest =>
    obtain ⟨hv, -, hrest⟩ := Fields.sorted_cons.mp hr
    rw [Fields.merge_cons]
    have hm : (mergeField (l.get name) value).sorted = true := by
      cases hg : l.get name with
      | none => exact hv
      | some sub => exact Json.merge_sorted sub value (Fields.get_sorted hl hg) hv
    exact Fields.merge_sorted _ rest (Fields.overwrite_sorted hm hl) hrest
end

lemma mergeField_isConverted (old : Option Json) {v : Json} (h : v.isConverted = false) :
    (mergeField old v).isConverted = false := by
  by_cases hv : v.isScalar = true
  · rwa [mergeField_of_isScalar old hv]
  · have hm : (mergeField old v).isScalar ≠ true := by rwa [mergeField_isScalar]
    generalize mergeField old v = m at hm
    cases m <;> first | rfl | exact absurd rfl hm

mutual
theorem Json.merge_ordinary (lhs rhs : Json) (hl : lhs.ordinary = true)
    (hr : rhs.ordinary = true) : (lhs.merge rhs).ordinary = true := by
  match rhs, lhs with
  | .obj r, .obj l => exact Fields.merge_ordinary l r hl hr
  | .obj r, .null | .obj r, .bool _ | .obj r, .num _ | .obj r, .str _ | .obj r, .arr _ => exact hr
  | .null, _ | .bool _, _ | .num _, _ | .str _, _ | .arr _, _ => exact hr
theorem Fields.merge_ordinary (l r : Fields) (hl : l.ordinary = true) (hr : r.ordinary = true) :
    (l.merge r).ordinary = true := by
  match r with
  | .nil => exact hl
  | .cons name value rest =>
    obtain ⟨hname, hv, hrest⟩ := Fields.ordinary_cons.mp hr
    rw [Fields.merge_cons]
    have hm : (mergeField (l.get name) value).ordinary = true := by
      cases hg : l.get name with
      | none => exact hv
      | some sub => exact Json.merge_ordinary sub value (Fields.get_ordinary hl hg) hv
    have hkind := fun h => mergeField_isConverted (l.get name) (hname h)
    exact Fields.merge_ordinary _ rest (Fields.overwrite_ordinary hkind hm hl) hrest
end

mutual
theorem Json.merge_plain (lhs rhs : Json) (hl : lhs.plain = true) (hr : rhs.plain = true) :
    (lhs.merge rhs).plain = true := by
  match rhs, lhs with
  | .obj r, .obj l => exact Fields.merge_plain l r hl hr
  | .obj r, .null | .obj r, .bool _ | .obj r, .num _ | .obj r, .str _ | .obj r, .arr _ => exact hr
  | .null, _ | .bool _, _ | .num _, _ | .str _, _ | .arr _, _ => exact hr
theorem Fields.merge_plain (l r : Fields) (hl : l.plain = true) (hr : r.plain = true) :
    (l.merge r).plain = true := by
  match r with
  | .nil => exact hl
  | .cons name value rest =>
    obtain ⟨hname, hv, hrest⟩ := Fields.plain_cons.mp hr
    rw [Fields.merge_cons]
    have hm : (mergeField (l.get name) value).plain = true := by
      cases hg : l.get name with
      | none => exact hv
      | some sub => exact Json.merge_plain sub value (Fields.get_plain hl hg).2 hv
    exact Fields.merge_plain _ rest (Fields.overwrite_plain hname hm hl) hrest
end

mutual
theorem Json.plain_of_merge (lhs rhs : Json) (hr : rhs.sorted = true)
    (h : (lhs.merge rhs).plain = true) : rhs.plain = true := by
  match rhs, lhs with
  | .obj r, .obj l => exact Fields.plain_of_merge l r hr h
  | .obj r, .null | .obj r, .bool _ | .obj r, .num _ | .obj r, .str _ | .obj r, .arr _ => exact h
  | .null, _ | .bool _, _ | .num _, _ | .str _, _ | .arr _, _ => exact h
theorem Fields.plain_of_merge (l r : Fields) (hr : r.sorted = true)
    (h : (l.merge r).plain = true) : r.plain = true := by
  match r with
  | .nil => rfl
  | .cons name value rest =>
    obtain ⟨hv, -, hrest⟩ := Fields.sorted_cons.mp hr
    have hget := Fields.get_merge l hr name
    simp only [Fields.get_cons, if_true] at hget
    obtain ⟨hname, hm⟩ := Fields.get_plain h hget
    rw [Fields.merge_cons] at h
    refine Fields.plain_cons.mpr ⟨hname, ?_, Fields.plain_of_merge _ rest hrest h⟩
    cases hg : l.get name with
    | none => rwa [hg] at hm
    | some sub =>
      rw [hg] at hm
      exact Json.plain_of_merge sub value hv hm
end

/-! ### Matching a filter object -/

mutual
/-- As `filter_match` on one pair: two objects match recursively, other values by equality. -/
def Json.matches (predicate value : Json) : Bool :=
  match predicate with
  | .obj p =>
    match value with
    | .obj f => p.matches f
    | _ => false
  | _ => decide (value = predicate)
/-- As `filter_match`: a field that the row lacks makes it fail. -/
def Fields.matches (predicate row : Fields) : Bool :=
  match predicate with
  | .nil => true
  | .cons name value rest =>
    (match row.get name with
      | none => false
      | some elt => value.matches elt) && rest.matches row
end

lemma Json.matches_scalar {predicate value : Json} (h : predicate.isScalar = true) :
    predicate.matches value = true ↔ value = predicate := by
  cases predicate <;> simp_all [Json.isScalar, Json.matches]

@[simp] lemma Fields.matches_nil (row : Fields) : Fields.nil.matches row = true := by
  rw [Fields.matches]

lemma Fields.matches_cons {name : String} {value : Json} {rest row : Fields} :
    (Fields.cons name value rest).matches row = true ↔
      (∃ elt, row.get name = some elt ∧ value.matches elt = true) ∧ rest.matches row = true := by
  rw [Fields.matches]
  cases row.get name <;> simp

lemma Fields.matches_one {name : String} {value : Json} (h : value.isScalar = true) {row : Fields} :
    (Fields.cons name value .nil).matches row = true ↔ row.get name = some value := by
  rw [Fields.matches_cons]
  constructor
  · rintro ⟨⟨elt, helt, hm⟩, -⟩
    rwa [(Json.matches_scalar h).mp hm] at helt
  · intro hget
    exact ⟨⟨_, hget, (Json.matches_scalar h).mpr rfl⟩, Fields.matches_nil _⟩

mutual
theorem Json.matches_self (v : Json) (h : v.sorted = true) : v.matches v = true := by
  match v with
  | .obj fields =>
    rw [Json.matches]
    exact Fields.matches_of_get fields fields h fun _ _ hget => hget
  | .null | .bool _ | .num _ | .str _ | .arr _ => simp [Json.matches]
theorem Fields.matches_of_get (predicate row : Fields) (h : predicate.sorted = true)
    (hget : ∀ k v, predicate.get k = some v → row.get k = some v) :
    predicate.matches row = true := by
  match predicate with
  | .nil => exact Fields.matches_nil row
  | .cons name value rest =>
    obtain ⟨hvalue, hafter, hrest⟩ := Fields.sorted_cons.mp h
    refine Fields.matches_cons.mpr ⟨⟨value, ?_, Json.matches_self value hvalue⟩, ?_⟩
    · exact hget name value (by rw [Fields.get_cons, if_pos rfl])
    · refine Fields.matches_of_get rest row hrest fun k v hk => hget k v ?_
      have hne : k ≠ name := by
        rintro rfl
        rw [Fields.get_of_after hrest hafter] at hk
        cases hk
      rw [Fields.get_cons, if_neg hne, hk]
end

end PersonnelBackend.Document
