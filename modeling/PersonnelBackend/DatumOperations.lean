import Mathlib.Tactic.Linarith
import PersonnelBackend.StoredDocuments

/-! Merging and comparing values (`datum.cc`). Both read their arguments through
the same accessors whether these are in memory or in a buffer, and both look for
the field of the pseudotypes in every object they meet. On values without it a
merge is the merge of the documents, and two values compare as equal exactly if
they are the same JSON value. -/
namespace PersonnelBackend.Datums
open Document Database Packed

/-! ### Pseudotypes -/

inductive ReqlError
  | sanityCheck
  | reqlTypeNotString (value : Datum)
  | noAttribute (value : Datum) (key : List UInt8)
  | incomparable (value : Datum)
  | pseudotype (message : String)
  | cannotMerge (value : Datum)
  | badPrimaryKey (value : Datum)
  | nullByte (value : List UInt8) (offset : ℕ)
  | primaryKeyTooLong (value : Datum)
  | missingPrimaryKey (row : Datum)
  | primaryKeyChanged (old new : Datum)
  | primaryKeyDiffers (old new : Datum)
  | notAnObject (row : Datum)
  | duplicatePrimaryKey (old new : Datum)
  | arrayTooLarge (row : Datum)
  | extremaPresent (row : Datum)

abbrev Eval (α : Type) := ExceptT ReqlError Option α

def guaranteed {α : Type} (o : Option α) : Eval α := ExceptT.mk (o.map Except.ok)

@[simp] lemma guaranteed_some {α : Type} (a : α) : guaranteed (some a) = pure a := rfl

def reqlTypeString : List UInt8 := utf8 "$reql_type$"
def literalString : List UInt8 := utf8 "LITERAL"
def valueKey : List UInt8 := utf8 "value"
def binaryString : List UInt8 := utf8 "BINARY"
def timeString : List UInt8 := utf8 "TIME"
def epochTimeKey : List UInt8 := utf8 "epoch_time"
def geometryString : List UInt8 := utf8 "GEOMETRY"

namespace Datum

def isArray : Datum → Bool
  | .array _ => true
  | .bufArray _ => true
  | _ => false

def has : Datum → Bool
  | .scalar .uninitialized => false
  | _ => true

def isBinary : Datum → Bool
  | .scalar (.binary _) => true
  | _ => false

def isPtype (v : Datum) : Eval Bool :=
  if v.isBinary then pure true
  else if v.isObject then do
    let field ← guaranteed (v.getField reqlTypeString)
    pure field.isSome
  else pure false

def getReqlType (v : Datum) : Eval (List UInt8) :=
  if v.isBinary then pure binaryString
  else do
    match ← guaranteed (v.getField reqlTypeString) with
    | none => throw .sanityCheck
    | some (.scalar (.str s)) => pure s
    | some _ => throw (.reqlTypeNotString v)

def isPtypeNamed (v : Datum) (reqlType : List UInt8) : Eval Bool := do
  if ← v.isPtype then
    let type ← v.getReqlType
    pure (decide (type = reqlType))
  else pure false

end Datum

/-! ### Building objects -/

abbrev ObjectBuilder := Std.TreeMap (List UInt8) Datum (List.compareLex compare)

namespace ObjectBuilder

def copyFrom (v : Datum) : Eval ObjectBuilder := do
  let pairs ← guaranteed v.pairs
  pure (pairs.foldl (fun map pair => map.insertIfNew pair.1 pair.2) ∅)

def addNew (map : ObjectBuilder) (key : List UInt8) (val : Datum) : Eval ObjectBuilder :=
  if map.contains key then throw .sanityCheck else pure (map.insert key val)

-- what `maybe_sanitize_ptype` makes of an object that is a pseudotype
variable (sanitize : Datum → Eval Datum)

def toDatum (map : ObjectBuilder) : Eval Datum := do
  let v := Datum.object map.toList
  if ← v.isPtype then sanitize v else pure v

end ObjectBuilder

section merge

variable (sanitize : Datum → Eval Datum)

/-! ### Merging -/

/-- What becomes of the fields of an object, each with the value that is left of it
and whether there was a literal in it. -/
def copyPairs (dropped : List (List UInt8 × Datum × Bool)) : Eval Datum := do
  let map ← (dropped.filter fun pair => pair.2.1.has).foldlM
    (fun (map : ObjectBuilder) pair => map.addNew pair.1 pair.2.1) ∅
  map.toDatum sanitize

/-- The method `drop_literals`, with the flag it sets. An element is left as it is
unless there is a literal in it, so that the elements before the first literal are
copied unchanged. -/
def dropLiterals : ℕ → Datum → Eval (Datum × Bool)
  | 0, _ => none
  | fuel + 1, v => do
    if ← v.isPtypeNamed literalString then
      match ← guaranteed (v.getField valueKey) with
      | none => pure (.scalar .uninitialized, true)
      | some val =>
        let (val, encountered) ← dropLiterals fuel val
        if encountered then throw .sanityCheck else pure (val, true)
    else if v.isObject then
      let pairs ← guaranteed v.pairs
      let dropped ← pairs.mapM fun pair => do
        let val ← dropLiterals fuel pair.2
        pure (pair.1, val)
      if dropped.any fun pair => pair.2.2 then
        let copied ← copyPairs sanitize dropped
        pure (copied, true)
      else pure (v, false)
    else if v.isArray then
      let items ← guaranteed v.items
      let dropped ← items.mapM (dropLiterals fuel)
      if dropped.any fun item => item.2 then
        pure (.array ((dropped.filter fun item => item.1.has).map Prod.fst), true)
      else pure (v, false)
    else pure (v, false)

/-- One round of the loop over the fields of the right-hand object. A literal
replaces what is there, or removes it. -/
def mergePair (merge : Datum → Datum → Eval Datum) (drop : Datum → Eval (Datum × Bool))
    (d : ObjectBuilder) (pair : List UInt8 × Datum) : Eval ObjectBuilder := do
  let subLhs := d[pair.1]?
  let isLiteral ← pair.2.isPtypeNamed literalString
  match pair.2.isObject && !isLiteral, subLhs with
  | true, some subLhs =>
    let merged ← merge subLhs pair.2
    pure (d.insert pair.1 merged)
  | _, _ =>
    let val ← if isLiteral then do
        let field ← guaranteed (pair.2.getField valueKey)
        pure (field.getD (.scalar .uninitialized))
      else pure pair.2
    let (val, encountered) ← if val.has then drop val else pure (val, false)
    if encountered && isLiteral then throw .sanityCheck
    else if val.has then pure (d.insert pair.1 val)
    else if isLiteral then pure (d.erase pair.1)
    else throw .sanityCheck

def mergeWith : ℕ → Datum → Datum → Eval Datum
  | 0, _, _ => none
  | fuel + 1, lhs, rhs =>
    if lhs.isObject && rhs.isObject then do
      let d ← ObjectBuilder.copyFrom lhs
      let pairs ← guaranteed rhs.pairs
      let d ← pairs.foldlM (mergePair (mergeWith fuel) (dropLiterals sanitize fuel)) d
      d.toDatum sanitize
    else do
      let (val, _) ← dropLiterals sanitize (fuel + 1) rhs
      pure val

end merge

/-! ### Comparing -/

namespace Datum

def type : Datum → ℕ
  | .scalar .uninitialized => 0
  | .scalar .minval => 1
  | .array _ => 2
  | .bufArray _ => 2
  | .scalar (.binary _) => 3
  | .scalar (.bool _) => 4
  | .scalar .null => 5
  | .scalar (.num _) => 6
  | .object _ => 7
  | .bufObject _ => 7
  | .scalar (.str _) => 8
  | .scalar .maxval => 9

def rawTypeName : Datum → Option (List UInt8)
  | .scalar .uninitialized => none
  | .scalar .minval => some (0x01 :: utf8 "MINVAL")
  | .array _ => some (utf8 "ARRAY")
  | .bufArray _ => some (utf8 "ARRAY")
  | .scalar (.binary _) => some (utf8 "PTYPE<BINARY>")
  | .scalar (.bool _) => some (utf8 "BOOL")
  | .scalar .null => some (utf8 "NULL")
  | .scalar (.num _) => some (utf8 "NUMBER")
  | .object _ => some (utf8 "OBJECT")
  | .bufObject _ => some (utf8 "OBJECT")
  | .scalar (.str _) => some (utf8 "STRING")
  | .scalar .maxval => some (0xFF :: utf8 "MAXVAL")

def getTypeName (v : Datum) : Eval (List UInt8) := do
  if ← v.isPtype then
    let type ← v.getReqlType
    pure (utf8 "PTYPE<" ++ type ++ utf8 ">")
  else guaranteed v.rawTypeName

/-- Geometry is compared by its object representation. -/
def comparesAsPtype (v : Datum) : Eval Bool := do
  if ← v.isPtype then
    let type ← v.getReqlType
    pure (decide (type ≠ geometryString))
  else pure false

def getFieldThrow (v : Datum) (key : List UInt8) : Eval Datum := do
  match ← guaranteed (v.getField key) with
  | some field => pure field
  | none => throw (.noAttribute v key)

end Datum

def cmpScalars : Scalar → Scalar → Option Ordering
  | .null, .null => some .eq
  | .minval, .minval => some .eq
  | .maxval, .maxval => some .eq
  | .bool a, .bool b => some (compare a b)
  | .num a, .num b => some (compare a.value b.value)
  | .str a, .str b => some (List.compareLex compare a b)
  | _, _ => none

section cmp

variable (cmp : Datum → Datum → Eval Ordering)

/-- The loop over two arrays: the first difference decides, then the length. -/
def cmpItems : List Datum → List Datum → Eval Ordering
  | [], [] => pure .eq
  | [], _ :: _ => pure .lt
  | _ :: _, [] => pure .gt
  | a :: as, b :: bs => do
    let cmpval ← cmp a b
    if cmpval = .eq then cmpItems as bs else pure cmpval

/-- The loop over two objects: the first difference in a name or a value decides. -/
def cmpPairs : List (List UInt8 × Datum) → List (List UInt8 × Datum) → Eval Ordering
  | [], [] => pure .eq
  | [], _ :: _ => pure .lt
  | _ :: _, [] => pure .gt
  | a :: as, b :: bs =>
    let keyCmpval := List.compareLex compare a.1 b.1
    if keyCmpval = .eq then do
      let valCmpval ← cmp a.2 b.2
      if valCmpval = .eq then cmpPairs as bs else pure valCmpval
    else pure keyCmpval

/-- Two pseudotypes: their names decide, then `pseudo_cmp`. -/
def cmpPtypes (v w : Datum) : Eval Ordering := do
  let a ← v.getReqlType
  let b ← w.getReqlType
  if a ≠ b then pure (List.compareLex compare a b)
  else
    match v, w with
    | .scalar (.binary s), .scalar (.binary t) => pure (List.compareLex compare s t)
    | _, _ =>
      if a = timeString then
        let x ← v.getFieldThrow epochTimeKey
        let y ← w.getFieldThrow epochTimeKey
        cmp x y
      else throw (.incomparable v)

def cmpSameType (v w : Datum) : Eval Ordering :=
  match v, w with
  | .scalar s, .scalar t => guaranteed (cmpScalars s t)
  | _, _ =>
    if v.isObject then do
      let as ← guaranteed v.pairs
      let bs ← guaranteed w.pairs
      cmpPairs cmp as bs
    else do
      let as ← guaranteed v.items
      let bs ← guaranteed w.items
      cmpItems cmp as bs

end cmp

def cmpWith : ℕ → Datum → Datum → Eval Ordering
  | 0, _, _ => none
  | fuel + 1, v, w => do
    let lhsPtype ← v.comparesAsPtype
    let rhsPtype ← w.comparesAsPtype
    if lhsPtype && rhsPtype then cmpPtypes (cmpWith fuel) v w
    else if lhsPtype || rhsPtype then
      let a ← v.getTypeName
      let b ← w.getTypeName
      pure (List.compareLex compare a b)
    else if v.type ≠ w.type then pure (compare v.type w.type)
    else cmpSameType (cmpWith fuel) v w

/-! ### How deep a datum is nested -/

mutual
/-- A bound on the levels of a datum: in a buffer each of them takes a byte. -/
def Datum.nesting : Datum → ℕ
  | .scalar _ => 1
  | .array items => nestingItems items + 1
  | .object pairs => nestingPairs pairs + 1
  | .bufArray buf => buf.length + 1
  | .bufObject buf => buf.length + 1
def nestingItems : List Datum → ℕ
  | [] => 0
  | item :: items => max item.nesting (nestingItems items)
def nestingPairs : List (List UInt8 × Datum) → ℕ
  | [] => 0
  | (_, value) :: pairs => max value.nesting (nestingPairs pairs)
end

def merge (sanitize : Datum → Eval Datum) (lhs rhs : Datum) : Eval Datum :=
  mergeWith sanitize rhs.nesting lhs rhs

def cmp (v w : Datum) : Eval Ordering := cmpWith v.nesting v w

lemma nesting_le_items {items : List Datum} {item : Datum} (h : item ∈ items) :
    item.nesting ≤ nestingItems items := by
  induction items with
  | nil => cases h
  | cons first rest ih =>
    rw [nestingItems]
    rcases List.mem_cons.mp h with rfl | h
    · exact le_max_left _ _
    · exact (ih h).trans (le_max_right _ _)

lemma nesting_le_pairs {pairs : List (List UInt8 × Datum)} {pair : List UInt8 × Datum}
    (h : pair ∈ pairs) :
    pair.2.nesting ≤ nestingPairs pairs := by
  induction pairs with
  | nil => cases h
  | cons first rest ih =>
    rw [nestingPairs]
    rcases List.mem_cons.mp h with rfl | h
    · exact le_max_left _ _
    · exact (ih h).trans (le_max_right _ _)

namespace Value

lemma depth_le_of_members {d : Value} (hd : ∀ s, d ≠ .scalar s) {bound : ℕ}
    (h : ∀ member ∈ d.members, member.2.depth ≤ bound) : d.depth ≤ bound + 1 := by
  rw [depth_node hd]
  generalize d.members = members at h
  induction members with
  | nil => exact Nat.succ_le_succ (Nat.zero_le bound)
  | cons first rest ih =>
    have hfirst := h first List.mem_cons_self
    have hrest := ih fun member hm => h member (List.mem_cons_of_mem _ hm)
    rw [List.map_cons, List.foldr_cons]
    omega

lemma part_le_pack {parts : List (List UInt8)} {part : List UInt8} (h : part ∈ parts) :
    part.length ≤ (pack parts).length := by
  have hflat : part.length ≤ parts.flatten.length := by
    rw [List.length_flatten]
    exact List.single_le_sum (by simp) _ (List.mem_map_of_mem h)
  rw [pack, packBody, List.length_append, List.length_append, List.length_append]
  omega

lemma depth_le_length (d : Value) : d.depth ≤ d.encode.length := by
  induction d using Value.induct with
  | scalar s =>
    rw [encode_scalar]
    cases s <;> first | exact Nat.succ_le_succ (Nat.zero_le _) | skip
    rw [Scalar.serialize]
    split <;> exact Nat.succ_le_succ (Nat.zero_le _)
  | node d hd ih =>
    rw [encode_node hd, List.length_cons]
    refine depth_le_of_members hd fun member hm => (ih member hm).trans ?_
    have hpart := part_le_pack
      (List.mem_map_of_mem (f := fun member => encodeMember (member.1, encode member.2)) hm)
    rw [encodeMember, List.length_append] at hpart
    exact (Nat.le_add_left _ _).trans hpart

lemma depth_le_pack {d : Value} (hd : ∀ s, d ≠ .scalar s) :
    d.depth ≤ (pack d.parts).length + 1 := by
  have h := d.depth_le_length
  rwa [encode_node hd, List.length_cons] at h

end Value

lemma Represents.depth_le {v : Datum} {d : Value} (h : Represents v d) : d.depth ≤ v.nesting := by
  induction h with
  | scalar s => exact le_rfl
  | @array items values size each ih =>
    rw [Datum.nesting]
    refine Value.depth_le_of_members (by simp) (List.forall_mem_map.mpr fun value hvalue => ?_)
    obtain ⟨i, hi, rfl⟩ := List.mem_iff_getElem.mp hvalue
    exact (ih i (by omega) hi).trans (nesting_le_items (List.getElem_mem _))
  | @object pairs fields keys each ih =>
    have hlen : pairs.length = fields.length := by simpa using congrArg List.length keys
    rw [Datum.nesting]
    refine Value.depth_le_of_members (by simp) (List.forall_mem_map.mpr fun field hfield => ?_)
    obtain ⟨i, hi, rfl⟩ := List.mem_iff_getElem.mp hfield
    exact (ih i (by omega) hi).trans (nesting_le_pairs (List.getElem_mem _))
  | @bufArray buf values hbuf fits =>
    have hdepth := Value.depth_le_pack (d := .array values) (by simp)
    have hle := hbuf.length_le
    rw [Datum.nesting]
    omega
  | @bufObject buf fields hbuf fits =>
    have hdepth := Value.depth_le_pack (d := .object fields) (by simp)
    have hle := hbuf.length_le
    rw [Datum.nesting]
    omega

/-! ### Values without pseudotypes -/

section plain

variable {v : Datum} {j : Json} (h : Denotes v j) (hs : j.sorted = true) (hp : j.plain = true)
include h hs hp

lemma Denotes.isPtype : v.isPtype = pure false := by
  have hbinary : v.isBinary = false := by
    obtain ⟨d, hv, hj⟩ := h
    cases hj <;> cases hv <;> rfl
  rw [Datum.isPtype, hbinary]
  by_cases hobject : v.isObject = true
  · obtain ⟨fields, rfl⟩ := h.isObject.mp hobject
    rw [Json.sorted] at hs
    rw [Json.plain] at hp
    obtain ⟨o, hget, hrel⟩ := h.getField hs "$reql_type$"
    have hnone : fields.get "$reql_type$" = none := by
      cases hfield : fields.get "$reql_type$" with
      | none => rfl
      | some value =>
        have hmem := (Fields.get_eq_some_iff hs).mp hfield
        exact absurd rfl (Fields.plain_iff.mp hp _ hmem).1
    rw [hnone] at hrel
    cases hrel
    simp [hobject, reqlTypeString, hget]
  · simp [hobject]

lemma Denotes.isPtypeNamed (reqlType : List UInt8) : v.isPtypeNamed reqlType = pure false := by
  rw [Datum.isPtypeNamed, h.isPtype hs hp, pure_bind]
  rfl

lemma Denotes.comparesAsPtype : v.comparesAsPtype = pure false := by
  rw [Datum.comparesAsPtype, h.isPtype hs hp, pure_bind]
  rfl

end plain

lemma Denotes.has {v : Datum} {j : Json} (h : Denotes v j) : v.has = true := by
  obtain ⟨d, hv, hj⟩ := h
  cases hj <;> cases hv <;> rfl

/-- The datum is held for a plain value that is nested at most `n` levels deep. -/
structure Held (n : ℕ) (v : Datum) (j : Json) : Prop where
  value : ∃ d, Represents v d ∧ Stands j d ∧ d.depth ≤ n
  sorted : j.sorted = true
  plain : j.plain = true

lemma Value.depth_pos (d : Value) : 0 < d.depth := by
  cases d with
  | scalar s => exact Nat.one_pos
  | array items =>
    rw [Value.depth_node (by simp)]
    exact Nat.succ_pos _
  | object pairs =>
    rw [Value.depth_node (by simp)]
    exact Nat.succ_pos _

namespace Held

variable {n : ℕ} {v : Datum} {j : Json}

lemma denotes (h : Held n v j) : Denotes v j := by
  obtain ⟨d, hv, hj, -⟩ := h.value
  exact ⟨d, hv, hj⟩

lemma of_denotes (h : Denotes v j) (hs : j.sorted = true) (hp : j.plain = true) :
    Held v.nesting v j := by
  obtain ⟨d, hv, hj⟩ := h
  exact ⟨⟨d, hv, hj, hv.depth_le⟩, hs, hp⟩

lemma not_zero : ¬ Held 0 v j := fun h => by
  obtain ⟨d, -, -, hd⟩ := h.value
  exact absurd d.depth_pos (by omega)

lemma items {items : Items} (h : Held (n + 1) v (.arr items)) :
    ∃ ws, v.items = some ws ∧ List.Forall₂ (Held n) ws items.toList := by
  obtain ⟨d, hv, hj, hd⟩ := h.value
  cases hj with
  | @arr _ values size each =>
    obtain ⟨ws, hws, hrep⟩ := hv.items
    refine ⟨ws, hws, List.forall₂_iff_get.mpr ⟨by rw [hrep.length_eq, size], fun i hi hi' => ?_⟩⟩
    have hi'' : i < values.length := by omega
    have hmem : (none, values[i]) ∈ (Value.array values).members :=
      List.mem_map_of_mem (List.getElem_mem _)
    have hdepth : values[i].depth < (Value.array values).depth := Value.depth_member (by simp) hmem
    exact
      { value := ⟨values[i], (List.forall₂_iff_get.mp hrep).2 i hi hi'', each i hi' hi'', by omega⟩
        sorted := (Items.sorted_iff items).mp h.sorted _ (List.getElem_mem hi')
        plain := (Items.plain_iff items).mp h.plain _ (List.getElem_mem hi') }

lemma pairs {fields : Fields} (h : Held (n + 1) v (.obj fields)) :
    ∃ ps, v.pairs = some ps ∧ List.Forall₂ (fun p f => p.1 = utf8 f.1 ∧
      Held n p.2 f.2) ps fields.toList := by
  obtain ⟨d, hv, hj, hd⟩ := h.value
  cases d with
  | object pairs =>
    have hlen := hj.length_eq
    obtain ⟨ps, hps, hrep⟩ := hv.allPairs
    refine ⟨ps, hps, List.forall₂_iff_get.mpr ⟨by rw [hrep.length_eq, hlen], fun i hi hi' => ?_⟩⟩
    have hi'' : i < pairs.length := by omega
    obtain ⟨hkey, hvalue⟩ := (List.forall₂_iff_get.mp hrep).2 i hi hi''
    have hmem : (some pairs[i].1, pairs[i].2) ∈ (Value.object pairs).members :=
      List.mem_map_of_mem (f := fun pair : List UInt8 × Value => (some pair.1, pair.2))
        (List.getElem_mem _)
    have hdepth : pairs[i].2.depth < (Value.object pairs).depth := Value.depth_member (by simp) hmem
    have hfield := List.getElem_mem hi'
    exact ⟨hkey.trans (hj.key_eq hi' hi'').symm,
      { value := ⟨pairs[i].2, hvalue, hj.field hi' hi'', by omega⟩
        sorted := Fields.get_sorted h.sorted ((Fields.get_eq_some_iff h.sorted).mpr hfield)
        plain := (Fields.plain_iff.mp h.plain _ hfield).2 }⟩
  | _ => cases hj

end Held

lemma Denotes.isArray {v : Datum} {j : Json} (h : Denotes v j) :
    v.isArray = true ↔ ∃ items, j = .arr items := by
  obtain ⟨d, hv, hj⟩ := h
  cases hj with
  | arr size each => cases hv <;> simp [Datum.isArray]
  | _ => cases hv <;> simp [Datum.isArray]

/-! ### Merging documents -/

lemma mapM_pure_of_forall₂ {α β γ : Type} {f : α → Eval β} {g : α → β} {R : α → γ → Prop}
    {l : List α} {l' : List γ} (h : List.Forall₂ R l l') (hf : ∀ a c, R a c → f a = pure (g a)) :
    l.mapM f = pure (l.map g) := by
  induction h with
  | nil => rfl
  | @cons a c l l' hr _ ih =>
    rw [List.mapM_cons, hf a c hr, pure_bind, ih, pure_bind, List.map_cons]

variable (sanitize : Datum → Eval Datum)

lemma dropLiterals_plain {fuel : ℕ} {v : Datum} {j : Json} (h : Held fuel v j) :
    dropLiterals sanitize fuel v = pure (v, false) := by
  induction fuel generalizing v j with
  | zero => exact absurd h Held.not_zero
  | succ fuel ih =>
    rw [dropLiterals, h.denotes.isPtypeNamed h.sorted h.plain, pure_bind]
    by_cases hobject : v.isObject = true
    · obtain ⟨fields, rfl⟩ := h.denotes.isObject.mp hobject
      obtain ⟨ps, hps, hheld⟩ := h.pairs
      have hmap : (ps.mapM fun pair => do
          let val ← dropLiterals sanitize fuel pair.2
          pure (pair.1, val)) = (pure (ps.map fun pair => (pair.1, pair.2, false)) : Eval _) :=
        mapM_pure_of_forall₂ hheld fun p f hp => by rw [ih hp.2, pure_bind]
      simp only [hobject, hps, guaranteed_some, pure_bind, hmap]
      simp
    · by_cases harray : v.isArray = true
      · obtain ⟨items, rfl⟩ := h.denotes.isArray.mp harray
        obtain ⟨ws, hws, hheld⟩ := h.items
        have hmap : ws.mapM (dropLiterals sanitize fuel) = pure (ws.map fun w => (w, false)) :=
          mapM_pure_of_forall₂ hheld fun w j hw => ih hw
        simp only [hobject, harray, hws, guaranteed_some, pure_bind, hmap]
        simp
      · simp [hobject, harray]

/-! ### What is in a builder -/

section ordered

variable {α β κ : Type} {cmp : κ → κ → Ordering} [Std.TransCmp cmp] {R : α → β → Prop}
  (key : α → κ) {key' : β → κ}

variable (cmp) in
lemma cmp_self_ne_lt (k : κ) : cmp k k ≠ .lt := by
  have hself : cmp k k = .eq := Std.ReflCmp.compare_self
  simp [hself]

lemma first_keys_eq {a : α} {b : β} {l : List α} {l' : List β}
    (hl : ∀ x ∈ l, cmp (key a) (key x) = .lt) (hl' : ∀ y ∈ l', cmp (key' b) (key' y) = .lt)
    (h : ∃ y ∈ b :: l', key a = key' y) (h' : ∃ x ∈ a :: l, key x = key' b) :
    key a = key' b := by
  -- the first elements have the least keys of their lists
  obtain ⟨y, hy, hay⟩ := h
  obtain ⟨x, hx, hxb⟩ := h'
  rcases List.mem_cons.mp hy with rfl | hy
  · exact hay
  · rcases List.mem_cons.mp hx with rfl | hx
    · exact hxb
    · have h1 := hl x hx
      have h2 := hl' y hy
      rw [hxb, hay] at h1
      exact absurd (Std.TransCmp.lt_trans h1 h2) (cmp_self_ne_lt cmp _)

lemma forall₂_of_ordered {l : List α} {l' : List β}
    (hl : l.Pairwise fun a b => cmp (key a) (key b) = .lt)
    (hl' : l'.Pairwise fun a b => cmp (key' a) (key' b) = .lt)
    (h : ∀ a ∈ l, ∃ b ∈ l', key a = key' b ∧ R a b) (h' : ∀ b ∈ l', ∃ a ∈ l, key a = key' b) :
    List.Forall₂ R l l' := by
  induction l generalizing l' with
  | nil =>
    cases l' with
    | nil => exact .nil
    | cons b l' => exact absurd (h' b List.mem_cons_self) (by simp)
  | cons a l ih =>
    cases l' with
    | nil => exact absurd (h a List.mem_cons_self) (by simp)
    | cons b l' =>
      rw [List.pairwise_cons] at hl hl'
      obtain ⟨b₀, hb₀, hab₀, hr₀⟩ := h a List.mem_cons_self
      have hfirst : key a = key' b :=
        first_keys_eq key hl.1 hl'.1 ⟨b₀, hb₀, hab₀⟩ (h' b List.mem_cons_self)
      have hnot : ∀ y ∈ l', key a ≠ key' y := fun y hy hay =>
        cmp_self_ne_lt cmp (key' y) (by simpa [← hfirst, hay] using hl'.1 y hy)
      have hrel : R a b := by
        rcases List.mem_cons.mp hb₀ with rfl | hb₀
        · exact hr₀
        · exact absurd hab₀ (hnot b₀ hb₀)
      refine .cons hrel (ih hl.2 hl'.2 (fun a' ha' => ?_) fun b' hb' => ?_)
      · obtain ⟨b', hb', hab, hr⟩ := h a' (List.mem_cons_of_mem _ ha')
        rcases List.mem_cons.mp hb' with rfl | hb'
        · have h1 := hl.1 a' ha'
          rw [hfirst, hab] at h1
          exact absurd h1 (cmp_self_ne_lt cmp _)
        · exact ⟨b', hb', hab, hr⟩
      · obtain ⟨a', ha', hab⟩ := h' b' (List.mem_cons_of_mem _ hb')
        rcases List.mem_cons.mp ha' with rfl | ha'
        · exact absurd hab (hnot b' hb')
        · exact ⟨a', ha', hab⟩

end ordered

/-- The builder has, under the bytes of each name, what the object has under the
name, and nothing else. -/
structure Builds (map : ObjectBuilder) (f : String → Option Json) : Prop where
  field : ∀ name, Option.Rel Denotes map[utf8 name]? (f name)
  name : ∀ key ∈ map, ∃ name, key = utf8 name

namespace Builds

variable {map : ObjectBuilder} {f : String → Option Json} {k : String} {v : Datum} {j : Json}

lemma empty : Builds ∅ fun _ => none where
  field name := by
    rw [Std.TreeMap.getElem?_emptyc]
    exact .none
  name key h := absurd h Std.TreeMap.not_mem_emptyc

lemma cmp_utf8 {s t : String} : List.compareLex compare (utf8 s) (utf8 t) = .eq ↔ t = s := by
  rw [Std.LawfulEqCmp.compare_eq_iff_eq, PrimaryKeys.utf8_inj, eq_comm]

lemma insert (h : Builds map f) (hv : Denotes v j) :
    Builds (map.insert (utf8 k) v) fun name => if name = k then some j else f name where
  field name := by
    rw [Std.TreeMap.getElem?_insert]
    by_cases hk : name = k
    · rw [if_pos (cmp_utf8.mpr hk), if_pos hk]
      exact .some hv
    · rw [if_neg (mt cmp_utf8.mp hk), if_neg hk]
      exact h.field name
  name key hkey := by
    rcases Std.TreeMap.mem_insert.mp hkey with heq | hmem
    · exact ⟨k, (Std.LawfulEqCmp.compare_eq_iff_eq.mp heq).symm⟩
    · exact h.name key hmem

lemma mem_iff (h : Builds map f) : utf8 k ∈ map ↔ (f k).isSome = true := by
  rw [Std.TreeMap.mem_iff_isSome_getElem?]
  have hrel := h.field k
  cases hmap : map[utf8 k]? with
  | none =>
    rw [hmap] at hrel
    cases hf : f k with
    | none => rfl
    | some value =>
      rw [hf] at hrel
      cases hrel
  | some v =>
    rw [hmap] at hrel
    cases hf : f k with
    | none =>
      rw [hf] at hrel
      cases hrel
    | some value => rfl

lemma insertIfNew (h : Builds map f) (hv : Denotes v j) :
    Builds (map.insertIfNew (utf8 k) v)
      fun name => (f name).or (if name = k then some j else none) where
  field name := by
    rw [Std.TreeMap.getElem?_insertIfNew]
    by_cases hk : name = k
    · subst hk
      cases hf : f name with
      | none =>
        rw [if_pos ⟨cmp_utf8.mpr rfl, by simp [h.mem_iff, hf]⟩, if_pos rfl]
        exact .some hv
      | some value =>
        rw [if_neg (by simp [h.mem_iff, hf]), Option.some_or, ← hf]
        exact h.field name
    · rw [if_neg fun hand => hk (cmp_utf8.mp hand.1), if_neg hk, Option.or_none]
      exact h.field name
  name key hkey := by
    rcases Std.TreeMap.mem_insertIfNew.mp hkey with heq | hmem
    · exact ⟨k, (Std.LawfulEqCmp.compare_eq_iff_eq.mp heq).symm⟩
    · exact h.name key hmem

lemma foldl {pairs : List (List UInt8 × Datum)} {fields : Fields}
    (hp : List.Forall₂ FieldOf pairs fields.toList) (h : Builds map f) :
    Builds (pairs.foldl (fun map pair => map.insertIfNew pair.1 pair.2) map) fun name =>
      (f name).or (fields.get name) := by
  induction fields generalizing pairs map f with
  | nil =>
    cases hp
    simpa using h
  | cons name value rest ih =>
    cases hp with
    | @cons pair _ ps _ hpair hrest =>
      have hnext := ih hrest (h.insertIfNew (k := name) hpair.value)
      rw [List.foldl_cons, hpair.key]
      convert hnext using 2 with other
      rw [Option.or_assoc, Fields.get_cons]
      congr 1
      split_ifs <;> rfl

lemma toList {fields : Fields} (h : Builds map fields.get) (hs : fields.sorted = true) :
    List.Forall₂ FieldOf map.toList fields.toList := by
  have hsorted : fields.toList.Pairwise fun p q =>
      List.compareLex compare (utf8 p.1) (utf8 q.1) = .lt :=
    (Fields.toList_pairwise hs).imp Utf8Order.compareLex_utf8
  refine forall₂_of_ordered Prod.fst Std.TreeMap.ordered_keys_toList hsorted ?_ ?_
  · rintro ⟨key, v⟩ hmem
    have hget := Std.TreeMap.mem_toList_iff_getElem?_eq_some.mp hmem
    obtain ⟨name, rfl⟩ := h.name key (Std.TreeMap.mem_iff_isSome_getElem?.mpr (by rw [hget]; rfl))
    have hrel := h.field name
    rw [hget] at hrel
    cases hf : fields.get name with
    | none =>
      rw [hf] at hrel
      cases hrel
    | some value =>
      rw [hf] at hrel
      cases hrel with
      | some hv => exact ⟨(name, value), (Fields.get_eq_some_iff hs).mp hf, rfl, rfl, hv⟩
  · rintro ⟨name, value⟩ hmem
    have hrel := h.field name
    rw [(Fields.get_eq_some_iff hs).mpr hmem] at hrel
    cases hget : map[utf8 name]? with
    | none =>
      rw [hget] at hrel
      cases hrel
    | some v => exact ⟨(utf8 name, v), Std.TreeMap.mem_toList_iff_getElem?_eq_some.mpr hget, rfl⟩

lemma toDatum {fields : Fields} (h : Builds map fields.get) (hs : fields.sorted = true)
    (hp : fields.plain = true) :
    ∃ u, map.toDatum sanitize = pure u ∧ Denotes u (.obj fields) := by
  have hu : Denotes (.object map.toList) (.obj fields) := Denotes.object (h.toList hs)
  refine ⟨_, ?_, hu⟩
  rw [ObjectBuilder.toDatum, hu.isPtype hs hp, pure_bind]
  rfl

end Builds

lemma copyFrom_builds {v : Datum} {fields : Fields} (h : Denotes v (.obj fields)) :
    ∃ map, ObjectBuilder.copyFrom v = pure map ∧ Builds map fields.get := by
  obtain ⟨ps, hps, hfields⟩ := h.pairs
  refine ⟨_, ?_, by simpa using Builds.foldl hfields Builds.empty⟩
  rw [ObjectBuilder.copyFrom, hps, guaranteed_some, pure_bind]

lemma Json.merge_of_not_obj (lhs : Json) {v : Json} (h : ∀ fields, v ≠ .obj fields) :
    lhs.merge v = v := by
  cases v with
  | obj fields => exact absurd rfl (h fields)
  | _ => rfl

section loop

variable (merge : Datum → Datum → Eval Datum) (drop : Datum → Eval (Datum × Bool))

structure Mergeable (pair : List UInt8 × Datum) (field : String × Json) : Prop
    extends FieldOf pair field where
  drop : drop pair.2 = pure (pair.2, false)
  merge : ∀ sub subJson, Denotes sub subJson → subJson.sorted = true → subJson.plain = true →
    ∃ u, merge sub pair.2 = pure u ∧ Denotes u (subJson.merge field.2)

variable {merge drop}

lemma mergePair_builds {map : ObjectBuilder} {l : Fields} {pair : List UInt8 × Datum}
    {name : String} {value : Json} (h : Mergeable merge drop pair (name, value))
    (hb : Builds map l.get) (hls : l.sorted = true) (hlp : l.plain = true)
    (hs : value.sorted = true) (hp : value.plain = true) :
    ∃ map', mergePair merge drop map pair = pure map' ∧
      Builds map' (l.overwrite name (mergeField (l.get name) value)).get := by
  -- one round of the loop is one round of the merge of the documents
  have hnext : ∀ u, Denotes u (mergeField (l.get name) value) →
      Builds (map.insert pair.1 u) (l.overwrite name (mergeField (l.get name) value)).get :=
        fun u hu => by
    rw [h.key]
    convert hb.insert (k := name) hu using 1
    exact funext fun n => Fields.get_overwrite l name n _
  have hrel := hb.field name
  rw [← show pair.1 = utf8 name from h.key] at hrel
  rw [mergePair, h.value.isPtypeNamed hs hp, pure_bind]
  by_cases hobject : pair.2.isObject = true
  · cases hget : map[pair.1]? with
    | none =>
      rw [hget] at hrel
      cases hl : l.get name with
      | none =>
        rw [hl] at hnext
        exact ⟨_, by simp [hobject, h.value.has, h.drop], hnext pair.2 h.value⟩
      | some sub =>
        rw [hl] at hrel
        cases hrel
    | some sub =>
      rw [hget] at hrel
      cases hl : l.get name with
      | none =>
        rw [hl] at hrel
        cases hrel
      | some subJson =>
        rw [hl] at hrel hnext
        cases hrel with
        | some hsub =>
          obtain ⟨u, hmerge, hu⟩ := h.merge sub subJson hsub (Fields.get_sorted hls hl)
            (Fields.get_plain hlp hl).2
          exact ⟨_, by simp [hobject, hmerge], hnext u hu⟩
  · have hnot : ∀ fields, value ≠ .obj fields :=
      fun fields hv => hobject (h.value.isObject.mpr ⟨fields, hv⟩)
    have hfield : mergeField (l.get name) value = value := by
      cases l.get name with
      | none => rfl
      | some sub => exact Json.merge_of_not_obj sub hnot
    rw [hfield] at hnext ⊢
    exact ⟨_, by simp [hobject, h.value.has, h.drop], hnext pair.2 h.value⟩

lemma foldlM_mergePair {map : ObjectBuilder} {l r : Fields} {pairs : List (List UInt8 × Datum)}
    (h : List.Forall₂ (Mergeable merge drop) pairs r.toList) (hb : Builds map l.get)
    (hls : l.sorted = true) (hlp : l.plain = true) (hrs : r.sorted = true) (hrp : r.plain = true) :
    ∃ map', pairs.foldlM (mergePair merge drop) map = pure map' ∧ Builds map' (l.merge r).get := by
  induction r generalizing pairs map l with
  | nil =>
    cases h
    exact ⟨map, rfl, by simpa [Fields.merge] using hb⟩
  | cons name value rest ih =>
    cases h with
    | @cons pair _ ps _ hpair hrest =>
      obtain ⟨hvs, -, hrs'⟩ := Fields.sorted_cons.mp hrs
      simp only [Fields.plain, Bool.and_eq_true, bne_iff_ne] at hrp
      obtain ⟨map', hstep, hb'⟩ := mergePair_builds hpair hb hls hlp hvs hrp.1.2
      have hfield := mergeField_sorted_plain hls hlp name hvs hrp.1.2
      obtain ⟨map'', hloop, hb''⟩ := ih hrest hb' (Fields.overwrite_sorted hfield.1 hls)
        (Fields.overwrite_plain hrp.1.1 hfield.2 hlp) hrs' hrp.2
      refine ⟨map'', ?_, by rwa [Fields.merge_cons]⟩
      rw [List.foldlM_cons, hstep, pure_bind, hloop]

end loop

lemma mergeWith_denotes {fuel : ℕ} {v w : Datum} {l r : Json} (hv : Denotes v l)
    (hls : l.sorted = true) (hlp : l.plain = true) (hw : Held fuel w r) :
    ∃ u, mergeWith sanitize fuel v w = pure u ∧ Denotes u (l.merge r) := by
  -- whatever the forms of the two values, merging them is merging the JSON values
  induction fuel generalizing v w l r with
  | zero => exact absurd hw Held.not_zero
  | succ fuel ih =>
    rw [mergeWith]
    by_cases hobject : v.isObject = true ∧ w.isObject = true
    · obtain ⟨lf, rfl⟩ := hv.isObject.mp hobject.1
      obtain ⟨rf, rfl⟩ := hw.denotes.isObject.mp hobject.2
      obtain ⟨ps, hps, hheld⟩ := hw.pairs
      have hmergeable : List.Forall₂ (Mergeable (mergeWith sanitize fuel)
          (dropLiterals sanitize fuel)) ps rf.toList :=
        hheld.imp fun p f hp =>
          { key := hp.1
            value := hp.2.denotes
            drop := dropLiterals_plain sanitize hp.2
            merge := fun sub subJson hsub hss hsp => ih hsub hss hsp hp.2 }
      obtain ⟨map, hcopy, hb⟩ := copyFrom_builds hv
      obtain ⟨map', hloop, hb'⟩ := foldlM_mergePair hmergeable hb hls hlp hw.sorted hw.plain
      obtain ⟨u, hu, hdenotes⟩ := hb'.toDatum sanitize (Fields.merge_sorted lf rf hls hw.sorted)
        (Fields.merge_plain lf rf hlp hw.plain)
      refine ⟨u, ?_, hdenotes⟩
      rw [hobject.1, hobject.2, Bool.and_self, if_pos rfl, hcopy, pure_bind, hps, guaranteed_some,
        pure_bind, hloop, pure_bind, hu]
    · refine ⟨w, ?_, ?_⟩
      · rw [if_neg (by simpa using hobject), dropLiterals_plain sanitize hw, pure_bind]
      · have hmerge : l.merge r = r := by
          cases r with
          | obj rf =>
            cases l with
            | obj lf =>
              exact absurd ⟨hv.isObject.mpr ⟨lf, rfl⟩, hw.denotes.isObject.mpr ⟨rf, rfl⟩⟩ hobject
            | _ => rfl
          | _ => rfl
        rw [hmerge]
        exact hw.denotes

/-! ### Comparing documents -/

/-- Comparing the datum with any other tells whether it is held for the same value. -/
def Tells (cmp : Datum → Datum → Eval Ordering) (v : Datum) (j : Json) : Prop :=
  ∀ w k, Denotes w k → k.sorted = true → k.plain = true → ∃ o, cmp v w = pure o ∧ (o = .eq ↔ j = k)

section loops

variable {cmp : Datum → Datum → Eval Ordering}

lemma cmpItems_tells {as bs : List Datum} {js ks : List Json} (ha : List.Forall₂ (Tells cmp) as js)
    (hb : List.Forall₂ Denotes bs ks) (hs : ∀ k ∈ ks, k.sorted = true)
    (hp : ∀ k ∈ ks, k.plain = true) :
    ∃ o, cmpItems cmp as bs = pure o ∧ (o = .eq ↔ js = ks) := by
  induction ha generalizing bs ks with
  | nil =>
    cases hb with
    | nil => exact ⟨.eq, rfl, by simp⟩
    | cons _ _ => exact ⟨.lt, rfl, by simp⟩
  | @cons a j as js htells _ ih =>
    cases hb with
    | nil => exact ⟨.gt, rfl, by simp⟩
    | @cons b k bs ks hdenotes hrest =>
      obtain ⟨o, ho, heq⟩ := htells b k hdenotes (hs k List.mem_cons_self) (hp k List.mem_cons_self)
      obtain ⟨o', ho', heq'⟩ := ih hrest (fun k hk => hs k (List.mem_cons_of_mem _ hk)) fun k hk =>
        hp k (List.mem_cons_of_mem _ hk)
      rw [cmpItems, ho, pure_bind]
      by_cases hoeq : o = .eq
      · exact ⟨o', by rw [if_pos hoeq, ho'], by rw [heq', List.cons.injEq, ← heq, hoeq]; simp⟩
      · exact ⟨o, by rw [if_neg hoeq], iff_of_false hoeq fun h =>
          hoeq (heq.mpr (List.cons.inj h).1)⟩

lemma cmpPairs_tells {as bs : List (List UInt8 × Datum)} {js ks : List (String × Json)}
    (ha : List.Forall₂ (fun a j => a.1 = utf8 j.1 ∧ Tells cmp a.2 j.2) as js)
    (hb : List.Forall₂ FieldOf bs ks) (hs : ∀ k ∈ ks, k.2.sorted = true)
    (hp : ∀ k ∈ ks, k.2.plain = true) :
    ∃ o, cmpPairs cmp as bs = pure o ∧ (o = .eq ↔ js = ks) := by
  induction ha generalizing bs ks with
  | nil =>
    cases hb with
    | nil => exact ⟨.eq, rfl, by simp⟩
    | cons _ _ => exact ⟨.lt, rfl, by simp⟩
  | @cons a j as js htells _ ih =>
    cases hb with
    | nil => exact ⟨.gt, rfl, by simp⟩
    | @cons b k bs ks hfield hrest =>
      obtain ⟨o, ho, heq⟩ :=
        htells.2 b.2 k.2 hfield.value (hs k List.mem_cons_self) (hp k List.mem_cons_self)
      obtain ⟨o', ho', heq'⟩ := ih hrest (fun k hk => hs k (List.mem_cons_of_mem _ hk)) fun k hk =>
        hp k (List.mem_cons_of_mem _ hk)
      have hkey : List.compareLex compare a.1 b.1 = .eq ↔ j.1 = k.1 := by
        rw [Std.LawfulEqCmp.compare_eq_iff_eq, htells.1, hfield.key, PrimaryKeys.utf8_inj]
      rw [cmpPairs]
      by_cases hname : List.compareLex compare a.1 b.1 = .eq
      · rw [if_pos hname, ho, pure_bind]
        by_cases hoeq : o = .eq
        · refine ⟨o', by rw [if_pos hoeq, ho'], ?_⟩
          rw [heq', List.cons.injEq, Prod.ext_iff, ← heq, ← hkey]
          simp [hoeq, hname]
        · exact ⟨o, by rw [if_neg hoeq],
            iff_of_false hoeq fun h => hoeq (heq.mpr (Prod.ext_iff.mp (List.cons.inj h).1).2)⟩
      · exact ⟨_, by rw [if_neg hname], iff_of_false hname fun h =>
          hname (hkey.mpr (Prod.ext_iff.mp (List.cons.inj h).1).1)⟩

end loops

def jsonType : Json → ℕ
  | .arr _ => 2
  | .bool _ => 4
  | .null => 5
  | .num _ => 6
  | .obj _ => 7
  | .str _ => 8

lemma Denotes.type {v : Datum} {j : Json} (h : Denotes v j) : v.type = jsonType j := by
  obtain ⟨d, hv, hj⟩ := h
  cases hj <;> cases hv <;> rfl

lemma cmpScalars_tells {s t : Scalar} {j k : Json} (hj : Stands j (.scalar s))
    (hk : Stands k (.scalar t)) (h : jsonType j = jsonType k) :
    ∃ o, cmpScalars s t = some o ∧ (o = .eq ↔ j = k) := by
  cases hj with
  | null =>
    cases hk <;> simp [jsonType] at h
    exact ⟨_, rfl, by simp⟩
  | bool a =>
    cases hk <;> simp [jsonType] at h
    exact ⟨_, rfl, by simp⟩
  | num a =>
    cases hk <;> simp [jsonType] at h
    exact ⟨_, rfl, by simp⟩
  | str a =>
    cases hk <;> simp [jsonType] at h
    exact ⟨_, rfl, by simp [PrimaryKeys.utf8_inj]⟩

lemma eq_arr_of_jsonType {j : Json} (h : jsonType j = 2) : ∃ items, j = .arr items := by
  cases j <;> first | exact ⟨_, rfl⟩ | simp [jsonType] at h

lemma eq_obj_of_jsonType {j : Json} (h : jsonType j = 7) : ∃ fields, j = .obj fields := by
  cases j <;> first | exact ⟨_, rfl⟩ | simp [jsonType] at h

lemma cmpSameType_items {cmp : Datum → Datum → Eval Ordering} {v : Datum} (h : v.isArray = true)
    (w : Datum) :
    cmpSameType cmp v w = (do
      let as ← guaranteed v.items
      let bs ← guaranteed w.items
      cmpItems cmp as bs) := by
  cases v <;> first | rfl | cases h

lemma cmpSameType_pairs {cmp : Datum → Datum → Eval Ordering} {v : Datum} (h : v.isObject = true)
    (w : Datum) :
    cmpSameType cmp v w = (do
      let as ← guaranteed v.pairs
      let bs ← guaranteed w.pairs
      cmpPairs cmp as bs) := by
  cases v <;> first | rfl | cases h

lemma Denotes.scalar {v : Datum} {j : Json} (h : Denotes v j) (ha : ∀ items, j ≠ .arr items)
    (ho : ∀ fields, j ≠ .obj fields) : ∃ s, v = .scalar s ∧ Stands j (.scalar s) := by
  obtain ⟨d, hv, hj⟩ := h
  cases hj with
  | @arr items _ _ _ => exact absurd rfl (ha items)
  | @obj fields _ _ _ => exact absurd rfl (ho fields)
  | null =>
    cases hv
    exact ⟨_, rfl, .null⟩
  | bool b =>
    cases hv
    exact ⟨_, rfl, .bool b⟩
  | num d =>
    cases hv
    exact ⟨_, rfl, .num d⟩
  | str s =>
    cases hv
    exact ⟨_, rfl, .str s⟩

lemma cmpWith_tells {fuel : ℕ} {v : Datum} {j : Json} (hv : Held fuel v j) :
    Tells (cmpWith fuel) v j := by
  induction fuel generalizing v j with
  | zero => exact absurd hv Held.not_zero
  | succ fuel ih =>
    intro w k hw hks hkp
    rw [cmpWith, hv.denotes.comparesAsPtype hv.sorted hv.plain, pure_bind,
      hw.comparesAsPtype hks hkp, pure_bind]
    simp only [Bool.and_self, Bool.or_self, Bool.false_eq_true, if_false]
    by_cases htype : v.type = w.type
    · rw [if_neg (not_not.mpr htype)]
      rw [hv.denotes.type, hw.type] at htype
      cases j with
      | arr items =>
        obtain ⟨items', rfl⟩ := eq_arr_of_jsonType htype.symm
        obtain ⟨ws, hws, hheld⟩ := hv.items
        obtain ⟨ws', hws', hdenotes⟩ := hw.items
        obtain ⟨o, ho, heq⟩ := cmpItems_tells (hheld.imp fun w j h => ih h) hdenotes
          ((Items.sorted_iff items').mp hks) ((Items.plain_iff items').mp hkp)
        refine ⟨o, ?_, ?_⟩
        · rw [cmpSameType_items (hv.denotes.isArray.mpr ⟨items, rfl⟩), hws, hws', guaranteed_some,
            pure_bind, guaranteed_some, pure_bind, ho]
        · rw [heq, Json.arr.injEq]
          exact ⟨Items.toList_injective, congrArg _⟩
      | obj fields =>
        obtain ⟨fields', rfl⟩ := eq_obj_of_jsonType htype.symm
        obtain ⟨ps, hps, hheld⟩ := hv.pairs
        obtain ⟨ps', hps', hfields⟩ := hw.pairs
        obtain ⟨o, ho, heq⟩ := cmpPairs_tells (hheld.imp fun p f h => ⟨h.1, ih h.2⟩) hfields
          (fun p hp => Fields.get_sorted hks ((Fields.get_eq_some_iff hks).mpr hp))
          fun p hp => (Fields.plain_iff.mp hkp p hp).2
        refine ⟨o, ?_, ?_⟩
        · rw [cmpSameType_pairs (hv.denotes.isObject.mpr ⟨fields, rfl⟩), hps, hps', guaranteed_some,
            pure_bind, guaranteed_some, pure_bind, ho]
        · rw [heq, Json.obj.injEq]
          exact ⟨Fields.toList_injective, congrArg _⟩
      | _ =>
        obtain ⟨s, rfl, hs⟩ := hv.denotes.scalar (by simp) (by simp)
        obtain ⟨t, rfl, ht⟩ := hw.scalar (by rintro items rfl; simp [jsonType] at htype)
          (by rintro fields rfl; simp [jsonType] at htype)
        obtain ⟨o, ho, heq⟩ := cmpScalars_tells hs ht htype
        exact ⟨o, by rw [cmpSameType, ho, guaranteed_some], heq⟩
    · refine ⟨_, by rw [if_pos htype], ?_⟩
      rw [Nat.compare_eq_eq]
      refine iff_of_false htype fun h => htype ?_
      rw [hv.denotes.type, hw.type, h]

/-! ### Documents -/

section operations

variable {v w : Datum} {j k : Json} (hv : Denotes v j) (hjs : j.sorted = true)
  (hjp : j.plain = true)
  (hw : Denotes w k) (hks : k.sorted = true) (hkp : k.plain = true)
include hv hjs hjp hw hks hkp

lemma merge_denotes : ∃ u, merge sanitize v w = pure u ∧ Denotes u (j.merge k) :=
  mergeWith_denotes sanitize hv hjs hjp (Held.of_denotes hw hks hkp)

lemma cmp_tells : ∃ o, cmp v w = pure o ∧ (o = .eq ↔ j = k) :=
  cmpWith_tells (Held.of_denotes hv hjs hjp) w k hw hks hkp

end operations

/-- Merging a document with another one, each in memory or in a buffer, gives the
merged document; there is no field of it that the merge of the model does not have. -/
theorem merge_of_documents (old new : Doc) {v w : Datum} (hv : Denotes v (.obj old.fields))
    (hw : Denotes w (.obj new.fields)) (ho : old.fields.plain = true)
    (hn : new.fields.plain = true) :
    ∃ u, merge sanitize v w = pure u ∧ Denotes u (.obj (old.merge new).fields) :=
  merge_denotes sanitize hv old.sorted ho hw new.sorted hn

theorem merge_of_documents_note :
    ∃ u, merge pure (stringsDatum [("id", "a"), ("note", "x")]) (stringsDatum [("note", "y")]) =
        pure u ∧
      Denotes u (.obj (Doc.strings [("id", "a"), ("note", "y")]).fields) := by
  have hmerged : (Doc.strings [("id", "a"), ("note", "x")]).merge (Doc.strings [("note", "y")]) =
      Doc.strings [("id", "a"), ("note", "y")] := by decide
  rw [← hmerged]
  exact merge_of_documents pure _ _ (stringsDatum_denotes _ (by decide))
    (stringsDatum_denotes _ (by decide)) (by decide) (by decide)

/-- Two documents, each in memory or in a buffer, compare as equal exactly if they
are the same document. -/
theorem cmp_of_documents (a b : Doc) {v w : Datum} (hv : Denotes v (.obj a.fields))
    (hw : Denotes w (.obj b.fields)) (ha : a.fields.plain = true) (hb : b.fields.plain = true) :
    ∃ o, cmp v w = pure o ∧ (o = .eq ↔ a = b) := by
  obtain ⟨o, ho, heq⟩ := cmp_tells hv a.sorted ha hw b.sorted hb
  exact ⟨o, ho, heq.trans ⟨fun h => Doc.ext (Json.obj.inj h), fun h => by rw [h]⟩⟩

theorem cmp_of_documents_notes :
    ∃ o, cmp (stringsDatum [("id", "a"), ("note", "x")])
        (stringsDatum [("id", "a"), ("note", "y")]) = pure o ∧ o ≠ .eq := by
  obtain ⟨o, ho, heq⟩ := cmp_of_documents (Doc.strings [("id", "a"), ("note", "x")])
    (Doc.strings [("id", "a"), ("note", "y")])
    (stringsDatum_denotes [("id", "a"), ("note", "x")] (by decide))
    (stringsDatum_denotes [("id", "a"), ("note", "y")] (by decide)) (by decide) (by decide)
  exact ⟨o, ho, fun h => absurd (heq.mp h) (by decide)⟩

end PersonnelBackend.Datums
