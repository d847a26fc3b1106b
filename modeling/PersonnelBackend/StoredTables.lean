import PersonnelBackend.DatumOperations

/-! Tables as they are on disk (`btree.cc`, `store.cc`, `table_common.cc`): bytes
under the strings of the primary keys. A row is read, replaced by a function of it,
checked and written back; an insert and an update are such replacements. The
tables of the model are what these bytes stand for, after every sequence of
inserts and updates. -/
namespace PersonnelBackend.Datums
open Document Database
open PrimaryKeys (Key Keys boolToStrKey numToStrKey strToStrKey)

/-- What the model leaves open: what becomes of binary values, extrema and
pseudotypes in keys and of pseudotypes in objects. -/
structure Externals where
  special : Datum → List UInt8 → Eval (List UInt8)
  sanitize : Datum → Eval Datum

variable (x : Externals)

/-! ### Primary keys -/

def ofKeyError : PrimaryKeys.KeyError → ReqlError
  | .nullByte value offset => .nullByte value offset
  | .tooLong _ => .sanityCheck

/-- The loop of `array_to_str_key` over the elements of a datum. -/
def itemsToStrKey (toStrKey : Datum → List UInt8 → Eval (List UInt8)) :
    List Datum → List UInt8 → Eval (List UInt8)
  | [], out => pure out
  | item :: items, out =>
    if out.length < maxKeySize then do
      let out ← toStrKey item out
      itemsToStrKey toStrKey items (out ++ [0])
    else pure out

/-- The method `print_primary_internal`, by the type of the datum. -/
def toStrKeyWith : ℕ → Datum → List UInt8 → Eval (List UInt8)
  | 0, _, _ => none
  | _ + 1, .scalar .uninitialized, _ => none
  | _ + 1, .scalar .null, _ => throw (.badPrimaryKey (.scalar .null))
  | _ + 1, .scalar (.bool b), out => pure (boolToStrKey b out)
  | _ + 1, .scalar (.num d), out => pure (numToStrKey PrimaryKeys.Double.text d out)
  | _ + 1, .scalar (.str s), out => ExceptT.mk (some ((strToStrKey s out).mapError ofKeyError))
  | _ + 1, .scalar s, out => x.special (.scalar s) out
  | fuel + 1, v, out =>
    if v.isArray then do
      let items ← guaranteed v.items
      itemsToStrKey (toStrKeyWith fuel) items (out ++ [0x41])
    else do
      if ← v.isPtype then x.special v out else throw (.badPrimaryKey v)

def printPrimary (v : Datum) : Eval (List UInt8) := do
  let s ← toStrKeyWith x v.nesting v []
  if s.length > maxPrimaryKeySize then throw (.primaryKeyTooLong v) else pure s

/-! ### Replacing a row -/

abbrev Slice := List UInt8 → Option (List UInt8)

def idKey : List UInt8 := utf8 "id"

def Datum.isNull : Datum → Bool
  | .scalar .null => true
  | _ => false

inductive Stats
  | skipped
  | inserted
  | deleted
  | unchanged
  | replaced
  deriving DecidableEq

/-- The method `rcheck_valid_replace` and the comparison with the key of the row. -/
def rcheckRowReplacement (key : List UInt8) (old new : Datum) : Eval Unit :=
  if new.isObject then do
    match ← guaranteed (new.getField idKey) with
    | none => throw (.missingPrimaryKey new)
    | some pk =>
      if !old.isNull then
        match ← guaranteed (old.getField idKey) with
        | none => throw .sanityCheck
        | some oldPk =>
          let o ← cmp oldPk pk
          if o ≠ .eq then throw (.primaryKeyChanged old new)
      let s ← printPrimary x pk
      if s ≠ key then throw (.primaryKeyDiffers old new)
  else if new.isNull then pure ()
  else throw (.notAnObject new)

/-- What the replacement counts as, and whether anything is to be written. -/
def makeRowReplacementStats (old new : Datum) : Eval (Stats × Bool) := do
  let o ← cmp old new
  let wasChanged := decide (o ≠ .eq)
  if old.isNull then pure (if new.isNull then .skipped else .inserted, wasChanged)
  else if old.isObject then
    if new.isNull then pure (.deleted, wasChanged)
    else
      let oldPk ← old.getFieldThrow idKey
      let newPk ← new.getFieldThrow idKey
      let o ← cmp oldPk newPk
      if o ≠ .eq then throw .sanityCheck
      else pure (if wasChanged then .replaced else .unchanged, wasChanged)
  else guaranteed none

/-- The bytes of a row, unless it must not be written. -/
def kvLocationSet (new : Datum) : Eval (List UInt8) := do
  let w ← guaranteed (serialize .yes new.nesting new)
  if w.result.arrayTooBig then throw (.arrayTooLarge new)
  else if w.result.extremaPresent then throw (.extremaPresent new)
  else pure w.bytes

/-- The row as it is stored; a missing row is passed on as null. -/
def readRow (slice : Slice) (key : List UInt8) : Option Datum :=
  match slice key with
  | none => some (.scalar .null)
  | some bytes => do
    let (old, _) ← deserialize.guaranteed bytes
    let pk ← old.getField idKey
    if pk.isSome then some old else none

/-- What is computed and checked before anything is written: what the replacement
counts as and, if something is to be written, the new bytes. -/
def attempt (replace : Datum → Eval Datum) (key : List UInt8) (old : Datum) :
    Eval (Stats × Option (Option (List UInt8))) := do
  let new ← replace old
  rcheckRowReplacement x key old new
  let (stats, wasChanged) ← makeRowReplacementStats old new
  if !wasChanged then pure (stats, none)
  else if new.isNull then pure (stats, some none)
  else
    let bytes ← kvLocationSet new
    pure (stats, some (some bytes))

/-- The function `rdb_replace_and_return_superblock`. -/
def replaceRow (slice : Slice) (key : List UInt8) (replace : Datum → Eval Datum) :
    Option (Slice × Except ReqlError Stats) := do
  let old ← readRow slice key
  match attempt x replace key old with
  | none => none
  | some (.error e) => some (slice, .error e)
  | some (.ok (stats, none)) => some (slice, .ok stats)
  | some (.ok (stats, some value)) => some (Function.update slice key value, .ok stats)

/-- The function `resolve_insert_conflict` without a conflict option. -/
def resolveInsertConflict (insertRow oldRow : Datum) : Eval Datum :=
  if oldRow.isNull then pure insertRow else throw (.duplicatePrimaryKey oldRow insertRow)

/-- The function that `update` is rewritten to. -/
def updateRow (newRow oldRow : Datum) : Eval Datum :=
  if oldRow.isNull then pure oldRow
  else if newRow.isNull then pure oldRow
  else if newRow.isObject then do
    let isPtype ← newRow.isPtype
    let isLiteral ← newRow.isPtypeNamed literalString
    if isPtype && !isLiteral then throw (.cannotMerge newRow)
    else merge x.sanitize oldRow newRow
  else merge x.sanitize oldRow newRow

inductive RowOp
  | insert (row : Datum)
  | update (id : List UInt8) (row : Datum)

def RowOp.key : RowOp → Eval (List UInt8)
  | .insert row => do
    let pk ← row.getFieldThrow idKey
    printPrimary x pk
  | .update id _ => printPrimary x (.scalar (.str id))

def RowOp.replace : RowOp → Datum → Eval Datum
  | .insert row => resolveInsertConflict row
  | .update _ row => updateRow x row

/-- A write whose key cannot be printed changes nothing. -/
def RowOp.run (slice : Slice) (op : RowOp) : Option (Slice × Except ReqlError Stats) :=
  match op.key x with
  | none => none
  | some (.error e) => some (slice, .error e)
  | some (.ok key) => replaceRow x slice key (op.replace x)

def runRows : Slice → List RowOp → Option (Slice × List (Except ReqlError Stats))
  | slice, [] => some (slice, [])
  | slice, op :: ops => do
    let (slice, result) ← op.run x slice
    let (slice, results) ← runRows slice ops
    some (slice, result :: results)

/-! ### The key of a row -/

mutual
lemma Key.json_sorted (k : Key) : k.json.sorted = true := by
  match k with
  | .bool _ | .num _ | .str _ => rfl
  | .array items => exact Keys.json_sorted items
lemma Keys.json_sorted (ks : Keys) : ks.json.sorted = true := by
  match ks with
  | .nil => rfl
  | .cons head rest =>
    rw [Keys.json, Items.sorted, Key.json_sorted head, Keys.json_sorted rest]
    rfl
end

mutual
lemma Key.json_plain (k : Key) : k.json.plain = true := by
  match k with
  | .bool _ | .num _ | .str _ => rfl
  | .array items => exact Keys.json_plain items
lemma Keys.json_plain (ks : Keys) : ks.json.plain = true := by
  match ks with
  | .nil => rfl
  | .cons head rest =>
    rw [Keys.json, Items.plain, Key.json_plain head, Keys.json_plain rest]
    rfl
end

def ofKey {α : Type} (result : Except PrimaryKeys.KeyError α) : Eval α :=
  ExceptT.mk (some (result.mapError ofKeyError))

lemma itemsToStrKey_eq {toStrKey : Datum → List UInt8 → Eval (List UInt8)} {items : List Datum}
    {ks : Keys} (h : List.Forall₂ (fun item j => ∀ k : Key, k.json = j → ∀ out,
      toStrKey item out = ofKey (PrimaryKeys.toStrKey PrimaryKeys.Double.text k out)) items
        ks.json.toList)
    (out : List UInt8) :
    itemsToStrKey toStrKey items out = ofKey
      (PrimaryKeys.arrayToStrKey PrimaryKeys.Double.text ks out) := by
  match ks with
  | .nil =>
    cases h
    rfl
  | .cons k rest =>
    cases h with
    | @cons item _ items _ hitem hrest =>
      rw [itemsToStrKey, PrimaryKeys.arrayToStrKey]
      split_ifs
      · rw [hitem k rfl out]
        cases PrimaryKeys.toStrKey PrimaryKeys.Double.text k out with
        | error e => rfl
        | ok out' => exact itemsToStrKey_eq hrest (out' ++ [0])
      · rfl

lemma toStrKeyWith_eq {fuel : ℕ} {v : Datum} {k : Key} (h : Held fuel v k.json) (out : List UInt8) :
    toStrKeyWith x fuel v out = ofKey (PrimaryKeys.toStrKey PrimaryKeys.Double.text k out) := by
  induction fuel generalizing v k out with
  | zero => exact absurd h Held.not_zero
  | succ fuel ih =>
    cases k with
    | bool b =>
      obtain ⟨s, rfl, hs⟩ := h.denotes.scalar (by simp [Key.json]) (by simp [Key.json])
      cases hs
      rfl
    | num d =>
      obtain ⟨s, rfl, hs⟩ := h.denotes.scalar (by simp [Key.json]) (by simp [Key.json])
      rw [Key.json] at hs
      generalize hq : d.value = q at hs
      cases hs with
      | num d' => rw [toStrKeyWith, numToStrKey, ← PrimaryKeys.unsignedZero_eq hq]; rfl
    | str s =>
      obtain ⟨s, rfl, hs⟩ := h.denotes.scalar (by simp [Key.json]) (by simp [Key.json])
      cases hs
      rfl
    | array ks =>
      have harray := h.denotes.isArray.mpr ⟨ks.json, rfl⟩
      obtain ⟨ws, hws, hheld⟩ := h.items
      have heach : List.Forall₂ (fun item j => ∀ k : Key, k.json = j → ∀ out,
          toStrKeyWith x fuel item out = ofKey (PrimaryKeys.toStrKey PrimaryKeys.Double.text k out))
            ws ks.json.toList :=
        hheld.imp fun w j hw k hk out => by
          subst hk
          exact ih hw out
      have hloop := itemsToStrKey_eq heach (out ++ [0x41])
      have hstep : toStrKeyWith x (fuel + 1) v out = (do
          let items ← guaranteed v.items
          itemsToStrKey (toStrKeyWith x fuel) items (out ++ [0x41])) := by
        cases v <;> first | rfl | cases harray
      rw [hstep, hws, guaranteed_some, pure_bind, hloop, PrimaryKeys.toStrKey]

/-- The string under which the rows of a key are stored. -/
def Printed (j : Json) (s : List UInt8) : Prop :=
  ∃ k : Key, k.json = j ∧ PrimaryKeys.printPrimary PrimaryKeys.Double.text k = .ok s

mutual
lemma keySize_le (j : Json) {out n : ℕ} (h : keySize j out = .ok n) : out ≤ n := by
  match j with
  | .bool b =>
    obtain rfl := Except.ok.inj h
    omega
  | .num value =>
    obtain rfl := Except.ok.inj h
    omega
  | .str s =>
    rw [keySize] at h
    cases hnull : (utf8 s).findIdx? (· = 0) with
    | some offset =>
      rw [hnull] at h
      cases h
    | none =>
      rw [hnull] at h
      obtain rfl := Except.ok.inj h
      omega
  | .arr items =>
    have hitems := itemsKeySize_le items h
    omega
  | .null => cases h
  | .obj fields => cases h
lemma itemsKeySize_le (items : Items) {out n : ℕ} (h : itemsKeySize items out = .ok n) :
    out ≤ n := by
  match items with
  | .nil =>
    obtain rfl := Except.ok.inj h
    exact le_rfl
  | .cons item rest =>
    rw [itemsKeySize] at h
    split_ifs at h
    · cases hitem : keySize item out with
      | error e =>
        rw [hitem] at h
        cases h
      | ok size =>
        rw [hitem] at h
        have hfirst := keySize_le item hitem
        have hrest := itemsKeySize_le rest h
        omega
    · obtain rfl := Except.ok.inj h
      exact le_rfl
end

/-- A value that a string of admissible size is built for is a key. -/
def Keyable (j : Json) : Prop :=
  ∀ out n, keySize j out = .ok n → n ≤ maxPrimaryKeySize → ∃ k : Key, k.json = j

lemma exists_keys (items : Items) (h : ∀ j ∈ items.toList, Keyable j) {out n : ℕ}
    (hsize : itemsKeySize items out = .ok n) (hn : n ≤ maxPrimaryKeySize) :
    ∃ ks : Keys, ks.json = items := by
  match items with
  | .nil => exact ⟨.nil, rfl⟩
  | .cons item rest =>
    rw [itemsKeySize] at hsize
    split_ifs at hsize with hout
    · cases hitem : keySize item out with
      | error e =>
        rw [hitem] at hsize
        cases hsize
      | ok size =>
        rw [hitem] at hsize
        have hle := itemsKeySize_le rest hsize
        obtain ⟨k, rfl⟩ := h item List.mem_cons_self out size hitem (by omega)
        obtain ⟨ks, rfl⟩ := exists_keys rest (fun j hj => h j (List.mem_cons_of_mem _ hj)) hsize hn
        exact ⟨.cons k ks, rfl⟩
    · -- the loop has stopped at a string that is longer than any primary key
      obtain rfl := Except.ok.inj hsize
      rw [maxPrimaryKeySize] at hn
      rw [maxKeySize] at hout
      omega

lemma Stands.keyable {j : Json} {d : Value} (h : Stands j d) : Keyable j := by
  induction h with
  | null => exact fun out n hsize _ => nomatch hsize
  | bool b => exact fun _ _ _ _ => ⟨.bool b, rfl⟩
  | num d => exact fun _ _ _ _ => ⟨.num d, rfl⟩
  | str s => exact fun _ _ _ _ => ⟨.str s, rfl⟩
  | @arr items values size each ih =>
    intro out n hsize hn
    have hitems : ∀ j ∈ items.toList, Keyable j := by
      intro j hj
      obtain ⟨i, hi, rfl⟩ := List.mem_iff_getElem.mp hj
      exact ih i hi (by omega)
    obtain ⟨ks, hks⟩ := exists_keys items hitems hsize hn
    exact ⟨.array ks, by rw [Key.json, hks]⟩
  | obj keys each ih => exact fun out n hsize _ => nomatch hsize

lemma Denotes.printed {v : Datum} {j : Json} (h : Denotes v j) (hj : isPrimary j = true) :
    ∃ s, Printed j s := by
  obtain ⟨d, -, hstands⟩ := h
  have hcheck := checkPrimary_of_isPrimary hj
  rw [checkPrimary] at hcheck
  cases hsize : keySize j 0 with
  | error e =>
    rw [hsize] at hcheck
    cases hcheck
  | ok n =>
    rw [hsize] at hcheck
    dsimp only at hcheck
    split_ifs at hcheck with hn
    obtain ⟨k, rfl⟩ := hstands.keyable 0 n hsize (by omega)
    obtain ⟨s, hs⟩ := (PrimaryKeys.isPrimary_json_iff k).mp hj
    exact ⟨s, k, rfl, hs⟩

variable {x}

lemma Printed.printPrimary {v : Datum} {j : Json} {s : List UInt8} (h : Printed j s)
    (hv : Denotes v j) :
    Datums.printPrimary x v = pure s := by
  obtain ⟨k, rfl, hk⟩ := h
  rw [PrimaryKeys.printPrimary] at hk
  rw [Datums.printPrimary, toStrKeyWith_eq x
    (Held.of_denotes hv (Key.json_sorted k) (Key.json_plain k))]
  cases hstr : PrimaryKeys.toStrKey PrimaryKeys.Double.text k [] with
  | error e => simp [hstr] at hk
  | ok t =>
    rw [hstr] at hk
    simp only at hk
    split_ifs at hk with hlong
    obtain rfl := Except.ok.inj hk
    change (if t.length > maxPrimaryKeySize then throw (.primaryKeyTooLong v) else pure t :
      Eval _) = pure t
    rw [if_neg hlong]

lemma Printed.eq_iff {j j' : Json} {s s' : List UInt8} (h : Printed j s) (h' : Printed j' s') :
    s = s' ↔ j = j' := by
  obtain ⟨k, rfl, hk⟩ := h
  obtain ⟨k', rfl, hk'⟩ := h'
  exact PrimaryKeys.printPrimary_eq_iff hk hk'

/-! ### What a table is on disk -/

def Stores (bytes : List UInt8) (doc : Doc) : Prop :=
  ∃ d, Stands (.obj doc.fields) d ∧ d.Fits ∧ bytes = d.encode

/-- The bytes are those of the table: there is a row under the string of a key
exactly if the table has one under the key, and no other. -/
structure Holds (slice : Slice) (t : Table) : Prop where
  row : ∀ {j s}, Printed j s → Option.Rel Stores (slice s) (t.get j)
  printed : ∀ {j d}, t.get j = some d → ∃ s, Printed j s
  key : ∀ {s bytes}, slice s = some bytes → ∃ j, Printed j s

def Storable (doc : Doc) : Prop := ∀ d, Stands (.obj doc.fields) d → d.Fits ∧ d.result = {}

section holds

variable {slice : Slice} {t : Table} {j : Json} {s : List UInt8}

lemma Holds.readRow (h : Holds slice t) (hk : Printed j s) :
    ∃ old, Datums.readRow slice s = some old ∧
      match t.get j with
      | none => old = .scalar .null
      | some d => Denotes old (.obj d.fields) := by
  have hrel := h.row hk
  cases hslice : slice s with
  | none =>
    rw [hslice] at hrel
    cases hget : t.get j with
    | none => exact ⟨_, by rw [Datums.readRow, hslice], rfl⟩
    | some d =>
      rw [hget] at hrel
      cases hrel
  | some bytes =>
    rw [hslice] at hrel
    cases hget : t.get j with
    | none =>
      rw [hget] at hrel
      cases hrel
    | some doc =>
      rw [hget] at hrel
      cases hrel with
      | some hstores =>
        obtain ⟨d, hstands, hfits, rfl⟩ := hstores
        obtain ⟨old, hread, hrep⟩ := deserialize_encode hfits []
        rw [List.append_nil] at hread
        have hdenotes : Denotes old (.obj doc.fields) := ⟨d, hrep, hstands⟩
        obtain ⟨o, hfield, hid⟩ := hdenotes.getField doc.sorted "id"
        rw [show doc.fields.get "id" = some j from t.get_id hget] at hid
        cases hid with
        | some hpk =>
          refine ⟨old, ?_, hdenotes⟩
          rw [Datums.readRow, hslice]
          simp [Read.guaranteed_ok hread, idKey, hfield]

lemma Holds.write (h : Holds slice t) {row : Row} (hk : Printed row.key s) {bytes : List UInt8}
    (hb : Stores bytes row.doc) : Holds (Function.update slice s (some bytes)) (t.put row) where
  row := by
    intro j s' hk'
    rw [Table.get_put]
    by_cases hs : s' = s
    · obtain rfl := hs
      rw [Function.update_self, if_pos ((hk'.eq_iff hk).mp rfl)]
      exact .some hb
    · rw [Function.update_of_ne hs, if_neg fun hj => hs ((hk'.eq_iff hk).mpr hj)]
      exact h.row hk'
  printed := by
    intro j d hget
    rw [Table.get_put] at hget
    by_cases hj : j = row.key
    · exact ⟨s, hj ▸ hk⟩
    · rw [if_neg hj] at hget
      exact h.printed hget
  key := by
    intro s' bytes' hslice
    by_cases hs : s' = s
    · exact ⟨row.key, hs ▸ hk⟩
    · rw [Function.update_of_ne hs] at hslice
      exact h.key hslice

end holds

lemma kvLocationSet_denotes {new : Datum} {doc : Doc} (h : Denotes new (.obj doc.fields))
    (hs : Storable doc) : ∃ bytes, kvLocationSet new = pure bytes ∧ Stores bytes doc := by
  obtain ⟨d, hrep, hstands⟩ := h
  obtain ⟨hfits, hresult⟩ := hs d hstands
  obtain ⟨w, hw, hbytes, hflags⟩ := hrep.serialize .yes hfits hrep.depth_le
  refine ⟨w.bytes, ?_, d, hstands, hfits, hbytes⟩
  rw [kvLocationSet, hw, guaranteed_some, pure_bind, hflags rfl, hresult]
  rfl

/-! ### The steps of a replacement -/

@[simp] lemma isNull_null : (Datum.scalar .null).isNull = true := rfl

lemma denotes_null : Denotes (.scalar .null) .null := ⟨_, .scalar .null, .null⟩

lemma Denotes.isNull {v : Datum} {j : Json} (h : Denotes v j) : v.isNull = true ↔ j = .null := by
  obtain ⟨d, hv, hj⟩ := h
  cases hj <;> cases hv <;> simp [Datum.isNull]

structure RowOf (old : Datum) (doc : Doc) (j : Json) : Prop where
  denotes : Denotes old (.obj doc.fields)
  plain : doc.plain = true
  id : doc.get "id" = some j

section row

variable {old new : Datum} {o n : Doc} {i j : Json} {s : List UInt8}

lemma RowOf.isNull (h : RowOf new n j) : new.isNull = false := by
  have hnull := h.denotes.isNull
  simpa using hnull

lemma RowOf.isObject (h : RowOf new n j) : new.isObject = true := h.denotes.isObject.mpr ⟨_, rfl⟩

lemma RowOf.getField (h : RowOf new n j) :
    ∃ pk, new.getField idKey = some (some pk) ∧ Denotes pk j := by
  obtain ⟨field, hfield, hrel⟩ := h.denotes.getField n.sorted "id"
  rw [show n.fields.get "id" = some j from h.id] at hrel
  cases hrel with
  | @some pk _ hpk => exact ⟨pk, hfield, hpk⟩

lemma RowOf.getFieldThrow (h : RowOf new n j) :
    ∃ pk, new.getFieldThrow idKey = pure pk ∧ Denotes pk j := by
  obtain ⟨pk, hfield, hpk⟩ := h.getField
  exact ⟨pk, by rw [Datum.getFieldThrow, hfield, guaranteed_some, pure_bind], hpk⟩

lemma RowOf.id_sorted (h : RowOf new n j) : j.sorted = true := Fields.get_sorted n.sorted h.id

lemma RowOf.id_plain (h : RowOf new n j) : j.plain = true := (Fields.get_plain h.plain h.id).2

lemma RowOf.cmp_id (ho : RowOf old o i) (hn : RowOf new n j) {pk pk' : Datum} (hpk : Denotes pk i)
    (hpk' : Denotes pk' j) : ∃ order, cmp pk pk' = pure order ∧ (order = .eq ↔ i = j) :=
  cmp_tells hpk ho.id_sorted ho.id_plain hpk' hn.id_sorted hn.id_plain

lemma RowOf.cmp_row (ho : RowOf old o i) (hn : RowOf new n j) :
    ∃ order, cmp old new = pure order ∧ (order = .eq ↔ o = n) := by
  obtain ⟨order, hcmp, heq⟩ := cmp_tells ho.denotes o.sorted ho.plain hn.denotes n.sorted hn.plain
  exact ⟨order, hcmp, heq.trans ⟨fun h => Doc.ext (Json.obj.inj h), fun h => by rw [h]⟩⟩

lemma rcheck_insert (hn : RowOf new n j) (hk : Printed j s) :
    rcheckRowReplacement x s (.scalar .null) new = pure () := by
  obtain ⟨pk, hfield, hpk⟩ := hn.getField
  simp [rcheckRowReplacement, hn.isObject, hfield, hk.printPrimary hpk]

lemma rcheck_replace (ho : RowOf old o j) (hn : RowOf new n j) (hk : Printed j s) :
    rcheckRowReplacement x s old new = pure () := by
  obtain ⟨pk, hfield, hpk⟩ := hn.getField
  obtain ⟨oldPk, hold, hoid⟩ := ho.getField
  obtain ⟨order, hcmp, heq⟩ := ho.cmp_id hn hoid hpk
  obtain rfl := heq.mpr rfl
  simp [rcheckRowReplacement, hn.isObject, hfield, ho.isNull, hold, hcmp, hk.printPrimary hpk]

lemma rcheck_changed (ho : RowOf old o i) (hn : RowOf new n j) (hij : i ≠ j) :
    rcheckRowReplacement x s old new = throw (.primaryKeyChanged old new) := by
  -- a row is not replaced by one with another key
  obtain ⟨pk, hfield, hpk⟩ := hn.getField
  obtain ⟨oldPk, hold, hoid⟩ := ho.getField
  obtain ⟨order, hcmp, heq⟩ := ho.cmp_id hn hoid hpk
  have hne : order ≠ .eq := fun h => hij (heq.mp h)
  simp [rcheckRowReplacement, hn.isObject, hfield, ho.isNull, hold, hcmp, hne]

lemma stats_insert (hn : RowOf new n j) :
    makeRowReplacementStats (.scalar .null) new = pure (.inserted, true) := by
  obtain ⟨order, hcmp, heq⟩ := cmp_tells denotes_null rfl rfl hn.denotes n.sorted hn.plain
  have hne : order ≠ .eq := fun h => by simpa using heq.mp h
  simp [makeRowReplacementStats, hcmp, hne, hn.isNull]

lemma stats_replace (ho : RowOf old o j) (hn : RowOf new n j) :
    makeRowReplacementStats old new =
      pure (if o = n then (.unchanged, false) else (.replaced, true)) := by
  obtain ⟨order, hcmp, heq⟩ := ho.cmp_row hn
  obtain ⟨pk, hfield, hpk⟩ := hn.getFieldThrow
  obtain ⟨oldPk, hold, hoid⟩ := ho.getFieldThrow
  obtain ⟨order', hcmp', heq'⟩ := ho.cmp_id hn hoid hpk
  obtain rfl := heq'.mpr rfl
  by_cases hsame : o = n
  · obtain rfl := heq.mpr hsame
    simp [makeRowReplacementStats, hcmp, ho.isNull, ho.isObject, hn.isNull, hold, hfield,
      hcmp', hsame]
  · have hne : order ≠ .eq := fun h => hsame (heq.mp h)
    simp [makeRowReplacementStats, hcmp, hne, ho.isNull, ho.isObject, hn.isNull, hold, hfield,
      hcmp', hsame]

end row

/-! ### Writes on disk and writes on tables -/

inductive TableOp
  | insert (row : Row)
  | update (id : String) (data : Body)

def TableOp.run (t : Table) : TableOp → Table × WriteResult
  | .insert row => t.insertRow row
  | .update id data => t.update id data

def runTable : Table → List TableOp → Table × List WriteResult
  | t, [] => (t, [])
  | t, op :: ops =>
    let first := op.run t
    let rest := runTable first.1 ops
    (rest.1, first.2 :: rest.2)

/-- What the write puts into the table is not refused for its size. -/
def TableOp.Storable (t : Table) : TableOp → Prop
  | .insert row => Datums.Storable row.doc
  | .update id data =>
    ∀ old d, t.get (.str id) = some old → data = .object d → Datums.Storable (old.merge d)

def StorableRun : Table → List TableOp → Prop
  | _, [] => True
  | t, op :: ops => op.Storable t ∧ StorableRun (op.run t).1 ops

/-- The write on disk is for the write on the table: its arguments are held for the
same values. An update gets as far as a row only if its key can be printed and its
body is taken. -/
inductive Carries : RowOp → TableOp → Prop
  | insert {v : Datum} {row : Row} (denotes : Denotes v (.obj row.doc.fields)) :
      Carries (.insert v) (.insert row)
  | update {v : Datum} {id : String} {data : Body} (denotes : Denotes v data.json)
      (plain : data.plain = true) (usable : isPrimary (.str id) = true) :
      Carries (.update (utf8 id) v) (.update id data)

/-- The two results say the same, the errors about the same rows. -/
inductive Agrees : Except ReqlError Stats → WriteResult → Prop
  | skipped : Agrees (.ok .skipped) { skipped := 1 }
  | inserted : Agrees (.ok .inserted) { inserted := 1 }
  | unchanged : Agrees (.ok .unchanged) { unchanged := 1 }
  | replaced : Agrees (.ok .replaced) { replaced := 1 }
  | duplicate {old new : Datum} {o n : Doc} (hold : Denotes old (.obj o.fields))
    (hnew : Denotes new (.obj n.fields)) :
      Agrees (.error (.duplicatePrimaryKey old new)) (.failed (.duplicatePrimaryKey o n))
  | changed {old new : Datum} {o n : Doc} (hold : Denotes old (.obj o.fields))
    (hnew : Denotes new (.obj n.fields)) :
      Agrees (.error (.primaryKeyChanged old new)) (.failed (.primaryKeyChanged o n))
  | notAnObject {row : Datum} {j : Json} (hrow : Denotes row j) :
      Agrees (.error (.notAnObject row)) (.failed (.notAnObject j))

section replaceRow

variable {slice : Slice} {key : List UInt8} {replace : Datum → Eval Datum} {old : Datum}
  (hr : readRow slice key = some old)
include hr

lemma replaceRow_error {e : ReqlError} (h : attempt x replace key old = throw e) :
    replaceRow x slice key replace = some (slice, .error e) := by
  rw [replaceRow, hr, Option.bind_eq_bind, Option.bind_some, h]
  rfl

lemma replaceRow_kept {stats : Stats} (h : attempt x replace key old = pure (stats, none)) :
    replaceRow x slice key replace = some (slice, .ok stats) := by
  rw [replaceRow, hr, Option.bind_eq_bind, Option.bind_some, h]
  rfl

lemma replaceRow_written {stats : Stats} {value : Option (List UInt8)}
    (h : attempt x replace key old = pure (stats, some value)) :
    replaceRow x slice key replace = some (Function.update slice key value, .ok stats) := by
  rw [replaceRow, hr, Option.bind_eq_bind, Option.bind_some, h]
  rfl

end replaceRow

section steps

variable {slice : Slice} {t : Table}

lemma insert_refines (h : Holds slice t) {v : Datum} {row : Row} {s : List UInt8}
    (hv : Denotes v (.obj row.doc.fields)) (hk : Printed row.key s) (hs : Storable row.doc) :
    ∃ slice' r, replaceRow x slice s (resolveInsertConflict v) = some (slice', r) ∧
      Holds slice' (t.insertRow row).1 ∧ Agrees r (t.insertRow row).2 := by
  have hrow : RowOf v row.doc row.key := ⟨hv, row.plain, row.keyed⟩
  obtain ⟨old, hread, hold⟩ := h.readRow hk
  rw [Table.insertRow]
  cases hget : t.get row.key with
  | none =>
    rw [hget] at hold
    obtain rfl := hold
    obtain ⟨bytes, hset, hstores⟩ := kvLocationSet_denotes hv hs
    refine ⟨_, _, replaceRow_written hread ?_, h.write hk hstores, .inserted⟩
    rw [attempt, resolveInsertConflict, isNull_null, if_pos rfl, pure_bind, rcheck_insert hrow hk,
      pure_bind, stats_insert hrow, pure_bind]
    simp [hrow.isNull, hset]
  | some o =>
    rw [hget] at hold
    have hold' : RowOf old o row.key := ⟨hold, t.get_plain hget, t.get_id hget⟩
    refine ⟨_, _, replaceRow_error hread ?_, h, .duplicate hold hv⟩
    rw [attempt, resolveInsertConflict, hold'.isNull]
    rfl

lemma items_ofList_sorted :
    ∀ items : List Database.Value, (Items.ofList (items.map Database.Value.json)).sorted = true
  | [] => rfl
  | v :: items => by
    rw [List.map_cons, Items.ofList, Items.sorted, v.sorted, items_ofList_sorted items]
    rfl

lemma body_sorted (data : Body) : data.json.sorted = true := by
  cases data with
  | object doc => exact doc.sorted
  | array items => exact items_ofList_sorted items

lemma updateRow_merge {old w : Datum} {k : Json} (hold : old.isNull = false) (hw : Denotes w k)
    (hs : k.sorted = true) (hp : k.plain = true) (hk : k ≠ .null) :
    updateRow x w old = merge x.sanitize old w := by
  have hnull : w.isNull = false := by simpa [hk] using hw.isNull
  rw [updateRow, hold, hnull, hw.isPtype hs hp, hw.isPtypeNamed hs hp]
  simp

lemma update_refines_absent (h : Holds slice t) {w : Datum} {id : String} {data : Body}
    {s : List UInt8} (hk : Printed (.str id) s) (hget : t.get (.str id) = none) :
    ∃ slice' r, replaceRow x slice s (updateRow x w) = some (slice', r) ∧
      Holds slice' (t.update id data).1 ∧ Agrees r (t.update id data).2 := by
  obtain ⟨old, hread, hold⟩ := h.readRow hk
  rw [hget] at hold
  obtain rfl := hold
  rw [Table.update_absent hget]
  refine ⟨_, _, replaceRow_kept hread ?_, h, .skipped⟩
  obtain ⟨order, hcmp, heq⟩ := cmp_tells denotes_null rfl rfl denotes_null rfl rfl
  obtain rfl := heq.mpr rfl
  simp [attempt, updateRow, rcheckRowReplacement, Datum.isObject, makeRowReplacementStats, hcmp]

section present

variable {old w u : Datum} {o : Doc} {id : String} {s : List UInt8}
  (h : Holds slice t) (hread : readRow slice s = some old) (hget : t.get (.str id) = some o)
  (hrow : updateRow x w old = pure u)
include h hread hget hrow

lemma update_refines_array {items : List Database.Value} (hp : (Body.array items).plain = true)
    (hu : Denotes u (Body.array items).json) :
    ∃ slice' r, replaceRow x slice s (updateRow x w) = some (slice', r) ∧
      Holds slice' (t.update id (.array items)).1 ∧ Agrees r (t.update id (.array items)).2 := by
  -- the merge with an array is the array, which is not a row
  have hobject : u.isObject = false := by simpa [Body.json] using hu.isObject
  have hnull : u.isNull = false := by simpa [Body.json] using hu.isNull
  refine ⟨slice, .error (.notAnObject u), replaceRow_error hread ?_, ?_, ?_⟩
  · simp [attempt, hrow, rcheckRowReplacement, hobject, hnull]
  · rwa [Table.update_array]
  · rw [Table.update_present_array hget hp]
    exact .notAnObject hu

lemma update_refines_object {d : Doc} (ho : RowOf old o (.str id)) (hk : Printed (.str id) s)
    (hp : d.plain = true) (hu : Denotes u (.obj (o.merge d).fields))
    (hs : Storable (o.merge d)) :
    ∃ slice' r, replaceRow x slice s (updateRow x w) = some (slice', r) ∧
      Holds slice' (t.update id (.object d)).1 ∧ Agrees r (t.update id (.object d)).2 := by
  obtain ⟨j, hj⟩ : ∃ j, (o.merge d).get "id" = some j := by
    rw [Doc.get_merge, ho.id]
    cases d.get "id" <;> exact ⟨_, rfl⟩
  have hn : RowOf u (o.merge d) j := ⟨hu, Fields.merge_plain _ _ ho.plain hp, hj⟩
  rw [Table.update_present hget hp]
  by_cases hid : j = .str id
  · subst hid
    rw [dif_pos hj]
    have hstats := stats_replace ho hn
    by_cases hsame : o.merge d = o
    · rw [if_pos hsame.symm] at hstats
      rw [if_pos hsame]
      refine ⟨_, _, replaceRow_kept hread ?_, h, .unchanged⟩
      simp [attempt, hrow, rcheck_replace ho hn hk, hstats]
    · rw [if_neg (Ne.symm hsame)] at hstats
      rw [if_neg hsame]
      obtain ⟨bytes, hset, hstores⟩ := kvLocationSet_denotes hu hs
      refine ⟨_, _, replaceRow_written hread ?_, h.write hk hstores, .replaced⟩
      simp [attempt, hrow, rcheck_replace ho hn hk, hstats, hn.isNull, hset]
  · rw [dif_neg (by rw [hj]; simpa using hid)]
    refine ⟨_, _, replaceRow_error hread ?_, h, .changed ho.denotes hu⟩
    simp [attempt, hrow, rcheck_changed ho hn (Ne.symm hid)]

end present

lemma update_refines (h : Holds slice t) {w : Datum} {id : String} {data : Body} {s : List UInt8}
    (hw : Denotes w data.json) (hp : data.plain = true) (hk : Printed (.str id) s)
    (hs : ∀ old d, t.get (.str id) = some old → data = .object d → Storable (old.merge d)) :
    ∃ slice' r, replaceRow x slice s (updateRow x w) = some (slice', r) ∧
      Holds slice' (t.update id data).1 ∧ Agrees r (t.update id data).2 := by
  cases hget : t.get (.str id) with
  | none => exact update_refines_absent h hk hget
  | some o =>
    obtain ⟨old, hread, hold⟩ := h.readRow hk
    rw [hget] at hold
    have ho : RowOf old o (.str id) := ⟨hold, t.get_plain hget, t.get_id hget⟩
    have hnull : data.json ≠ .null := by cases data <;> simp [Body.json]
    obtain ⟨u, hmerge, hu⟩ :=
      merge_denotes x.sanitize ho.denotes o.sorted ho.plain hw (body_sorted data) hp
    have hrow : updateRow x w old = pure u :=
      (updateRow_merge ho.isNull hw (body_sorted data) hp hnull).trans hmerge
    cases data with
    | array items => exact update_refines_array h hread hget hrow hp hu
    | object d => exact update_refines_object h hread hget hrow ho hk hp hu (hs o d hget rfl)

lemma op_refines (h : Holds slice t) {op : RowOp} {op' : TableOp} (hop : Carries op op')
    (hs : op'.Storable t) :
    ∃ slice' r, op.run x slice = some (slice', r) ∧ Holds slice' (op'.run t).1 ∧
    Agrees r (op'.run t).2 := by
  cases hop with
  | @insert v row hv =>
    obtain ⟨pk, hfield, hpk⟩ := RowOf.getFieldThrow ⟨hv, row.plain, row.keyed⟩
    obtain ⟨s, hk⟩ := hpk.printed row.usable
    have hkey : (RowOp.insert v).key x = pure s := by
      rw [RowOp.key, hfield, pure_bind, hk.printPrimary hpk]
    obtain ⟨slice', r, hrun, hholds, hagrees⟩ := insert_refines h hv hk hs
    refine ⟨slice', r, ?_, hholds, hagrees⟩
    rw [RowOp.run, hkey]
    exact hrun
  | @update w id data hw hp hid =>
    have hpk : Denotes (.scalar (.str (utf8 id))) (.str id) := ⟨_, .scalar _, .str id⟩
    obtain ⟨s, hk⟩ := hpk.printed hid
    have hkey : (RowOp.update (utf8 id) w).key x = pure s := hk.printPrimary hpk
    obtain ⟨slice', r, hrun, hholds, hagrees⟩ := update_refines h hw hp hk hs
    refine ⟨slice', r, ?_, hholds, hagrees⟩
    rw [RowOp.run, hkey]
    exact hrun

end steps

/-- After every sequence of inserts and updates the bytes on disk are those of the
table that the model has after the same writes, and every write has reported the
same, failed ones included. -/
theorem disk_refines_table {slice : Slice} {t : Table} (h : Holds slice t) {ops : List RowOp}
    {ops' : List TableOp} (hops : List.Forall₂ Carries ops ops') (hs : StorableRun t ops') :
    ∃ slice' results, runRows x slice ops = some (slice', results) ∧
    Holds slice' (runTable t ops').1 ∧
      List.Forall₂ Agrees results (runTable t ops').2 := by
  induction hops generalizing slice t with
  | nil => exact ⟨slice, [], rfl, h, .nil⟩
  | @cons op op' ops ops' hop _ ih =>
    obtain ⟨slice₁, r, hrun, hholds, hagrees⟩ := op_refines h hop hs.1
    obtain ⟨slice₂, results, hruns, hholds', hall⟩ := ih hholds hs.2
    refine ⟨slice₂, r :: results, ?_, hholds', .cons hagrees hall⟩
    rw [runRows, hrun, Option.bind_eq_bind, Option.bind_some]
    simp [hruns]

lemma holds_empty : Holds (fun _ => none) Table.empty where
  row := fun _ => by
    rw [Table.get_empty]
    exact .none
  printed := fun h => by
    rw [Table.get_empty] at h
    cases h
  key := fun h => by cases h

lemma storable_strings {doc : Doc} (entries : List (String × String))
    (hf : doc.fields.toList = entries.map fun e => (e.1, Json.str e.2))
    (hfits : (stringsValue entries).Fits) (hres : (stringsValue entries).result = {}) :
    Storable doc := by
  intro d hd
  obtain rfl := (stands_strings_iff hf).mp hd
  exact ⟨hfits, hres⟩

/-- The application stores no values of the kinds left open. -/
def noExternals : Externals := ⟨fun _ _ => throw .sanityCheck, pure⟩

lemma note_keyed (note : String) :
    (Doc.strings [("id", "a"), ("note", note)]).get "id" = some (.str "a") := by
  rw [Doc.get_strings_cons, if_pos (by decide)]

def noteRow (note : String) : Row where
  key := .str "a"
  doc := Doc.strings [("id", "a"), ("note", note)]
  keyed := note_keyed note
  usable := rfl
  plain := Doc.strings_plain _

/-- A note is stored, another one under its key is refused, and it is changed. -/
def noteOps : List TableOp :=
  [.insert (noteRow "x"), .insert (noteRow "y"),
    .update "a" (.object (Doc.strings [("note", "z")]))]

theorem disk_refines_table_notes :
    (runTable .empty noteOps).1.get (.str "a") = some (Doc.strings [("id", "a"), ("note", "z")]) ∧
    ∃ slice' results, runRows noExternals (fun _ => none)
        [.insert (stringsDatum [("id", "a"), ("note", "x")]),
          .insert (stringsDatum [("id", "a"), ("note", "y")]),
          .update (utf8 "a") (stringsDatum [("note", "z")])] = some (slice', results) ∧
      Holds slice' (runTable .empty noteOps).1 ∧
      List.Forall₂ Agrees results (runTable .empty noteOps).2 := by
  refine ⟨by decide, disk_refines_table holds_empty
    (.cons (.insert (stringsDatum_denotes _ (by decide)))
      (.cons (.insert (stringsDatum_denotes _ (by decide)))
        (.cons (.update (stringsDatum_denotes _ (by decide)) (by decide) (by decide)) .nil)))
    ⟨?_, ?_, ?_, trivial⟩⟩
  · exact storable_strings [("id", "a"), ("note", "x")] (by decide) (by rw [Value.Fits]; decide)
      (by decide)
  · exact storable_strings [("id", "a"), ("note", "y")] (by decide) (by rw [Value.Fits]; decide)
      (by decide)
  · rintro old d hold ⟨⟩
    have hget : ((TableOp.insert (noteRow "y")).run
        ((TableOp.insert (noteRow "x")).run .empty).1).1.get (.str "a") =
          some (Doc.strings [("id", "a"), ("note", "x")]) := by decide
    obtain rfl := Option.some.inj (hget.symm.trans hold)
    exact storable_strings [("id", "a"), ("note", "z")] (by decide) (by rw [Value.Fits]; decide)
      (by decide)

end PersonnelBackend.Datums
