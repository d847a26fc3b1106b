import Mathlib.Data.Finmap
import Mathlib.Data.Multiset.Filter
import PersonnelBackend.DatabaseKeys

/-! One RethinkDB table and the write queries on it. A table maps primary keys
to documents, and every document carries its own key in the field `id`. Writes
report in a result object what becomes of each row: an insert on a taken or
unusable key, an update of an absent key, an update that would change the key and
an update with a refused object all leave the table as it is. Limits on the size of
documents are left out. -/
namespace PersonnelBackend.Database
open Document

/-- A JSON object in the order the server keeps it, without the pseudotypes that
the server converts. -/
structure Doc where
  fields : Fields
  sorted : fields.sorted = true
  ordinary : fields.ordinary = true
  deriving DecidableEq

namespace Doc

def get (d : Doc) (k : String) : Option Json := d.fields.get k

def empty : Doc := ⟨.nil, Fields.sorted_nil, rfl⟩

/-- The object with a scalar in a field other than the reserved one. -/
def set (d : Doc) (k : String) (v : Json) (hk : k ≠ reqlType) (hv : v.isScalar = true) : Doc where
  fields := d.fields.overwrite k v
  sorted := Fields.overwrite_sorted (Json.sorted_of_isScalar hv) d.sorted
  ordinary := Fields.overwrite_ordinary (fun h => absurd h hk) (Json.ordinary_of_isScalar hv)
    d.ordinary

def merge (d e : Doc) : Doc where
  fields := d.fields.merge e.fields
  sorted := Fields.merge_sorted d.fields e.fields d.sorted e.sorted
  ordinary := Fields.merge_ordinary d.fields e.fields d.ordinary e.ordinary

/-- The object with these fields, all of them strings; the reserved name is passed over. -/
def strings (entries : List (String × String)) : Doc :=
  entries.foldr (fun e d => if h : e.1 = reqlType then d
    else d.set e.1 (.str e.2) h (Json.isScalar_str e.2)) empty

/-- The server takes the object as it is. -/
def plain (d : Doc) : Bool := d.fields.plain

lemma ext {d e : Doc} (h : d.fields = e.fields) : d = e := by
  cases d
  cases e
  simp_all

@[simp] lemma get_empty (k : String) : empty.get k = none := rfl

lemma get_set (d : Doc) (k j : String) (v : Json) (hk : k ≠ reqlType) (hv : v.isScalar = true) :
    (d.set k v hk hv).get j = if j = k then some v else d.get j :=
  Fields.get_overwrite d.fields k j v

lemma set_plain {d : Doc} (hd : d.plain = true) (k : String) (v : Json) (hk : k ≠ reqlType)
    (hv : v.isScalar = true) : (d.set k v hk hv).plain = true :=
  Fields.overwrite_plain hk (Json.plain_of_isScalar hv) hd

lemma merge_plain {d e : Doc} (hd : d.plain = true) (he : e.plain = true) :
    (d.merge e).plain = true := Fields.merge_plain d.fields e.fields hd he

lemma plain_of_merge {d e : Doc} (h : (d.merge e).plain = true) : e.plain = true :=
  Fields.plain_of_merge d.fields e.fields e.sorted h

lemma get_strings_cons (e : String × String) (entries : List (String × String)) (k : String) :
    (strings (e :: entries)).get k =
      if e.1 ≠ reqlType ∧ k = e.1 then some (.str e.2) else (strings entries).get k := by
  rw [strings, List.foldr_cons]
  split_ifs with h hk hk
  · exact absurd h hk.1
  · rfl
  · rw [get_set, if_pos hk.2]
  · rw [get_set, if_neg fun he => hk ⟨h, he⟩]
    rfl

lemma strings_isScalar {entries : List (String × String)} {k : String} {v : Json}
    (h : (strings entries).get k = some v) : v.isScalar = true := by
  induction entries with
  | nil => cases h
  | cons e entries ih =>
    rw [get_strings_cons] at h
    split_ifs at h
    · obtain rfl := Option.some.inj h
      rfl
    · exact ih h

lemma strings_plain (entries : List (String × String)) : (strings entries).plain = true := by
  induction entries with
  | nil => rfl
  | cons e entries ih =>
    rw [strings, List.foldr_cons]
    split_ifs with h
    · exact ih
    · exact set_plain ih e.1 (.str e.2) h (Json.isScalar_str e.2)

lemma get_merge (d e : Doc) (k : String) :
    (d.merge e).get k =
      match e.get k with
      | some v => some (mergeField (d.get k) v)
      | none => d.get k :=
  Fields.get_merge d.fields e.sorted k

lemma get_merge_none {d e : Doc} {k : String} (h : e.get k = none) :
    (d.merge e).get k = d.get k := by
  rw [get_merge, h]

lemma get_merge_scalar {d e : Doc} {k : String} {v : Json} (h : e.get k = some v)
    (hv : v.isScalar = true) : (d.merge e).get k = some v := by
  rw [get_merge, h]
  simp [mergeField_of_isScalar _ hv]

/-- What an update leaves under the key of `d`: an object that the server cannot
read and a merge that would change the primary key are refused. -/
def apply (d e : Doc) : Doc :=
  if e.plain = true ∧ (d.merge e).get "id" = d.get "id" then d.merge e else d

lemma apply_cases (d e : Doc) : d.apply e = d.merge e ∨ d.apply e = d := by
  unfold apply
  split_ifs
  · exact Or.inl rfl
  · exact Or.inr rfl

lemma merge_id_iff {old d : Doc} {id : String} (hid : old.get "id" = some (.str id)) :
    (old.merge d).get "id" = some (.str id) ↔ d.get "id" = none ∨ d.get "id" = some (.str id) := by
  rw [get_merge]
  cases hd : d.get "id" with
  | none => simp [hid]
  | some v =>
    simp only [Option.some.injEq, reduceCtorEq, false_or]
    constructor
    · exact mergeField_eq_str
    · rintro rfl
      exact mergeField_of_isScalar _ rfl

lemma apply_eq_merge_iff {old d : Doc} {id : String} (hold : old.plain = true)
    (hid : old.get "id" = some (.str id)) :
    old.apply d = old.merge d ↔
      d.plain = true ∧ (d.get "id" = none ∨ d.get "id" = some (.str id)) := by
  rw [← merge_id_iff hid, apply, hid]
  split_ifs with h
  · exact iff_of_true rfl h
  · refine iff_of_false (fun he => h ⟨plain_of_merge (d := old) ?_, ?_⟩) h
    · rw [← he]
      exact hold
    · rw [← he, hid]

lemma apply_of_id_none {d e : Doc} (he : e.plain = true) (h : e.get "id" = none) :
    d.apply e = d.merge e := by
  rw [apply, if_pos ⟨he, get_merge_none h⟩]

end Doc

structure Value where
  json : Json
  sorted : json.sorted = true
  ordinary : json.ordinary = true
  deriving DecidableEq

def Value.doc? (v : Value) : Option Doc :=
  match h : v.json with
  | .obj fields => some ⟨fields, by have hs := v.sorted; rwa [h] at hs,
      by have ho := v.ordinary; rwa [h] at ho⟩
  | _ => none

/-- A request body as `express.json` delivers it: an object or an array. -/
inductive Body
  | object (doc : Doc)
  | array (items : List Value)
  deriving DecidableEq

namespace Body

/-- Reading a property of the body; `none` is JavaScript's `undefined`. -/
def field (body : Body) (k : String) : Option Json :=
  match body with
  | object doc => doc.get k
  | array _ => none

def readable (body : Body) (k : String) : Bool := (body.field k).any Json.plain

lemma readable_iff {body : Body} {k : String} :
    body.readable k = true ↔ ∃ v, body.field k = some v ∧ v.plain = true := by
  rw [readable, Option.any_eq_true]

def json : Body → Json
  | object doc => .obj doc.fields
  | array items => .arr (Items.ofList (items.map Value.json))

def plain (body : Body) : Bool := body.json.plain

lemma plain_object (d : Doc) : (object d).plain = d.plain := rfl

def values : Body → List Value
  | object doc => [⟨.obj doc.fields, doc.sorted, doc.ordinary⟩]
  | array items => items

end Body

/-! ### Results of write queries -/

/-- Why a row is not written, or why the server fails a query as a whole. -/
inductive WriteError
  | pseudotype (value : Json)
  | missingPrimaryKey (doc : Doc)
  | badPrimaryKey (e : KeyError)
  | duplicatePrimaryKey (old new : Doc)
  | primaryKeyChanged (old new : Doc)
  | notAnObject (value : Json)
  deriving DecidableEq

/-- The counters of `new_stats_object` with the first error and the generated keys. -/
structure WriteResult where
  inserted : ℕ := 0
  deleted : ℕ := 0
  skipped : ℕ := 0
  replaced : ℕ := 0
  unchanged : ℕ := 0
  errors : ℕ := 0
  firstError : Option WriteError := none
  generatedKeys : List String := []
  deriving DecidableEq

/-- As `stats_merge`: counters add up, keys accumulate, the earlier error stays. -/
def WriteResult.merge (a b : WriteResult) : WriteResult where
  inserted := a.inserted + b.inserted
  deleted := a.deleted + b.deleted
  skipped := a.skipped + b.skipped
  replaced := a.replaced + b.replaced
  unchanged := a.unchanged + b.unchanged
  errors := a.errors + b.errors
  firstError := a.firstError.or b.firstError
  generatedKeys := a.generatedKeys ++ b.generatedKeys

def WriteResult.failed (e : WriteError) : WriteResult := { errors := 1, firstError := some e }

/-! ### Tables -/

structure Row where
  key : Json
  doc : Doc
  keyed : doc.get "id" = some key
  usable : isPrimary key = true
  plain : doc.plain = true

structure Table where
  rows : Finmap (fun _ : Json => Doc)
  keyed : ∀ {k d}, rows.lookup k = some d → d.get "id" = some k
  usable : ∀ {k d}, rows.lookup k = some d → isPrimary k = true
  plain : ∀ {k d}, rows.lookup k = some d → d.plain = true

namespace Table

def get (t : Table) (k : Json) : Option Doc := t.rows.lookup k

def empty : Table := ⟨∅, by simp, by simp, by simp⟩

lemma lookup_insert_cases {rows : Finmap (fun _ : Json => Doc)} {key k : Json} {doc d : Doc}
    (h : (rows.insert key doc).lookup k = some d) :
    (k = key ∧ d = doc) ∨ rows.lookup k = some d := by
  by_cases hk : k = key
  · subst hk
    rw [Finmap.lookup_insert] at h
    exact Or.inl ⟨rfl, (Option.some.inj h).symm⟩
  · rw [Finmap.lookup_insert_of_ne _ hk] at h
    exact Or.inr h

def put (t : Table) (row : Row) : Table where
  rows := t.rows.insert row.key row.doc
  keyed := by
    intro k d h
    rcases lookup_insert_cases h with ⟨rfl, rfl⟩ | hold
    · exact row.keyed
    · exact t.keyed hold
  usable := by
    intro k d h
    rcases lookup_insert_cases h with ⟨rfl, rfl⟩ | hold
    · exact row.usable
    · exact t.usable hold
  plain := by
    intro k d h
    rcases lookup_insert_cases h with ⟨rfl, rfl⟩ | hold
    · exact row.plain
    · exact t.plain hold

/-- The result of reading the whole table; the server promises no order. -/
def docs (t : Table) : Multiset Doc := t.rows.entries.map Sigma.snd

def select (t : Table) (p : Doc → Bool) : Multiset Doc := t.docs.filter fun d => p d = true

@[simp] lemma get_empty (k : Json) : empty.get k = none := Finmap.lookup_empty k

lemma get_id {t : Table} {k : Json} {d : Doc} (h : t.get k = some d) : d.get "id" = some k :=
  t.keyed h

lemma get_usable {t : Table} {k : Json} {d : Doc} (h : t.get k = some d) : isPrimary k = true :=
  t.usable h

lemma get_plain {t : Table} {k : Json} {d : Doc} (h : t.get k = some d) : d.plain = true :=
  t.plain h

lemma ext_get {t t' : Table} (h : ∀ k, t.get k = t'.get k) : t = t' := by
  have hr : t.rows = t'.rows := Finmap.ext_lookup h
  cases t
  cases t'
  simp_all

lemma get_put (t : Table) (row : Row) (k : Json) :
    (t.put row).get k = if k = row.key then some row.doc else t.get k := by
  by_cases hk : k = row.key
  · subst hk
    rw [if_pos rfl]
    exact Finmap.lookup_insert t.rows
  · rw [if_neg hk]
    exact Finmap.lookup_insert_of_ne t.rows hk

lemma mem_docs {t : Table} {d : Doc} : d ∈ t.docs ↔ ∃ k, t.get k = some d := by
  unfold docs
  rw [Multiset.mem_map]
  constructor
  · rintro ⟨⟨k, e⟩, he, rfl⟩
    exact ⟨k, Finmap.lookup_eq_some_iff.mpr he⟩
  · rintro ⟨k, hk⟩
    exact ⟨⟨k, d⟩, Finmap.lookup_eq_some_iff.mp hk, rfl⟩

lemma mem_select {t : Table} {p : Doc → Bool} {d : Doc} :
    d ∈ t.select p ↔ (∃ k, t.get k = some d) ∧ p d = true := by
  rw [select, Multiset.mem_filter, mem_docs]

lemma docs_nodup (t : Table) : t.docs.Nodup := by
  refine Multiset.Nodup.map_on ?_ t.rows.nodup_entries
  rintro ⟨k, d⟩ hk ⟨k', d'⟩ hk' rfl
  have h := t.keyed (Finmap.lookup_eq_some_iff.mpr hk)
  have h' := t.keyed (Finmap.lookup_eq_some_iff.mpr hk')
  rw [h] at h'
  obtain rfl := Option.some.inj h'
  rfl

lemma select_nodup (t : Table) (p : Doc → Bool) : (t.select p).Nodup := t.docs_nodup.filter _

lemma select_congr {t t' : Table} {p : Doc → Bool} {key : Json}
    (hsame : ∀ k, k ≠ key → t'.get k = t.get k)
    (hold : ∀ d, t.get key = some d → p d = false)
    (hnew : ∀ d, t'.get key = some d → p d = false) : t'.select p = t.select p := by
  -- a selection that neither the old nor the new document of a key belongs to does not notice
  -- the write
  refine (Multiset.Nodup.ext (t'.select_nodup p) (t.select_nodup p)).mpr fun d => ?_
  simp only [mem_select]
  refine and_congr_left fun hp => exists_congr fun k => ?_
  by_cases hk : k = key
  · subst hk
    constructor
    · intro h
      simp [hnew d h] at hp
    · intro h
      simp [hold d h] at hp
  · rw [hsame k hk]

end Table

/-! ### Insert -/

/-- As `maybe_generate_key`: a document without a key gets a generated one. -/
def maybeGenerateKey (uuid : String) (d : Doc) : Doc :=
  match d.get "id" with
  | none => d.set "id" (.str uuid) (by decide) (Json.isScalar_str uuid)
  | some _ => d

/-- The checks on one document: the fields as the server reads them, and the key by
`batched_insert`. -/
def validRow (d : Doc) : Except WriteError Row :=
  if hp : d.plain = true then
    match h : d.get "id" with
    | none => .error (.missingPrimaryKey d)
    | some key =>
      match hk : checkPrimary key with
      | .error e => .error (.badPrimaryKey e)
      | .ok _ => .ok ⟨key, d, h, by rw [isPrimary, hk]; rfl, hp⟩
  else .error (.pseudotype (.obj d.fields))

def prepare (uuid : String) (v : Value) : Except WriteError Row :=
  match v.doc? with
  | none => .error (.notAnObject v.json)
  | some d => validRow (maybeGenerateKey uuid d)

def generatedKey (uuid : String) (v : Value) : List String :=
  match v.doc? with
  | none => []
  | some d => if (d.get "id").isSome then [] else [uuid]

namespace Table

/-- As `resolve_insert_conflict` without a conflict option. -/
def insertRow (t : Table) (row : Row) : Table × WriteResult :=
  match t.get row.key with
  | some old => (t, .failed (.duplicatePrimaryKey old row.doc))
  | none => (t.put row, { inserted := 1 })

def insertRows : Table → List Row → Table × WriteResult
  | t, [] => (t, {})
  | t, row :: rows =>
    let first := t.insertRow row
    let rest := insertRows first.1 rows
    (rest.1, first.2.merge rest.2)

end Table

def prepared (uuid : ℕ → String) (data : Body) : List (Except WriteError Row) :=
  data.values.mapIdx fun i v => prepare (uuid i) v

def validRows (uuid : ℕ → String) (data : Body) : List Row :=
  (prepared uuid data).filterMap Except.toOption

def trivialErrors (uuid : ℕ → String) (data : Body) : WriteResult :=
  (prepared uuid data).foldr (fun r acc =>
    match r with
    | .ok _ => acc
    | .error e => (WriteResult.failed e).merge acc) {}

/-- As `insert_term_t` on an object or an array of objects. -/
def Table.insert (uuid : ℕ → String) (t : Table) (data : Body) : Table × WriteResult :=
  let out := t.insertRows (validRows uuid data)
  (out.1, { (trivialErrors uuid data).merge out.2 with
    generatedKeys := (data.values.mapIdx fun i v => generatedKey (uuid i) v).flatten })

namespace Table

lemma insertRow_get (t : Table) (row : Row) (k : Json) :
    (t.insertRow row).1.get k = (t.get k).or (if k = row.key then some row.doc else none) := by
  unfold insertRow
  cases hrow : t.get row.key with
  | some old =>
    by_cases hk : k = row.key
    · simp [hk, hrow]
    · simp [hk]
  | none =>
    simp only [get_put]
    by_cases hk : k = row.key
    · simp [hk, hrow]
    · simp [hk]

theorem insertRows_get_some {t : Table} {k : Json} {d : Doc} (h : t.get k = some d)
    (rows : List Row) : (t.insertRows rows).1.get k = some d := by
  induction rows generalizing t with
  | nil => exact h
  | cons row rows ih =>
    apply ih
    rw [insertRow_get, h, Option.some_or]

theorem insertRows_get_cases {t : Table} {rows : List Row} {k : Json} {d : Doc}
    (h : (t.insertRows rows).1.get k = some d) :
    t.get k = some d ∨ (t.get k = none ∧ ∃ row ∈ rows, row.key = k ∧ row.doc = d) := by
  induction rows generalizing t with
  | nil => exact Or.inl h
  | cons row rows ih =>
    rcases ih h with hfirst | ⟨hnone, row', hm, hk, hd⟩
    · rw [insertRow_get] at hfirst
      cases hg : t.get k with
      | some old =>
        rw [hg, Option.some_or] at hfirst
        exact Or.inl hfirst
      | none =>
        rw [hg, Option.none_or] at hfirst
        by_cases hk : k = row.key
        · rw [if_pos hk] at hfirst
          exact Or.inr ⟨rfl, row, by simp, hk.symm, Option.some.inj hfirst⟩
        · simp [hk] at hfirst
    · rw [insertRow_get] at hnone
      have hg : t.get k = none := (Option.or_eq_none_iff.mp hnone).1
      exact Or.inr ⟨hg, row', by simp [hm], hk, hd⟩

/-- An insert leaves the table as it is exactly when every valid key is taken. -/
theorem insertRows_eq_self {t : Table} {rows : List Row} :
    (t.insertRows rows).1 = t ↔ ∀ row ∈ rows, (t.get row.key).isSome = true := by
  induction rows generalizing t with
  | nil => simp [insertRows]
  | cons row rows ih =>
    constructor
    · intro h row' hrow'
      have hfirst : (t.get row.key).isSome = true := by
        have hkept := insertRows_get_some (t := (t.insertRow row).1) (k := row.key)
          (d := ((t.get row.key).or (some row.doc)).get (by simp))
          (by rw [insertRow_get]; simp) rows
        change ((t.insertRows (row :: rows)).1).get row.key = _ at hkept
        rw [h] at hkept
        exact Option.isSome_iff_exists.mpr ⟨_, hkept⟩
      have hsame : (t.insertRow row).1 = t := by
        obtain ⟨old, hold⟩ := Option.isSome_iff_exists.mp hfirst
        simp [insertRow, hold]
      have hrest : (t.insertRows rows).1 = t := by
        have hh : ((t.insertRow row).1.insertRows rows).1 = t := h
        rwa [hsame] at hh
      rcases List.mem_cons.mp hrow' with rfl | hm
      · exact hfirst
      · exact ih.mp hrest row' hm
    · intro h
      obtain ⟨old, hold⟩ := Option.isSome_iff_exists.mp (h row (by simp))
      have hsame : (t.insertRow row).1 = t := by simp [insertRow, hold]
      change ((t.insertRow row).1.insertRows rows).1 = t
      rw [hsame]
      exact ih.mpr fun row' hm => h row' (by simp [hm])

lemma insert_table (uuid : ℕ → String) (t : Table) (data : Body) :
    (t.insert uuid data).1 = (t.insertRows (validRows uuid data)).1 := rfl

theorem insert_get_some {t : Table} {k : Json} {d : Doc} (h : t.get k = some d)
    (uuid : ℕ → String) (data : Body) : (t.insert uuid data).1.get k = some d :=
  insertRows_get_some h _

end Table

/-! ### Update of one key -/

/-- The query `get(id).update(data)`, with the checks of `rcheck_row_replacement`.
The body is evaluated for the row, so that a refused one is an error of the row. -/
def Table.update (t : Table) (id : String) (data : Body) : Table × WriteResult :=
  match hold : t.get (.str id) with
  | none => (t, { skipped := 1 })
  | some old =>
    match data with
    | .array items =>
      (t, .failed (if (Body.array items).json.plain then .notAnObject (Body.array items).json
        else .pseudotype (Body.array items).json))
    | .object d =>
      if hp : d.plain = true then
        if h : (old.merge d).get "id" = some (.str id) then
          if old.merge d = old then (t, { unchanged := 1 })
          else (t.put ⟨.str id, old.merge d, h, Table.get_usable hold,
            Doc.merge_plain (Table.get_plain hold) hp⟩, { replaced := 1 })
        else (t, .failed (.primaryKeyChanged old (old.merge d)))
      else (t, .failed (.pseudotype (.obj d.fields)))

namespace Table

lemma update_absent {t : Table} {id : String} (h : t.get (.str id) = none) (data : Body) :
    t.update id data = (t, { skipped := 1 }) := by
  unfold update
  split
  · rfl
  · rename_i old hold
    rw [h] at hold
    cases hold

lemma update_refused {t : Table} {id : String} {old d : Doc} (h : t.get (.str id) = some old)
    (hd : d.plain ≠ true) :
    t.update id (.object d) = (t, .failed (.pseudotype (.obj d.fields))) := by
  unfold update
  split
  · rename_i hold
    rw [h] at hold
    cases hold
  · simp [hd]

lemma update_present {t : Table} {id : String} {old d : Doc} (h : t.get (.str id) = some old)
    (hd : d.plain = true) :
    t.update id (.object d) =
      if hid : (old.merge d).get "id" = some (.str id) then
        if old.merge d = old then (t, { unchanged := 1 })
        else (t.put ⟨.str id, old.merge d, hid, get_usable h, Doc.merge_plain (get_plain h) hd⟩,
          { replaced := 1 })
      else (t, .failed (.primaryKeyChanged old (old.merge d))) := by
  unfold update
  split
  · rename_i hold
    rw [h] at hold
    cases hold
  · rename_i old' hold
    obtain rfl : old' = old := Option.some.inj (hold.symm.trans h)
    simp [hd]

theorem update_get (t : Table) (id : String) (d : Doc) (k : Json) :
    (t.update id (.object d)).1.get k =
      if k = .str id then (t.get k).map (Doc.apply · d) else t.get k := by
  cases hg : t.get (.str id) with
  | none =>
    rw [update_absent hg]
    by_cases hk : k = .str id
    · simp [hk, hg]
    · simp [hk]
  | some old =>
    have hid : old.get "id" = some (.str id) := t.get_id hg
    by_cases hd : d.plain = true
    · rw [update_present hg hd]
      by_cases hk : k = .str id
      · subst hk
        rw [if_pos rfl, hg, Option.map_some, Doc.apply, hid]
        simp only [hd, true_and]
        split_ifs with h hsame
        · rw [hsame]
          exact hg
        · simp [get_put]
        · exact hg
      · rw [if_neg hk]
        split_ifs with h hsame
        · rfl
        · simp [get_put, hk]
        · rfl
    · rw [update_refused hg hd]
      by_cases hk : k = .str id
      · subst hk
        rw [if_pos rfl, hg, Option.map_some, Doc.apply, if_neg fun h => hd h.1]
      · rw [if_neg hk]

lemma update_array (t : Table) (id : String) (items : List Value) :
    (t.update id (.array items)).1 = t := by
  unfold update
  split <;> rfl

lemma update_present_array {t : Table} {id : String} {old : Doc} {items : List Value}
    (h : t.get (.str id) = some old) (hp : (Body.array items).plain = true) :
    t.update id (.array items) = (t, .failed (.notAnObject (Body.array items).json)) := by
  unfold update
  split
  · rename_i hold
    rw [h] at hold
    cases hold
  · rw [Body.plain] at hp
    simp [hp]

lemma update_get_none {t : Table} {k : Json} (h : t.get k = none) (id : String) (data : Body) :
    (t.update id data).1.get k = none := by
  cases data with
  | array items => rw [update_array, h]
  | object d =>
    rw [update_get, h]
    split_ifs <;> rfl

lemma update_replaced_zero {t : Table} {id : String} {data : Body}
    (h : (t.update id data).2.replaced = 0) : (t.update id data).1 = t := by
  cases hg : t.get (.str id) with
  | none => rw [update_absent hg]
  | some old =>
    cases data with
    | array items => exact update_array t id items
    | object d =>
      by_cases hd : d.plain = true
      · rw [update_present hg hd] at h ⊢
        split_ifs at h ⊢
        · rfl
        · rfl
      · rw [update_refused hg hd]

lemma update_replaced {t : Table} {id : String} {d : Doc}
    (h : 0 < (t.update id (.object d)).2.replaced) :
    (t.get (.str id)).isSome = true ∧ d.plain = true ∧
      (d.get "id" = none ∨ d.get "id" = some (.str id)) := by
  cases hold : t.get (.str id) with
  | none =>
    rw [update_absent hold] at h
    cases h
  | some old =>
    by_cases hd : d.plain = true
    · refine ⟨rfl, hd, (Doc.merge_id_iff (t.get_id hold)).mp ?_⟩
      rw [update_present hold hd] at h
      by_contra hid
      rw [dif_neg hid] at h
      cases h
    · rw [update_refused hold hd] at h
      cases h

end Table

end PersonnelBackend.Database
