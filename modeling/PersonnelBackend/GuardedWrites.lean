import PersonnelBackend.GuardedPlans
import PersonnelBackend.DatabaseInsert

/-! What the write of a guarded request does to its table: it touches one key,
its target, and what it leaves there depends only on what it finds there. The
conflict decision is described by the documents that make it positive. -/
namespace PersonnelBackend.Guarded
open Document Database Express Resumption

/-- The fields compared with the rows of the conflict query. -/
def Resource.comparedFields : Resource → List String
  | .company => ["company_name"]
  | .employee => ["employee_position", "company_name"]

/-- The fields whose values make two records the same. -/
def Resource.keyFields (res : Resource) : List String := res.nameField :: res.comparedFields

lemma keyFields_ne_id {res : Resource} {f : String} (h : f ∈ res.keyFields) : f ≠ "id" := by
  rintro rfl
  cases res <;> simp [Resource.keyFields, Resource.nameField, Resource.comparedFields] at h

lemma merge_fields {res : Resource} (old : Doc) {d : Doc}
    (hscalar : ∀ f ∈ res.keyFields, ∀ v, d.get f = some v → v.isScalar = true) :
    ∀ f ∈ res.keyFields, (old.merge d).get f = (d.get f).or (old.get f) := by
  -- the key fields of an updated record are those of the body, and where the body leaves one
  -- out those of the old record
  intro f hf
  cases hd : d.get f with
  | none => rw [Doc.get_merge_none hd, Option.none_or]
  | some v => rw [Doc.get_merge_scalar hd (hscalar f hf v hd), Option.some_or]

/-! ### Active documents -/

def Active (d : Doc) : Prop := d.get "status" = some (.str "Active")

instance : DecidablePred Active := fun d => inferInstanceAs (Decidable (d.get "status" = _))

/-- The document under `k` is Active and carries `v` in the field `name`. -/
def ActiveNamed (t : Table) (name : String) (k : Json) (v : Json) : Prop :=
  ∃ d, t.get k = some d ∧ Active d ∧ d.get name = some v

lemma inactive_get (k : String) :
    Model.inactive.get k = if k = "status" then some (.str "Inactive") else none := by
  rw [Model.inactive, Doc.get_set, Doc.get_empty]

lemma not_active_merge {d e : Doc} (hd : ¬ Active d) (he : e.get "status" ≠ some (.str "Active")) :
    ¬ Active (d.merge e) := by
  intro h
  rw [Active, Doc.get_merge] at h
  cases hs : e.get "status" with
  | none =>
    rw [hs] at h
    exact hd h
  | some v =>
    rw [hs] at h
    exact he (by rw [hs, mergeField_eq_str (Option.some.inj h)])

lemma not_active_apply {d e : Doc} (hd : ¬ Active d) (he : e.get "status" ≠ some (.str "Active")) :
    ¬ Active (d.apply e) := by
  rcases d.apply_cases e with hmerge | hkept
  · rw [hmerge]
    exact not_active_merge hd he
  · rw [hkept]
    exact hd

lemma inactive_plain : Model.inactive.plain = true := rfl

lemma inactive_apply (d : Doc) : d.apply Model.inactive = d.merge Model.inactive :=
  Doc.apply_of_id_none inactive_plain (by rw [inactive_get]; rfl)

lemma not_active_apply_inactive (d : Doc) : ¬ Active (d.apply Model.inactive) := by
  rw [inactive_apply, Active, Doc.get_merge_scalar (by rw [inactive_get]; rfl) rfl]
  decide

/-! ### The write of a request -/

namespace WriteOp

def doc? : WriteOp → Option Doc
  | .post (.object d) => some d
  | .put _ (.object d) => some d
  | .delete _ => some Model.inactive
  | _ => none

/-- The key a request addresses or would insert under. -/
def target (uuid : ℕ → String) : WriteOp → Option Json
  | .post (.object d) => some (newKey uuid d)
  | .post (.array _) => none
  | .put id _ => some (.str id)
  | .delete id => some (.str id)

def mutation (res : Resource) : WriteOp → Mutation
  | .post body => .insert res.table body
  | .put id body => .update res.table id body
  | .delete id => .update res.table id (.object Model.inactive)

def answer (res : Resource) : WriteOp → WriteResult → Answer
  | .post _ => res.created
  | .put _ _ => res.updated
  | .delete _ => res.deleted

def write (res : Resource) (op : WriteOp) : Write := ⟨op.mutation res, op.answer res⟩

def ending (res : Resource) (op : WriteOp) (reply : Except WriteError WriteResult) : Outcome :=
  (op.write res).ending reply

/-- The decision taken on the rows of the conflict query; a deletion asks none. -/
def conflict (res : Resource) (op : WriteOp) (rows : Multiset Doc) : Bool :=
  match op with
  | .post body => res.conflict body rows
  | .put _ body => res.conflict body rows
  | .delete _ => false

def field (op : WriteOp) (k : String) : Option Json :=
  match op with
  | .post body => body.field k
  | .put _ body => body.field k
  | .delete _ => none

/-- What the write of a request with an object body leaves under its target. -/
def outcome (uuid : ℕ → String) (op : WriteOp) (old : Option Doc) : Option Doc :=
  match op with
  | .post (.object d) =>
    old.or (if Admitted uuid d then some (maybeGenerateKey (uuid 0) d) else none)
  | .put _ (.object d) => old.map (Doc.apply · d)
  | .delete _ => old.map (Doc.apply · Model.inactive)
  | _ => old

end WriteOp

@[simp] lemma mutation_table (res : Resource) (op : WriteOp) :
    (op.mutation res).table = res.table := by
  cases op <;> rfl

theorem mutation_get (uuid : ℕ → String) (res : Resource) {op : WriteOp} {d : Doc}
    (hd : op.doc? = some d) (t : Table) (k : Json) :
    ((op.mutation res).onTable uuid t).1.get k =
      if op.target uuid = some k then op.outcome uuid (t.get k) else t.get k := by
  match op with
  | .post (.object e) =>
    rw [WriteOp.mutation]
    by_cases hp : e.plain = true
    · rw [onTable_insert (.object e) hp]
      simp only [insert_object_get, WriteOp.target, WriteOp.outcome, Option.some.injEq]
    · have hout : ¬ Admitted uuid e := fun h => hp h.1
      rw [onTable_insert_refused (.object e) hp]
      simp [WriteOp.outcome, hout]
  | .put id (.object e) =>
    simp only [WriteOp.mutation, onTable_update_table, Table.update_get, WriteOp.target,
      WriteOp.outcome, Option.some.injEq, eq_comm]
  | .delete id =>
    simp only [WriteOp.mutation, onTable_update_table, Table.update_get, WriteOp.target,
      WriteOp.outcome, Option.some.injEq, eq_comm]

lemma update_result_congr {t t' : Table} {id : String} {e : Doc}
    (h : t'.get (.str id) = t.get (.str id)) :
    (t'.update id (.object e)).2 = (t.update id (.object e)).2 := by
  cases hold : t.get (.str id) with
  | none => rw [Table.update_absent hold, Table.update_absent (h.trans hold)]
  | some old =>
    by_cases hp : e.plain = true
    · rw [Table.update_present hold hp, Table.update_present (h.trans hold) hp]
      split_ifs <;> rfl
    · rw [Table.update_refused hold hp, Table.update_refused (h.trans hold) hp]

lemma onTable_update_result_congr (uuid : ℕ → String) (name : TableName) {t t' : Table}
    {id : String} {e : Doc} (h : t'.get (.str id) = t.get (.str id)) :
    ((Mutation.update name id (.object e)).onTable uuid t').2 =
      ((Mutation.update name id (.object e)).onTable uuid t).2 := by
  rw [Mutation.onTable, Mutation.onTable, update_result_congr h]
  cases checkPrimary (.str id) <;> rfl

lemma insert_result_congr {uuid : ℕ → String} {t t' : Table} {e : Doc}
    (h : t'.get (newKey uuid e) = t.get (newKey uuid e)) :
    (t'.insert uuid (.object e)).2 = (t.insert uuid (.object e)).2 := by
  have hrows : (t'.insertRows (validRows uuid (.object e))).2 =
      (t.insertRows (validRows uuid (.object e))).2 := by
    rw [validRows_object]
    by_cases ha : Admitted uuid e
    · have hk : t'.get (newRow uuid e ha).key = t.get (newRow uuid e ha).key := h
      rw [validRow_of_admitted ha]
      simp only [Option.toList_some, Table.insertRows, Table.insertRow, hk]
      cases t.get (newRow uuid e ha).key <;> rfl
    · rw [validRow_of_not_admitted ha]
      rfl
  simp only [Table.insert, hrows]

theorem mutation_result_congr (uuid : ℕ → String) (res : Resource) {op : WriteOp} {d : Doc}
    (hd : op.doc? = some d) {t t' : Table}
    (h : ∀ k, op.target uuid = some k → t'.get k = t.get k) :
    ((op.mutation res).onTable uuid t').2 = ((op.mutation res).onTable uuid t).2 := by
  match op with
  | .post (.object e) =>
    rw [WriteOp.mutation]
    by_cases hp : e.plain = true
    · rw [onTable_insert (.object e) hp, onTable_insert (.object e) hp,
        insert_result_congr (h _ rfl)]
    · rw [onTable_insert_refused (.object e) hp, onTable_insert_refused (.object e) hp]
  | .put id (.object e) => exact onTable_update_result_congr uuid res.table (h _ rfl)
  | .delete id => exact onTable_update_result_congr uuid res.table (h _ rfl)

lemma outcome_field {uuid : ℕ → String} {op : WriteOp} {k : String} (hk : k ≠ "id") {v : Json}
    (hv : op.field k = some v) {old : Option Doc} {new : Doc} (h : op.outcome uuid old = some new) :
    old = some new ∨ ∃ prior, new.get k = some (mergeField prior v) := by
  match op with
  | .post (.object d) =>
    cases old with
    | some o => exact Or.inl h
    | none =>
      simp only [WriteOp.outcome, Option.none_or] at h
      split_ifs at h
      obtain rfl := Option.some.inj h
      exact Or.inr ⟨none, (maybeGenerateKey_get _ _ hk).trans hv⟩
  | .put id (.object d) =>
    simp only [WriteOp.outcome, Option.map_eq_some_iff] at h
    obtain ⟨o, rfl, rfl⟩ := h
    rcases o.apply_cases d with hmerge | hkept
    · refine Or.inr ⟨o.get k, ?_⟩
      rw [hmerge, Doc.get_merge, show d.get k = some v from hv]
    · rw [hkept]
      exact Or.inl rfl

/-! ### The plans, inverted -/

lemma doc?_of_field {op : WriteOp} {k : String} {n : Json} (h : op.field k = some n) :
    ∃ d, op.doc? = some d ∧ d.get k = some n := by
  match op with
  | .post (.object d) => exact ⟨d, rfl, h⟩
  | .put id (.object d) => exact ⟨d, rfl, h⟩

variable {dash : Driver}

lemma sendBody_inr {body : Body} {w w' : Write} (h : sendBody dash body w = .inr w') : w' = w := by
  unfold sendBody at h
  split_ifs at h
  exact (Sum.inr.inj h).symm

lemma guarded_eq_check {res : Resource} {body : Body}
    {verdict verdict' : Multiset Doc → Outcome ⊕ Write} {table : TableName} {predicate : Fields}
    (h : guarded dash res body verdict = .check table predicate verdict') :
    ∃ n, body.field res.nameField = some n ∧ table = res.table ∧
      predicate = activePattern res.nameField n ∧ verdict' = verdict := by
  unfold guarded at h
  split at h
  · cases h
  · rename_i n hn
    split_ifs at h
    cases h
    exact ⟨n, hn, rfl, rfl, rfl⟩

lemma guarded_ne_write {res : Resource} {body : Body} {verdict : Multiset Doc → Outcome ⊕ Write}
    {w : Write} : guarded dash res body verdict ≠ .write w := by
  unfold guarded
  split
  · simp
  · split_ifs <;> simp

/-- A plan that starts with a conflict query asks for the name in the body, and
its only write is the request's own, made after a query without conflict; the
rows matter only through the conflict decision. -/
theorem plan_check {res : Resource} {op : WriteOp} {table : TableName} {predicate : Fields}
    {verdict : Multiset Doc → Outcome ⊕ Write}
    (h : plan dash res op = .check table predicate verdict) :
    ∃ n, op.field res.nameField = some n ∧ table = res.table ∧
      predicate = activePattern res.nameField n ∧
      (∀ rows w, verdict rows = .inr w → w = op.write res ∧ op.conflict res rows = false) ∧
      ∀ rows rows', op.conflict res rows = op.conflict res rows' →
      verdict rows = verdict rows' := by
  match op with
  | .post body =>
    rw [plan] at h
    obtain ⟨n, hn, rfl, rfl, rfl⟩ := guarded_eq_check h
    refine ⟨n, hn, rfl, rfl, fun rows w hw => ?_, fun rows rows' hc => ?_⟩
    · simp only [postVerdict] at hw
      split_ifs at hw with hc
      exact ⟨sendBody_inr hw, Bool.eq_false_iff.mpr hc⟩
    · simp only [WriteOp.conflict] at hc
      simp only [postVerdict, hc]
  | .put id body =>
    have hg : guarded dash res body (putVerdict dash res id body) =
        .check table predicate verdict := by
      cases res with
      | company => exact h
      | employee =>
        rw [plan] at h
        split_ifs at h
        exact h
    obtain ⟨n, hn, rfl, rfl, rfl⟩ := guarded_eq_check hg
    refine ⟨n, hn, rfl, rfl, fun rows w hw => ?_, fun rows rows' hc => ?_⟩
    · simp only [putVerdict] at hw
      split_ifs at hw with hid hc
      exact ⟨sendBody_inr hw, Bool.eq_false_iff.mpr hc⟩
    · simp only [WriteOp.conflict] at hc
      simp only [putVerdict, hc]
  | .delete id =>
    cases res with
    | company =>
      rw [plan] at h
      split_ifs at h
    | employee => cases h

theorem plan_write {res : Resource} {op : WriteOp} {w : Write} (h : plan dash res op = .write w) :
    (∃ id, op = .delete id) ∧ w = op.write res := by
  match res, op with
  | res, .post body => exact absurd h (by rw [plan]; exact guarded_ne_write)
  | .company, .put id body => exact absurd h guarded_ne_write
  | .employee, .put id body =>
    rw [plan] at h
    split_ifs at h
    exact absurd h guarded_ne_write
  | .company, .delete id =>
    rw [plan] at h
    split_ifs at h
    cases h
    exact ⟨⟨id, rfl⟩, rfl⟩
  | .employee, .delete id =>
    cases h
    exact ⟨⟨id, rfl⟩, rfl⟩

/-! ### The rows of a conflict query -/

lemma mem_active_rows {s : Store} {table : TableName} {name : String} {n : Json} {d : Doc}
    (hn : n.isScalar = true) :
    d ∈ (Query.filter table (activePattern name n)).answer s ↔
      (∃ k, (s.table table).get k = some d) ∧ d.get name = some n ∧ Active d := by
  rw [Query.answer, Table.mem_select]
  refine and_congr_right fun _ => ?_
  rw [activePattern, Fields.matches_cons, Fields.matches_cons]
  constructor
  · rintro ⟨⟨elt, helt, hm⟩, ⟨elt', helt', hm'⟩, -⟩
    rw [(Json.matches_scalar hn).mp hm] at helt
    rw [(Json.matches_scalar rfl).mp hm'] at helt'
    exact ⟨helt, helt'⟩
  · rintro ⟨hname, hactive⟩
    exact ⟨⟨n, hname, (Json.matches_scalar hn).mpr rfl⟩,
      ⟨_, hactive, (Json.matches_scalar rfl).mpr rfl⟩, Fields.matches_nil _⟩

lemma includes_map_iff {rows : Multiset Doc} {name : String} {x : Option Json} :
    includes (rows.map fun item => item.get name) x = true ↔
      (∀ v, x = some v → v.isScalar = true) ∧ ∃ d ∈ rows, d.get name = x := by
  cases x with
  | none => simp [includes]
  | some v => simp [includes]

theorem conflict_iff {res : Resource} {op : WriteOp} {k : String} {n : Json}
    (hn : op.field k = some n) {rows : Multiset Doc} :
    op.conflict res rows = true ↔ ∀ f ∈ res.comparedFields,
      (∀ v, op.field f = some v → v.isScalar = true) ∧ ∃ d ∈ rows, d.get f = op.field f := by
  have hall : op.conflict res rows = res.comparedFields.all fun f =>
      includes (rows.map fun item => item.get f) (op.field f) := by
    match op, res, hn with
    | .post body, .company, _ | .put id body, .company, _ | .post body, .employee, _
    | .put id body, .employee, _ =>
      simp [WriteOp.conflict, WriteOp.field, Resource.conflict, Resource.comparedFields]
  rw [hall, List.all_eq_true]
  exact forall₂_congr fun f _ => includes_map_iff

theorem company_conflict_iff {s : Store} {op : WriteOp} {n : Json}
    (hn : op.field "company_name" = some n) :
    op.conflict .company ((Query.filter .company (activePattern "company_name" n)).answer s) =
      true ↔
      n.isScalar = true ∧ ∃ k, ActiveNamed s.company "company_name" k n := by
  rw [conflict_iff hn]
  simp only [Resource.comparedFields, List.forall_mem_singleton, hn]
  constructor
  · rintro ⟨hs, d, hd, hname⟩
    have hsc := hs n rfl
    obtain ⟨⟨k, hk⟩, -, hactive⟩ := (mem_active_rows hsc).mp hd
    exact ⟨hsc, k, d, hk, hactive, hname⟩
  · rintro ⟨hsc, k, d, hk, hactive, hname⟩
    refine ⟨fun v hv => Option.some.inj hv ▸ hsc, d, ?_, hname⟩
    exact (mem_active_rows hsc).mpr ⟨⟨k, hk⟩, hname, hactive⟩

end PersonnelBackend.Guarded
