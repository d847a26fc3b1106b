import PersonnelBackend.GuardedHistories

/-! Whether Active records stay distinct in the fields that make a record. The
conflict check reads the fields of the body, while an update merges the body
into a stored record and keeps what the body leaves out. -/
namespace PersonnelBackend.DistinctRecords
open Document Database Express Resumption Router Histories Guarded

/-- No two Active records agree on all key fields; an absent field agrees only
with an absent field. -/
def Distinct (res : Resource) (t : Table) : Prop :=
  ∀ k k' d d', t.get k = some d → t.get k' = some d' → Active d → Active d' →
    (∀ f ∈ res.keyFields, d.get f = d'.get f) → k = k'

/-- An update that leaves out a compared field of the record it addresses, while
another Active record has the name of the body and, in the compared fields, the
values of the body or else of the addressed record. -/
def Blurs (res : Resource) (t : Table) (id : String) (body : Body) : Prop :=
  ∃ old k d, t.get (.str id) = some old ∧
    (∃ f ∈ res.comparedFields, body.field f = none ∧ (old.get f).isSome = true) ∧
    k ≠ .str id ∧ t.get k = some d ∧ Active d ∧ d.get res.nameField = body.field res.nameField ∧
    ∀ f ∈ res.comparedFields, d.get f = (body.field f).or (old.get f)

variable {dash : Driver} {res : Resource} {s : Store}

lemma Distinct.change {t t' : Table} {key : Json} (h : Distinct res t)
    (hsame : ∀ k, k ≠ key → t'.get k = t.get k)
    (hnew : ∀ new, t'.get key = some new → Active new → t.get key = some new ∨
      ∀ k d, k ≠ key → t.get k = some d → Active d → ¬ ∀ f ∈ res.keyFields, d.get f = new.get f) :
    Distinct res t' := by
  -- changing one key keeps the records distinct if the new record is not Active, is the old
  -- one, or agrees with no Active record under another key
  have hone : ∀ k d new, k ≠ key → t'.get k = some d → t'.get key = some new → Active d →
    Active new →
      ¬ ∀ f ∈ res.keyFields, d.get f = new.get f := by
    intro k d new hk hd hn hactive hactive' hagree
    rw [hsame k hk] at hd
    rcases hnew new hn hactive' with hold | hother
    · exact hk (h k key d new hd hold hactive hactive' hagree)
    · exact hother k d hk hd hactive hagree
  intro k k' d d' hd hd' hactive hactive' hagree
  by_cases hk : k = key
  · by_cases hk' : k' = key
    · rw [hk, hk']
    · rw [hk] at hd
      exact absurd (fun f hf => (hagree f hf).symm) (hone k' d' d hk' hd' hd hactive' hactive)
  · by_cases hk' : k' = key
    · rw [hk'] at hd'
      exact absurd hagree (hone k d d' hk hd hd' hactive hactive')
    · rw [hsame k hk] at hd
      rw [hsame k' hk'] at hd'
      exact h k k' d d' hd hd' hactive hactive' hagree

/-! ### One request -/

lemma post_fields {ids : ℕ → String} {d new : Doc}
    (h : (WriteOp.post (.object d)).outcome ids none = some new) :
    ∀ f ∈ res.keyFields, new.get f = d.get f := by
  intro f hf
  simp only [WriteOp.outcome, Option.none_or] at h
  split_ifs at h
  obtain rfl := Option.some.inj h
  exact maybeGenerateKey_get _ _ (keyFields_ne_id hf)

lemma accepted_agrees_with_none (op : WriteOp) {new : Doc} {n : Json}
    (hname : op.field res.nameField = some n)
    (hscalar : ∀ f ∈ res.keyFields, ∀ v, op.field f = some v → v.isScalar = true)
    (hclear : op.clear res s = true) (hfields : ∀ f ∈ res.keyFields, new.get f = op.field f)
    {k : Json} {d : Doc} (hk : (s.table res.table).get k = some d) (hactive : Active d) :
    ¬ ∀ f ∈ res.keyFields, d.get f = new.get f := by
  intro hagree
  have hfalse :=
    clear_eq_false hname hscalar hk hactive fun f hf => (hagree f hf).trans (hfields f hf)
  rw [hclear] at hfalse
  cases hfalse

lemma merge_agrees_with_none {id : String} {old d : Doc} {n : Json}
    (hname : d.get res.nameField = some n)
    (hscalar : ∀ f ∈ res.keyFields, ∀ v, d.get f = some v → v.isScalar = true)
    (hclear : (WriteOp.put id (.object d)).clear res s = true)
    (hold : (s.table res.table).get (.str id) = some old)
    (hblurs : ¬ Blurs res (s.table res.table) id (.object d))
    {k : Json} {e : Doc} (hne : k ≠ .str id) (hk : (s.table res.table).get k = some e)
    (hactive : Active e) : ¬ ∀ f ∈ res.keyFields, e.get f = (old.merge d).get f := by
  -- a merge into the key fields of another Active record either repeats the body, which the
  -- check has excluded, or blurs the two
  have hmerge := merge_fields old hscalar
  by_cases hleft : ∃ f ∈ res.comparedFields, d.get f = none ∧ (old.get f).isSome = true
  · intro hagree
    refine hblurs ⟨old, k, e, hold, hleft, hne, hk, hactive, ?_, fun f hf => ?_⟩
    · rw [hagree _ List.mem_cons_self, hmerge _ List.mem_cons_self, hname]
      exact hname.symm
    · have hf' : f ∈ res.keyFields := List.mem_cons_of_mem _ hf
      exact (hagree f hf').trans (hmerge f hf')
  · refine accepted_agrees_with_none (.put id (.object d)) hname hscalar hclear ?_ hk hactive
    intro f hf
    rw [hmerge f hf]
    cases hd : d.get f with
    | some v =>
      rw [Option.some_or]
      exact hd.symm
    | none =>
      rw [Option.none_or]
      rcases List.mem_cons.mp hf with rfl | hf'
      · rw [hname] at hd
        cases hd
      · have hnone : old.get f = none := by
          by_contra hsome
          exact hleft ⟨f, hf', hd, Option.isSome_iff_ne_none.mpr hsome⟩
        rw [hnone]
        exact hd.symm

lemma post_distinct {ids : ℕ → String} {d : Doc}
    (hscalar : ∀ f ∈ res.keyFields, ∀ v, d.get f = some v → v.isScalar = true)
    (ha : Accepted dash res (.post (.object d)) s) (h : Distinct res (s.table res.table)) :
    Distinct res ((respond dash s (Act.entry res ⟨ids, .post (.object d)⟩)).2.table res.table) := by
  refine h.change (fun k hk => respond_get_ne rfl hk) fun new hnew _ => ?_
  rw [respond_get_target ha rfl] at hnew
  obtain ⟨⟨hname, -⟩, hclear⟩ := ha
  obtain ⟨n, hn, -⟩ := Body.readable_iff.mp hname
  cases hold : (s.table res.table).get (newKey ids d) with
  | some old =>
    rw [hold] at hnew
    exact Or.inl hnew
  | none =>
    rw [hold] at hnew
    exact Or.inr fun k e _ hk he =>
      accepted_agrees_with_none (.post (.object d)) hn hscalar hclear (post_fields hnew) hk he

lemma put_distinct {ids : ℕ → String} {id : String} {d : Doc}
    (hscalar : ∀ f ∈ res.keyFields, ∀ v, d.get f = some v → v.isScalar = true)
    (hblurs : ¬ Blurs res (s.table res.table) id (.object d))
    (ha : Accepted dash res (.put id (.object d)) s) (h : Distinct res (s.table res.table)) :
    Distinct res ((respond dash s (Act.entry res ⟨ids, .put id (.object d)⟩)).2.table
      res.table) := by
  refine h.change (fun k hk => respond_get_ne rfl hk) fun new hnew _ => ?_
  rw [respond_get_target ha rfl, WriteOp.outcome, Option.map_eq_some_iff] at hnew
  obtain ⟨old, hold, rfl⟩ := hnew
  obtain ⟨-, ⟨hname, -⟩, hclear⟩ := ha
  obtain ⟨n, hn, -⟩ := Body.readable_iff.mp hname
  rcases old.apply_cases d with hmerge | hkept
  · rw [hmerge]
    exact Or.inr fun k e hne hk he => merge_agrees_with_none hn hscalar hclear hold hblurs hne hk he
  · rw [hkept]
    exact Or.inl hold

lemma delete_distinct {ids : ℕ → String} {id : String} (ha : Accepted dash res (.delete id) s)
    (h : Distinct res (s.table res.table)) :
    Distinct res ((respond dash s (Act.entry res ⟨ids, .delete id⟩)).2.table res.table) := by
  refine h.change (fun k hk => respond_get_ne rfl hk) fun new hnew hactive => ?_
  rw [respond_get_target ha rfl, WriteOp.outcome, Option.map_eq_some_iff] at hnew
  obtain ⟨old, -, rfl⟩ := hnew
  exact absurd hactive (not_active_apply_inactive old)

theorem respond_distinct (res : Resource) {a : Act}
    (hscalar : ∀ f ∈ res.keyFields, ∀ v, a.op.field f = some v → v.isScalar = true)
    (hblurs : ∀ id body, a.op = .put id body → Accepted dash res a.op s →
      ¬ Blurs res (s.table res.table) id body)
    (h : Distinct res (s.table res.table)) :
    Distinct res ((respond dash s (a.entry res)).2.table res.table) := by
  by_cases ha : Accepted dash res a.op s
  · match a with
    | ⟨ids, .post (.object d)⟩ => exact post_distinct hscalar ha h
    | ⟨ids, .put id (.object d)⟩ => exact put_distinct hscalar (hblurs id _ rfl ha) ha h
    | ⟨ids, .delete id⟩ => exact delete_distinct ha h
    | ⟨ids, .post (.array items)⟩ => exact absurd ha.1.1 (by simp [Body.readable, Body.field])
    | ⟨ids, .put id (.array items)⟩ => exact absurd ha.2.1.1 (by simp [Body.readable, Body.field])
  · rw [respond_refused ha]
    exact h

/-! ### Histories -/

lemma distinct_empty : Distinct res .empty := by
  intro k k' d d' hd
  rw [Table.get_empty] at hd
  cases hd

/-- Sequential company requests keep the names of Active companies distinct: an
update that gets through carries the name. -/
theorem companies_distinct (dash : Driver) (s : Store) (hs : s.company = .empty) (acts : List Act)
    (hscalar : ∀ a ∈ acts, ∀ v, a.op.field "company_name" = some v → v.isScalar = true) :
    Distinct .company (since dash .company s acts).company := by
  refine since_invariant (I := fun s => Distinct .company s.company)
    (by rw [hs]; exact distinct_empty) ?_
  intro front a post hsplit h
  refine respond_distinct .company (fun f hf v hv => ?_) ?_ h
  · obtain rfl : f = "company_name" := by
      simpa [Resource.keyFields, Resource.nameField, Resource.comparedFields] using hf
    exact hscalar a (by simp [hsplit]) v hv
  · rintro id body hop ha ⟨old, k, d, -, ⟨f, hf, hnone, -⟩, -⟩
    obtain rfl : f = "company_name" := by simpa [Resource.comparedFields] using hf
    rw [hop] at ha
    obtain ⟨n, hn, -⟩ := Body.readable_iff.mp ha.2.1.1
    exact absurd (hnone.symm.trans hn) (by simp)

def clerk : Doc := Doc.strings [("company_name", "Acme"), ("employee_name", "ann"),
  ("employee_position", "clerk"), ("status", "Active")]

def cook : Doc := Doc.strings [("company_name", "Acme"), ("employee_name", "ann"),
  ("employee_position", "cook"), ("status", "Active")]

def hired : List Act :=
  [⟨fun _ => "a", .post (.object clerk)⟩, ⟨fun _ => "b", .post (.object cook)⟩]

def promotion (position : String) : Act :=
  ⟨fun _ => "", .put "b" (.object
    (Doc.strings [("employee_name", "ann"), ("employee_position", position)]))⟩

lemma promotion_scalar (position : String) : ∀ a ∈ hired ++ [promotion position],
    ∀ f ∈ Resource.employee.keyFields, ∀ v, a.op.field f = some v → v.isScalar = true := by
  intro a ha f _ v hv
  simp only [hired, promotion, List.cons_append, List.nil_append, List.mem_cons, List.not_mem_nil,
    or_false] at ha
  rcases ha with rfl | rfl | rfl <;> exact Doc.strings_isScalar hv

end PersonnelBackend.DistinctRecords
