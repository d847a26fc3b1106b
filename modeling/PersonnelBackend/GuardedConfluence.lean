import PersonnelBackend.GuardedRuns

/-! Requests that do not meet are confluent. No write moves a record into or out
of the conflict query of another request, and writes under different keys
commute; so every interleaving ends in the same table with the same answers. -/
namespace PersonnelBackend.Guarded
open Document Database Express Resumption Router

variable {ι : Type} {dash : Driver} {res : Resource} {uuid : ι → ℕ → String} {ops : ι → WriteOp}

/-- The requests address or insert different keys, and the scalar name in the
body of one is neither in the body of another nor stored at the start under the
key of another. -/
structure Independent (res : Resource) (uuid : ι → ℕ → String) (ops : ι → WriteOp) (s : Store) :
    Prop where
  keys : ∀ i j k, i ≠ j → (ops i).target (uuid i) = some k → (ops j).target (uuid j) ≠ some k
  names : ∀ i j n, i ≠ j → (ops i).field res.nameField = some n → n.isScalar = true →
    (ops j).field res.nameField ≠ some n
  stored : ∀ i j n k d, i ≠ j → (ops i).field res.nameField = some n → n.isScalar = true →
    (ops j).target (uuid j) = some k → (s.table res.table).get k = some d →
    d.get res.nameField ≠ some n

/-- The scalar name of a request is never stored under the key of another. -/
def Apart (res : Resource) (uuid : ι → ℕ → String) (ops : ι → WriteOp) (t : Table) : Prop :=
  ∀ i j n k d, i ≠ j → (ops i).field res.nameField = some n → n.isScalar = true →
    (ops j).target (uuid j) = some k → t.get k = some d → d.get res.nameField ≠ some n

def Writer (res : Resource) (op : WriteOp) : Prop :=
  (∃ id, op = .delete id) ∨ ∃ n, op.field res.nameField = some n

/-! ### Writers -/

lemma writer_of_kind {op : WriteOp}
    (h : plan dash res op = .write (op.write res) ∨ ∃ table predicate verdict s,
      plan dash res op = .check table predicate verdict ∧
        judge verdict ((Query.filter table predicate).reply s) = .inr (op.write res)) :
    Writer res op := by
  rcases h with hplan | ⟨table, predicate, verdict, rows, hplan, -⟩
  · exact Or.inl (plan_write hplan).1
  · obtain ⟨n, hn, -⟩ := plan_check hplan
    exact Or.inr ⟨n, hn⟩

lemma Writer.doc {op : WriteOp} (h : Writer res op) (uuid : ℕ → String) :
    ∃ d k, op.doc? = some d ∧ op.target uuid = some k := by
  rcases h with ⟨id, rfl⟩ | ⟨n, hn⟩
  · exact ⟨_, _, rfl, rfl⟩
  · match op with
    | .post (.object d) => exact ⟨d, _, rfl, rfl⟩
    | .put id (.object d) => exact ⟨d, _, rfl, rfl⟩

lemma nameField_ne_id (res : Resource) : res.nameField ≠ "id" :=
  keyFields_ne_id (List.mem_cons_self : res.nameField ∈ res.keyFields)

lemma Writer.name {op : WriteOp} (h : Writer res op) {uuid : ℕ → String} {old : Option Doc}
    {new : Doc} (hnew : op.outcome uuid old = some new) {n : Json}
    (hn : new.get res.nameField = some n) (hs : n.isScalar = true) :
    (∃ o, old = some o ∧ o.get res.nameField = some n) ∨ op.field res.nameField = some n := by
  rcases h with ⟨id, rfl⟩ | ⟨v, hv⟩
  · rw [WriteOp.outcome, Option.map_eq_some_iff] at hnew
    obtain ⟨o, ho, rfl⟩ := hnew
    have hnone : Model.inactive.get res.nameField = none := by
      rw [inactive_get]
      cases res <;> rfl
    rw [inactive_apply, Doc.get_merge_none hnone] at hn
    exact Or.inl ⟨o, ho, hn⟩
  · rcases outcome_field (nameField_ne_id res) hv hnew with hold | ⟨prior, hprior⟩
    · exact Or.inl ⟨new, hold, hn⟩
    · obtain rfl := Option.some.inj (hprior.symm.trans hn)
      rw [mergeField_isScalar] at hs
      rw [mergeField_of_isScalar prior hs]
      exact Or.inr hv

/-! ### Writes -/

def writeTo (res : Resource) (uuid : ℕ → String) (op : WriteOp) (t : Table) : Table :=
  ((op.mutation res).onTable uuid t).1

lemma writeTo_get {op : WriteOp} (h : Writer res op) (uuid : ℕ → String) (t : Table) (k : Json) :
    (writeTo res uuid op t).get k =
      if op.target uuid = some k then op.outcome uuid (t.get k) else t.get k := by
  obtain ⟨d, _, hd, -⟩ := h.doc uuid
  exact mutation_get uuid res hd t k

lemma writeTo_get_ne {op : WriteOp} (h : Writer res op) {uuid : ℕ → String} {k : Json}
    (hk : op.target uuid ≠ some k) (t : Table) : (writeTo res uuid op t).get k = t.get k := by
  rw [writeTo_get h, if_neg hk]

lemma writeTo_comm {op op' : WriteOp} (h : Writer res op) (h' : Writer res op')
    {uuid uuid' : ℕ → String} (hne : ∀ k, op.target uuid = some k → op'.target uuid' ≠ some k)
    (t : Table) :
    writeTo res uuid' op' (writeTo res uuid op t) =
      writeTo res uuid op (writeTo res uuid' op' t) := by
  refine Table.ext_get fun k => ?_
  rw [writeTo_get h', writeTo_get h, writeTo_get h, writeTo_get h']
  by_cases hk : op.target uuid = some k
  · rw [if_neg (hne k hk), if_pos hk, if_pos hk, if_neg (hne k hk)]
  · rw [if_neg hk, if_neg hk]

lemma result_writeTo {op op' : WriteOp} (h : Writer res op) (h' : Writer res op')
    {uuid uuid' : ℕ → String} (hne : ∀ k, op.target uuid = some k → op'.target uuid' ≠ some k)
    (t : Table) :
    ((op.mutation res).onTable uuid (writeTo res uuid' op' t)).2 =
      ((op.mutation res).onTable uuid t).2 := by
  obtain ⟨d, _, hd, -⟩ := h.doc uuid
  exact mutation_result_congr uuid res hd fun k hk => writeTo_get_ne h' (hne k hk) t

lemma Apart.writeTo {t : Table} (h : Apart res uuid ops t)
    (hkeys : ∀ i j k, i ≠ j → (ops i).target (uuid i) = some k → (ops j).target (uuid j) ≠ some k)
    (hnames : ∀ i j n, i ≠ j → (ops i).field res.nameField = some n → n.isScalar = true →
      (ops j).field res.nameField ≠ some n) {l : ι} (hl : Writer res (ops l)) :
    Apart res uuid ops (writeTo res (uuid l) (ops l) t) := by
  intro i j n k d hij hi hs hj hd hn
  by_cases hlj : l = j
  · subst hlj
    rw [writeTo_get hl, if_pos hj] at hd
    rcases hl.name hd hn hs with ⟨o, ho, hon⟩ | hown
    · exact h i l n k o hij hi hs hj ho hon
    · exact hnames i l n hij hi hs hown
  · rw [writeTo_get_ne hl fun hk => hkeys l j k hlj hk hj] at hd
    exact h i j n k d hij hi hs hj hd hn

/-! ### Queries -/

lemma verdict_writeTo {s : Store} {i j : ι} (hij : i ≠ j)
    (happart : Apart res uuid ops (s.table res.table))
    (happart' : Apart res uuid ops (writeTo res (uuid j) (ops j) (s.table res.table)))
    (hj : Writer res (ops j)) {n : Json} (hn : (ops i).field res.nameField = some n)
    (hscalar : res = .employee → n.isScalar = true) :
    (ops i).conflict res ((Query.filter res.table (activePattern res.nameField n)).answer
      (s.setTable res.table (writeTo res (uuid j) (ops j) (s.table res.table)))) =
    (ops i).conflict res ((Query.filter res.table (activePattern res.nameField n)).answer s) := by
  by_cases hs : n.isScalar = true
  · obtain ⟨-, key, -, hkey⟩ := hj.doc (uuid j)
    have hmiss : ∀ t : Table, Apart res uuid ops t → ∀ d, t.get key = some d →
        (activePattern res.nameField n).matches d.fields = false := by
      intro t ht d hd
      rw [Bool.eq_false_iff, ne_eq, activePattern, Fields.matches_cons]
      rintro ⟨⟨elt, helt, hm⟩, -⟩
      rw [(Json.matches_scalar hs).mp hm] at helt
      exact ht i j n key d hij hn hs hkey hd helt
    congr 1
    rw [Query.answer, Query.answer, Store.table_setTable]
    refine Table.select_congr (fun k hk => writeTo_get_ne hj ?_ _) (hmiss _ happart)
      (hmiss _ happart')
    rw [hkey]
    exact fun he => hk (Option.some.inj he).symm
  · have hno : ∀ rows, (ops i).conflict res rows = false := by
      intro rows
      cases res with
      | employee => exact absurd (hscalar rfl) hs
      | company =>
        rw [Bool.eq_false_iff, ne_eq, conflict_iff hn]
        intro h
        exact hs ((h "company_name" (by simp [Resource.comparedFields])).1 n hn)
    rw [hno, hno]

/-! ### Steps -/

variable [DecidableEq ι]

/-- Every request is at one of its stages and no name is stored under the key of
another request. -/
structure Separate (dash : Driver) (res : Resource) (uuid : ι → ℕ → String) (ops : ι → WriteOp)
    (c : RequestPool ι) : Prop where
  stages : ∀ i, Stage dash ⟨res, ops i⟩ (c.progs i)
  apart : Apart res uuid ops (c.store.table res.table)

lemma Separate.step {s : Store} (hind : Independent res uuid ops s) {c : RequestPool ι}
    (hc : Separate dash res uuid ops c) (i : ι) :
    Separate dash res uuid ops (c.step (servers uuid) i) := by
  refine ⟨step_stage (fun j => ⟨res, ops j⟩) hc.stages i, ?_⟩
  rcases (hc.stages i).cases with ⟨outcome, hp⟩ | ⟨table, predicate, verdict, -, hp⟩ | ⟨hp, hkind⟩
  · rw [Pool.step_pure hp]
    exact hc.apart
  · rw [step_check hp]
    exact hc.apart
  · rw [step_write hp]
    simp only [Store.table_setTable]
    exact hc.apart.writeTo hind.keys hind.names (writer_of_kind hkind)

lemma check_write_comm {s : Store} (hind : Independent res uuid ops s)
    (hscalar : res = .employee → ∀ i n, (ops i).field "employee_name" = some n → n.isScalar = true)
    {c : RequestPool ι} (hc : Separate dash res uuid ops c) {i j : ι} (hij : i ≠ j)
    {table : TableName} {predicate : Fields} {verdict : Multiset Doc → Outcome ⊕ Write}
    (hplan : plan dash res (ops i) = .check table predicate verdict)
    (hi : c.progs i = (Plan.check table predicate verdict).process)
    (hj : c.progs j = ((⟨res, ops j⟩ : Job).write).process) (hw : Writer res (ops j)) :
    (c.step (servers uuid) i).step (servers uuid) j =
      (c.step (servers uuid) j).step (servers uuid) i := by
  obtain ⟨n, hn, rfl, rfl, -, hcongr⟩ := plan_check hplan
  have hj' : (c.step (servers uuid) i).progs j = ((⟨res, ops j⟩ : Job).write).process :=
    (Pool.step_progs_ne hij.symm).trans hj
  have hi' : (c.step (servers uuid) j).progs i = (Plan.check res.table
      (activePattern res.nameField n) verdict).process := (Pool.step_progs_ne hij).trans hi
  have hsame := hcongr _ _ (verdict_writeTo hij hc.apart
    (hc.apart.writeTo hind.keys hind.names hw) hw hn fun he => by
      subst he
      exact hscalar rfl i n hn)
  rw [step_write hj', step_check hi', step_check hi, step_write hj]
  simp only [Pool.mk.injEq, true_and]
  rw [Function.update_comm hij.symm]
  congr 2
  exact congrArg settle (judge_filter_congr hsame.symm)

lemma check_check_comm {c : RequestPool ι} {i j : ι} (hij : i ≠ j) {table table' : TableName}
    {predicate predicate' : Fields} {verdict verdict' : Multiset Doc → Outcome ⊕ Write}
    (hi : c.progs i = (Plan.check table predicate verdict).process)
    (hj : c.progs j = (Plan.check table' predicate' verdict').process) :
    (c.step (servers uuid) i).step (servers uuid) j =
      (c.step (servers uuid) j).step (servers uuid) i := by
  have hj' : (c.step (servers uuid) i).progs j = (Plan.check table' predicate' verdict').process :=
    (Pool.step_progs_ne hij.symm).trans hj
  have hi' : (c.step (servers uuid) j).progs i = (Plan.check table predicate verdict).process :=
    (Pool.step_progs_ne hij).trans hi
  rw [step_check hj', step_check hi', step_check hi, step_check hj]
  simp only [Pool.mk.injEq, true_and]
  exact Function.update_comm hij _ _ _

lemma write_write_comm {s : Store} (hind : Independent res uuid ops s) {c : RequestPool ι} {i j : ι}
    (hij : i ≠ j) (hi : c.progs i = ((⟨res, ops i⟩ : Job).write).process)
    (hj : c.progs j = ((⟨res, ops j⟩ : Job).write).process) (hwi : Writer res (ops i))
    (hwj : Writer res (ops j)) :
    (c.step (servers uuid) i).step (servers uuid) j =
      (c.step (servers uuid) j).step (servers uuid) i := by
  have hj' : (c.step (servers uuid) i).progs j = ((⟨res, ops j⟩ : Job).write).process :=
    (Pool.step_progs_ne hij.symm).trans hj
  have hi' : (c.step (servers uuid) j).progs i = ((⟨res, ops i⟩ : Job).write).process :=
    (Pool.step_progs_ne hij).trans hi
  have hcomm := writeTo_comm hwi hwj (fun k => hind.keys i j k hij) (c.store.table res.table)
  have hri := result_writeTo hwi hwj (fun k => hind.keys i j k hij) (c.store.table res.table)
  have hrj := result_writeTo hwj hwi (fun k => hind.keys j i k hij.symm) (c.store.table res.table)
  rw [step_write hj', step_write hi', step_write hi, step_write hj]
  simp only [Pool.mk.injEq, Store.table_setTable, Store.setTable_setTable]
  refine ⟨congrArg (c.store.setTable res.table) hcomm, ?_⟩
  rw [Function.update_comm hij]
  simp only [writeTo] at hri hrj
  simp only [Job.mutation, hri, hrj]

theorem Separate.comm {s : Store} (hind : Independent res uuid ops s)
    (hscalar : res = .employee → ∀ i n, (ops i).field "employee_name" = some n → n.isScalar = true)
    {c : RequestPool ι} (hc : Separate dash res uuid ops c) {i j : ι} (hij : i ≠ j) :
    (c.step (servers uuid) i).step (servers uuid) j =
      (c.step (servers uuid) j).step (servers uuid) i := by
  rcases (hc.stages i).cases with
    ⟨outcome, hi⟩ | ⟨table, predicate, verdict, hplan, hi⟩ | ⟨hi, hkind⟩
  · exact Pool.step_comm_of_pure hij hi
  · rcases (hc.stages j).cases with
      ⟨outcome, hj⟩ | ⟨table', predicate', verdict', -, hj⟩ | ⟨hj, hkind'⟩
    · exact (Pool.step_comm_of_pure hij.symm hj).symm
    · exact check_check_comm hij hi hj
    · exact check_write_comm hind hscalar hc hij hplan hi hj (writer_of_kind hkind')
  · rcases (hc.stages j).cases with ⟨outcome, hj⟩ | ⟨table', predicate', verdict', hplan', hj⟩ |
      ⟨hj, hkind'⟩
    · exact (Pool.step_comm_of_pure hij.symm hj).symm
    · exact (check_write_comm hind hscalar hc hij.symm hplan' hj hi (writer_of_kind hkind)).symm
    · exact write_write_comm hind hij hi hj (writer_of_kind hkind) (writer_of_kind hkind')

/-- Independent write requests on companies, or on employees whose names are
scalars, end in the same tables with the same answers in every interleaving. -/
theorem independent_confluent (dash : Driver) (res : Resource) (uuid : ι → ℕ → String)
    (ops : ι → WriteOp) (s : Store) (hind : Independent res uuid ops s)
    (hscalar : res = .employee → ∀ i n, (ops i).field "employee_name" = some n → n.isScalar = true)
    (a b : List ι) (ha : ((launch dash s fun i => res.request (ops i)).exec (servers uuid) a).Done)
    (hb : ((launch dash s fun i => res.request (ops i)).exec (servers uuid) b).Done) :
    ((launch dash s fun i => res.request (ops i)).exec (servers uuid) a).store =
      ((launch dash s fun i => res.request (ops i)).exec (servers uuid) b).store ∧
    ∀ i, ((launch dash s fun i => res.request (ops i)).exec (servers uuid) a).result i =
      ((launch dash s fun i => res.request (ops i)).exec (servers uuid) b).result i := by
  have hstart : Separate dash res uuid ops (launch dash s fun i => res.request (ops i)) :=
    ⟨launch_stage s fun i => ⟨res, ops i⟩, hind.stored⟩
  have heq :=
    Pool.done_unique (fun _ i hc => hc.step hind i) (fun _ i j hc hij => hc.comm hind hscalar hij)
    hstart ha hb
  exact ⟨by rw [heq], fun i => by rw [heq]⟩

def offices : Store := Store.empty.setTable .company
  ((Table.empty.insert (fun _ => "a") (.object (companyDoc "Acme"))).1.insert (fun _ => "b")
    (.object (companyDoc "Best"))).1

/-- One client renames the first company, one posts a third, one deletes the second. -/
def changes : Fin 3 → WriteOp
  | 0 => .put "a" (.object (companyDoc "Core"))
  | 1 => .post (.object (companyDoc "Dune"))
  | 2 => .delete "b"

def changeIds : Fin 3 → ℕ → String := fun _ _ => "c"

theorem independent_confluent_changes :
    ((launch official offices fun i => Resource.company.request (changes i)).exec
      (servers changeIds) [0, 0, 1, 1, 2]).store =
    ((launch official offices fun i => Resource.company.request (changes i)).exec
      (servers changeIds) [1, 0, 2, 1, 0]).store := by
  have hkeys : ∀ i j, i ≠ j →
      (changes i).target (changeIds i) ≠ (changes j).target (changeIds j) := by decide
  have hnames : ∀ i j, i ≠ j → (changes i).field "company_name" ≠ none →
      (changes i).field "company_name" ≠ (changes j).field "company_name" := by decide
  have hstored : ∀ i j, i ≠ j → (changes i).field "company_name" ≠ none →
      (((changes j).target (changeIds j)).bind offices.company.get).bind
        (Doc.get · "company_name") ≠
        (changes i).field "company_name" := by decide
  have hsome : ∀ {i n}, (changes i).field "company_name" = some n →
      (changes i).field "company_name" ≠ none := fun hi hnone => nomatch hnone.symm.trans hi
  have hind : Independent .company changeIds changes offices := by
    refine ⟨fun i j k hij hi hj => hkeys i j hij (hi.trans hj.symm),
      fun i j n hij hi _ hj => hnames i j hij (hsome hi) (hi.trans hj.symm),
      fun i j n k d hij hi _ hj hd hn => hstored i j hij (hsome hi) ?_⟩
    have hd' : offices.company.get k = some d := hd
    have hn' : d.get "company_name" = some n := hn
    have hi' : (changes i).field "company_name" = some n := hi
    rw [hj, Option.bind_some, hd', Option.bind_some, hn', hi']
  exact (independent_confluent official .company changeIds changes offices hind (by simp)
    [0, 0, 1, 1, 2] [1, 0, 2, 1, 0] (Pool.done_of_result (by decide))
    (Pool.done_of_result (by decide))).1

end PersonnelBackend.Guarded
