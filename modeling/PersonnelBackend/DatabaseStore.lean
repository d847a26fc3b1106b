import PersonnelBackend.DatabaseTable
import PersonnelBackend.ResumptionProg

/-! The four tables behind the handlers and the ReQL calls made on them. Each
call is one atomic step of the server. The identifiers the server generates for
an insert come from a supply that belongs to the request. A query whose arguments
the server refuses fails as a whole and changes nothing. -/
namespace PersonnelBackend.Database
open Document Resumption

inductive TableName
  | company
  | employee
  | positions
  | user
  deriving DecidableEq, Repr

structure Store where
  company : Table
  employee : Table
  positions : Table
  user : Table

namespace Store

def table (s : Store) : TableName → Table
  | .company => s.company
  | .employee => s.employee
  | .positions => s.positions
  | .user => s.user

def setTable (s : Store) (name : TableName) (t : Table) : Store :=
  match name with
  | .company => { s with company := t }
  | .employee => { s with employee := t }
  | .positions => { s with positions := t }
  | .user => { s with user := t }

def empty : Store := ⟨.empty, .empty, .empty, .empty⟩

@[simp] lemma table_setTable (s : Store) (name : TableName) (t : Table) :
    (s.setTable name t).table name = t := by
  cases name <;> rfl

@[simp] lemma table_setTable_ne {s : Store} {name other : TableName} (t : Table)
    (h : other ≠ name) : (s.setTable name t).table other = s.table other := by
  cases name <;> cases other <;> simp_all [table, setTable]

@[simp] lemma setTable_table (s : Store) (name : TableName) :
    s.setTable name (s.table name) = s := by
  cases name <;> rfl

@[simp] lemma setTable_setTable (s : Store) (name : TableName) (t t' : Table) :
    (s.setTable name t).setTable name t' = s.setTable name t' := by
  cases name <;> rfl

lemma setTable_eq_iff {s : Store} {name : TableName} {t : Table} :
    s.setTable name t = s ↔ t = s.table name := by
  constructor
  · intro h
    rw [← h, table_setTable]
  · rintro rfl
    exact s.setTable_table name

end Store

/-- The reading queries of the models. All of them end in `coerceTo('array')`. -/
inductive Query
  /-- Runs `r.table(t)`. -/
  | rows (table : TableName)
  /-- Runs `r.table(t).filter({...})`. -/
  | filter (table : TableName) (predicate : Fields)
  /-- Runs `r.table(t).filter(r.row(f).eq(v))`, with one `filter` for each pair. -/
  | filterEq (table : TableName) (conditions : List (String × Json))

inductive Mutation
  /-- Runs `r.table(t).insert(data)`. -/
  | insert (table : TableName) (data : Body)
  /-- Runs `r.table(t).get(id).update(data)`. -/
  | update (table : TableName) (id : String) (data : Body)

inductive Call
  | read (query : Query)
  | write (mutation : Mutation)
  /-- The second driver's `r.connect()`, which touches no table. -/
  | connect

def Reply : Call → Type
  | .read _ => Except WriteError (Multiset Doc)
  | .write _ => Except WriteError WriteResult
  | .connect => Unit

/-- A row lacking a compared field is skipped. -/
def satisfies (conditions : List (String × Json)) (d : Doc) : Bool :=
  conditions.all fun c => decide (d.get c.1 = some c.2)

/-- The row gets as far as a refused value of the conditions. Its own field is read
before the value is evaluated. -/
def reaches : List (String × Json) → Doc → Bool
  | [], _ => false
  | (k, v) :: rest, d =>
    match d.get k with
    | none => false
    | some w => if v.plain then w == v && reaches rest d else true

def Query.answer (s : Store) : Query → Multiset Doc
  | .rows name => (s.table name).docs
  | .filter name predicate => (s.table name).select fun d => predicate.matches d.fields
  | .filterEq name conditions => (s.table name).select (satisfies conditions)

/-- The value at which a reading query fails. An object literal is evaluated before
any row is read, the argument of `eq` for every row that gets so far. -/
def Query.refused (s : Store) : Query → Option Json
  | .rows _ => none
  | .filter _ predicate => if predicate.plain then none else some (.obj predicate)
  | .filterEq name conditions =>
    if (s.table name).select (reaches conditions) = 0 then none
    else (conditions.map Prod.snd).find? fun v => !v.plain

def Query.reply (s : Store) (query : Query) : Except WriteError (Multiset Doc) :=
  match query.refused s with
  | none => .ok (query.answer s)
  | some v => .error (.pseudotype v)

def Mutation.table : Mutation → TableName
  | .insert name _ => name
  | .update name _ _ => name

/-- The effect on the one table a write addresses. The body of an insert is evaluated
before any row is looked at, and the key of an update is printed before its row is. -/
def Mutation.onTable (uuid : ℕ → String) (t : Table) :
    Mutation → Table × Except WriteError WriteResult
  | .insert _ data =>
    if data.plain then ((t.insert uuid data).1, .ok (t.insert uuid data).2)
    else (t, .error (.pseudotype data.json))
  | .update _ id data =>
    match checkPrimary (.str id) with
    | .error e => (t, .error (.badPrimaryKey e))
    | .ok _ => ((t.update id data).1, .ok (t.update id data).2)

/-- The server, with the identifiers it would generate for this request. -/
def serve (uuid : ℕ → String) : Server Call Reply Store
  | .read query, s => (query.reply s, s)
  | .write m, s =>
    ((m.onTable uuid (s.table m.table)).2,
      s.setTable m.table (m.onTable uuid (s.table m.table)).1)
  | .connect, s => ((), s)

@[simp] lemma serve_read (uuid : ℕ → String) (query : Query) (s : Store) :
    serve uuid (.read query) s = (query.reply s, s) := rfl

lemma Query.reply_filter {name : TableName} {predicate : Fields} (h : predicate.plain = true)
    (s : Store) :
    (Query.filter name predicate).reply s = .ok ((Query.filter name predicate).answer s) := by
  rw [Query.reply, Query.refused, if_pos h]

lemma Query.reply_filter_refused {name : TableName} {predicate : Fields}
    (h : predicate.plain ≠ true) (s : Store) :
    (Query.filter name predicate).reply s = .error (.pseudotype (.obj predicate)) := by
  rw [Query.reply, Query.refused, if_neg h]

lemma onTable_insert (data : Body) (h : data.plain = true) (uuid : ℕ → String) (t : Table)
    (name : TableName) : (Mutation.insert name data).onTable uuid t =
      ((t.insert uuid data).1, .ok (t.insert uuid data).2) := if_pos h

lemma onTable_insert_refused (data : Body) (h : data.plain ≠ true) (uuid : ℕ → String)
    (t : Table) (name : TableName) :
    (Mutation.insert name data).onTable uuid t = (t, .error (.pseudotype data.json)) := if_neg h

lemma onTable_update {id : String} (h : isPrimary (.str id) = true) (uuid : ℕ → String) (t : Table)
    (name : TableName) (data : Body) : (Mutation.update name id data).onTable uuid t =
      ((t.update id data).1, .ok (t.update id data).2) := by
  rw [Mutation.onTable, checkPrimary_of_isPrimary h]

lemma onTable_update_refused {id : String} (h : isPrimary (.str id) ≠ true) (uuid : ℕ → String)
    (t : Table) (name : TableName) (data : Body) :
    ∃ e, (Mutation.update name id data).onTable uuid t = (t, .error (.badPrimaryKey e)) := by
  obtain ⟨e, he⟩ := checkPrimary_of_not_isPrimary h
  exact ⟨e, by rw [Mutation.onTable, he]⟩

lemma onTable_update_table (uuid : ℕ → String) (t : Table) (name : TableName) (id : String)
    (data : Body) : ((Mutation.update name id data).onTable uuid t).1 = (t.update id data).1 := by
  by_cases h : isPrimary (.str id) = true
  · rw [onTable_update h]
  · obtain ⟨e, he⟩ := onTable_update_refused h uuid t name data
    have hnone : t.get (.str id) = none :=
      Option.eq_none_iff_forall_ne_some.mpr fun d hd => h (Table.get_usable hd)
    rw [he, Table.update_absent hnone]

lemma onTable_insert_get_some {t : Table} {k : Json} {d : Doc} (h : t.get k = some d)
    (uuid : ℕ → String) (name : TableName) (data : Body) :
    ((Mutation.insert name data).onTable uuid t).1.get k = some d := by
  by_cases hp : data.plain = true
  · rw [onTable_insert data hp]
    exact Table.insert_get_some h uuid data
  · rw [onTable_insert_refused data hp]
    exact h

/-- What a call does to a document stored under key `k` of a table. -/
def Call.effect (op : Call) (name : TableName) (k : Json) (d : Doc) : Doc :=
  match op with
  | .write (.update name' id (.object e)) => if name' = name ∧ k = .str id then d.apply e else d
  | _ => d

theorem serve_get_some {s : Store} {name : TableName} {k : Json} {d : Doc}
    (h : (s.table name).get k = some d) (uuid : ℕ → String) (op : Call) :
    (((serve uuid op s).2).table name).get k = some (op.effect name k d) := by
  cases op with
  | read query => exact h
  | connect => exact h
  | write m =>
    by_cases hn : name = m.table
    · subst hn
      rw [serve, Store.table_setTable]
      cases m with
      | insert name data => exact onTable_insert_get_some h uuid name data
      | update name id data =>
        rw [onTable_update_table]
        cases data with
        | array items => rwa [Table.update_array]
        | object e =>
          simp only [Mutation.table] at h
          simp only [Mutation.table, Table.update_get, Call.effect, true_and, h]
          split_ifs <;> rfl
    · have he : (Call.write m).effect name k d = d := by
        cases m with
        | insert name' data => rfl
        | update name' id data =>
          cases data with
          | array items => rfl
          | object e => exact if_neg fun hc => hn hc.1.symm
      rw [he]
      simpa [serve, hn] using h

theorem serve_get_new {s : Store} {name : TableName} {k : Json} {d : Doc}
    (hnone : (s.table name).get k = none) {uuid : ℕ → String} {op : Call}
    (h : (((serve uuid op s).2).table name).get k = some d) :
    ∃ body, op = .write (.insert name body) ∧ ∃ row ∈ validRows uuid body, row.key = k ∧
    row.doc = d := by
  cases op with
  | read query => exact absurd (hnone.symm.trans h) (by simp)
  | connect => exact absurd (hnone.symm.trans h) (by simp)
  | write m =>
    rw [serve] at h
    by_cases hn : name = m.table
    · subst hn
      rw [Store.table_setTable] at h
      cases m with
      | insert table body =>
        by_cases hp : body.plain = true
        · rw [onTable_insert body hp] at h
          rcases Table.insertRows_get_cases h with hold | ⟨-, hrow⟩
          · exact absurd (hnone.symm.trans hold) (by simp)
          · exact ⟨body, rfl, hrow⟩
        · rw [onTable_insert_refused body hp] at h
          exact absurd (hnone.symm.trans h) (by simp)
      | update table id body =>
        rw [onTable_update_table] at h
        have hstill := Table.update_get_none hnone id body
        exact absurd (hstill.symm.trans h) (by simp)
    · rw [Store.table_setTable_ne _ hn, hnone] at h
      cases h

end PersonnelBackend.Database
