import PersonnelBackend.DirectRoutes
import PersonnelBackend.GuardedRuns

/-! What becomes of a stored record while any requests run at the same time.
Nothing removes it, and its content changes only by the writes of the updates
and deletions that address it. -/
namespace PersonnelBackend.RecordHistory
open Document Database Express Resumption Router Direct Guarded

def mutation? : Request → Option Mutation
  | .postCompany body => some (.insert .company body)
  | .putCompany id body => some (.update .company id body)
  | .deleteCompany id => some (.update .company id (.object Model.inactive))
  | .postEmployee body => some (.insert .employee body)
  | .putEmployee id body => some (.update .employee id body)
  | .deleteEmployee id => some (.update .employee id (.object Model.inactive))
  | .createPosition body => some (.insert .positions body)
  | .registerUser body => some (.insert .user body)
  | _ => none

/-- What the write of a request makes of the document under a key: only updates
and deletions of the same table that address the key change it. -/
def effect (r : Request) (name : TableName) (k : Json) (d : Doc) : Doc :=
  match r with
  | .putCompany id (.object e) => if name = .company ∧ k = .str id then d.apply e else d
  | .deleteCompany id => if name = .company ∧ k = .str id then d.apply Model.inactive else d
  | .putEmployee id (.object e) => if name = .employee ∧ k = .str id then d.apply e else d
  | .deleteEmployee id => if name = .employee ∧ k = .str id then d.apply Model.inactive else d
  | _ => d

/-- An update of this record that sets its status to Active. -/
def Reactivates (res : Resource) (id : String) (r : Request) : Prop :=
  ∃ e, r = res.request (.put id (.object e)) ∧ e.get "status" = some (.str "Active")

/-! ### The writes of a request -/

def OwnWrites (r : Request) (op : Call) : Prop := ∀ m, op = .write m → mutation? r = some m

lemma mutation?_request (res : Resource) (op : WriteOp) :
    mutation? (res.request op) = some (op.mutation res) := by
  cases res <;> cases op <;> rfl

lemma read_ownWrites (r : Request) (query : Query) : OwnWrites r (.read query) := by
  intro m h
  cases h

lemma connect_ownWrites (r : Request) : OwnWrites r .connect := by
  intro m h
  cases h

lemma write_ownWrites {r : Request} {m : Mutation} (h : mutation? r = some m) :
    OwnWrites r (.write m) := by
  rintro m' he
  cases he
  exact h

lemma resume_calls {α : Type} {P : Call → Prop} {f : α → Process} (h : ∀ value, (f value).Calls P)
    (reply : Except WriteError α) : (resume reply f).Calls P := by
  cases reply with
  | ok value => exact h value
  | error e => trivial

lemma guarded_calls (dash : Driver) (res : Resource) (op : WriteOp) :
    (process dash (res.request op)).Calls (OwnWrites (res.request op)) := by
  have hwrite : (op.write res).process.Calls (OwnWrites (res.request op)) :=
    ⟨write_ownWrites (mutation?_request res op), fun _ => trivial⟩
  rw [process_eq_plan]
  cases hplan : plan dash res op with
  | ended outcome => trivial
  | write w =>
    rw [(plan_write hplan).2]
    exact hwrite
  | check table predicate verdict =>
    obtain ⟨n, -, -, -, hverdict, -⟩ := plan_check hplan
    refine ⟨read_ownWrites _ _, fun reply => ?_⟩
    change (settle (judge verdict reply)).Calls (OwnWrites (res.request op))
    cases reply with
    | error e => trivial
    | ok rows =>
      change (settle (verdict rows)).Calls (OwnWrites (res.request op))
      cases hv : verdict rows with
      | inl outcome => trivial
      | inr w =>
        rw [(hverdict rows w hv).1]
        exact hwrite

theorem process_calls (dash : Driver) (r : Request) : (process dash r).Calls (OwnWrites r) := by
  cases r with
  | postCompany body => exact guarded_calls dash .company (.post body)
  | putCompany id body => exact guarded_calls dash .company (.put id body)
  | deleteCompany id => exact guarded_calls dash .company (.delete id)
  | postEmployee body => exact guarded_calls dash .employee (.post body)
  | putEmployee id body => exact guarded_calls dash .employee (.put id body)
  | deleteEmployee id => exact guarded_calls dash .employee (.delete id)
  | getCompanies =>
    rw [process_getCompanies]
    exact ⟨read_ownWrites _ _, fun _ => trivial⟩
  | getEmployees =>
    rw [process_getEmployees]
    exact ⟨read_ownWrites _ _, fun _ => trivial⟩
  | getEmployeesByCompany company =>
    rw [process_getEmployeesByCompany]
    trivial
  | getPositions =>
    rw [process_getPositions]
    exact ⟨read_ownWrites _ _, fun _ => trivial⟩
  | getUsers =>
    rw [process_getUsers]
    exact ⟨read_ownWrites _ _, fun _ => trivial⟩
  | createPosition body =>
    rw [process_position]
    split_ifs
    · refine ⟨write_ownWrites rfl, resume_calls fun r => ?_⟩
      exact ⟨connect_ownWrites _, fun _ => trivial⟩
    · trivial
  | registerUser body =>
    rw [process_register]
    split_ifs
    · refine ⟨write_ownWrites rfl, resume_calls fun r => ⟨connect_ownWrites _, fun _ => ?_⟩⟩
      cases official.object [("username", body.field "username")] with
      | error e => trivial
      | ok predicate => exact ⟨read_ownWrites _ _, fun _ => trivial⟩
    · trivial
  | loginUser body =>
    rw [process_login]
    cases dash.expr (body.field "username") with
    | error e => trivial
    | ok username =>
      cases dash.expr (body.field "password") with
      | error e => trivial
      | ok password => exact ⟨read_ownWrites _ _, fun _ => trivial⟩

lemma effect_eq {r : Request} {m : Mutation} (h : mutation? r = some m) (name : TableName)
    (k : Json) (d : Doc) : (Call.write m).effect name k d = effect r name k d := by
  match r with
  | .putCompany id (.object e) | .putEmployee id (.object e) | .deleteCompany id |
    .deleteEmployee id =>
    cases h
    simp only [Call.effect, effect, eq_comm]
  | .putCompany id (.array items) | .putEmployee id (.array items) | .postCompany body
  | .postEmployee body | .createPosition body | .registerUser body =>
    cases h
    rfl

lemma effect_not_active {res : Resource} {id : String} {r : Request} (hr : ¬ Reactivates res id r)
    {d : Doc} (hd : ¬ Active d) : ¬ Active (effect r res.table (.str id) d) := by
  have hput : ∀ e, r = res.request (.put id (.object e)) → ¬ Active (d.apply e) := fun e he =>
    not_active_apply hd fun hs => hr ⟨e, he, hs⟩
  match r, res with
  | .putCompany id' (.object e), .company | .putEmployee id' (.object e), .employee =>
    simp only [effect]
    split_ifs with h
    · obtain rfl : id = id' := by simpa using h.2
      exact hput e rfl
    · exact hd
  | .deleteCompany id', res | .deleteEmployee id', res =>
    simp only [effect]
    split_ifs
    · exact not_active_apply_inactive d
    · exact hd
  | .putCompany id' (.object e), .employee | .putEmployee id' (.object e), .company =>
    simpa [effect, Resource.table] using hd
  | .putCompany id' (.array items), res | .putEmployee id' (.array items), res
  | .postCompany body, res | .postEmployee body, res | .createPosition body, res
  | .registerUser body, res | .loginUser body, res | .getCompanies, res | .getEmployees, res
  | .getEmployeesByCompany company, res | .getPositions, res | .getUsers, res => exact hd

lemma foldl_not_active {ι : Type} {requests : ι → Request} {res : Resource} {id : String}
    {writers : List ι} (hw : ∀ j ∈ writers, ¬ Reactivates res id (requests j)) {d : Doc}
    (hd : ¬ Active d) :
    ¬ Active (writers.foldl (fun d i => effect (requests i) res.table (.str id) d) d) := by
  induction writers generalizing d with
  | nil => exact hd
  | cons j writers ih =>
    exact ih (fun l hl => hw l (by simp [hl])) (effect_not_active (hw j (by simp)) hd)

/-! ### Runs -/

variable {ι : Type} [DecidableEq ι]

/-- The requests whose writes ran along a schedule, in order. -/
def written (uuid : ι → ℕ → String) (c : RequestPool ι) (schedule : List ι) : List ι :=
  (Pool.trace (servers uuid) c schedule).filterMap fun e =>
    match e.2 with
    | .write _ => some e.1
    | _ => none

variable {uuid : ι → ℕ → String} {requests : ι → Request} {c : RequestPool ι}

lemma written_cons_pure {i : ι} {outcome : Outcome} (h : c.progs i = .pure outcome)
    (schedule : List ι) :
    written uuid c (i :: schedule) = written uuid c schedule := by
  rw [written, Pool.trace_cons_pure h]
  rfl

lemma written_cons_call {i : ι} {op : Call} {next : Reply op → Process}
    (h : c.progs i = .call op next) (schedule : List ι) :
    written uuid c (i :: schedule) =
      (match op with
        | .write _ => [i]
        | _ => []) ++ written uuid (c.step (servers uuid) i) schedule := by
  rw [written, Pool.trace_cons_call h]
  cases op <;> rfl

theorem exec_get (uuid : ι → ℕ → String) (hc : ∀ i, (c.progs i).Calls (OwnWrites (requests i)))
    (schedule : List ι) {name : TableName} {k : Json} {d : Doc}
    (h : (c.store.table name).get k = some d) :
    ((c.exec (servers uuid) schedule).store.table name).get k =
      some ((written uuid c schedule).foldl (fun d i => effect (requests i) name k d) d) := by
  induction schedule generalizing c d with
  | nil => exact h
  | cons i schedule ih =>
    cases hp : c.progs i with
    | pure outcome =>
      rw [Pool.exec_cons, Pool.step_pure hp, written_cons_pure hp]
      exact ih hc h
    | call op next =>
      have hstep : ((c.step (servers uuid) i).store.table name).get k =
          some (op.effect name k d) := by
        rw [Pool.step_store hp]
        exact serve_get_some h (uuid i) op
      have hrest := ih (Pool.step_calls hc i) hstep
      have hown : OwnWrites (requests i) op := by
        have hi := hc i
        rw [hp] at hi
        exact hi.1
      rw [Pool.exec_cons, hrest, written_cons_call hp]
      cases op with
      | read query => rfl
      | connect => rfl
      | write m => rw [List.singleton_append, List.foldl_cons, effect_eq (hown m rfl)]

theorem step_get_new (hc : ∀ i, (c.progs i).Calls (OwnWrites (requests i))) {i : ι}
    {name : TableName} {k : Json} {d : Doc} (hnone : (c.store.table name).get k = none)
    (h : ((c.step (servers uuid) i).store.table name).get k = some d) :
    ∃ body, mutation? (requests i) = some (.insert name body) ∧
      ∃ row ∈ validRows (uuid i) body, row.key = k ∧ row.doc = d := by
  cases hp : c.progs i with
  | pure outcome =>
    rw [Pool.step_pure hp, hnone] at h
    cases h
  | call op next =>
    rw [Pool.step_store hp] at h
    obtain ⟨body, rfl, hrow⟩ := serve_get_new hnone h
    have hi := hc i
    rw [hp] at hi
    exact ⟨body, hi.1 _ rfl, hrow⟩

theorem step_taken (hc : ∀ i, (c.progs i).Calls (OwnWrites (requests i))) {i : ι} {name : TableName}
    {k : Json} {d : Doc} (hi : mutation? (requests i) = some (.insert name (.object d)))
    (hid : d.get "id" = some k) (htaken : ((c.store.table name).get k).isSome = true) :
    (c.step (servers uuid) i).store = c.store := by
  cases hp : c.progs i with
  | pure outcome => rw [Pool.step_pure hp]
  | call op next =>
    rw [Pool.step_store hp]
    cases op with
    | read query => rfl
    | connect => rfl
    | write m =>
      have hown := hc i
      rw [hp] at hown
      obtain rfl : m = .insert name (.object d) := Option.some.inj ((hown.1 m rfl).symm.trans hi)
      have hkey : newKey (uuid i) d = k := by rw [newKey, hid, Option.getD_some]
      have hout : ¬ Insertable (uuid i) (c.store.table name) d := by
        rintro ⟨-, hnone⟩
        rw [hkey] at hnone
        rw [hnone] at htaken
        cases htaken
      change c.store.setTable name
        ((Mutation.insert name (.object d)).onTable (uuid i) (c.store.table name)).1 = c.store
      by_cases hp : d.plain = true
      · rw [onTable_insert (.object d) hp, insert_of_not_insertable hout, Store.setTable_table]
      · rw [onTable_insert_refused (.object d) hp, Store.setTable_table]

/-! ### Deleted records -/

/-- Once the write of a deletion has run, the record is in no list until a
reactivating update writes. -/
theorem deleted_unlisted (hc : ∀ i, (c.progs i).Calls (OwnWrites (requests i))) {i : ι}
    {res : Resource} {id : String} (hi : requests i = res.request (.delete id)) {m : Mutation}
    {next : Reply (.write m) → Process} (hp : c.progs i = .call (.write m) next) {d : Doc}
    (hd : (c.store.table res.table).get (.str id) = some d) (schedule : List ι)
    (hw : ∀ j ∈ written uuid (c.step (servers uuid) i) schedule,
      ¬ Reactivates res id (requests j)) :
    ∀ d' ∈ (activeList res.table).answer
      ((c.step (servers uuid) i).exec (servers uuid) schedule).store,
      d'.get "id" ≠ some (.str id) := by
  have hm : mutation? (requests i) = some m := by
    have h := hc i
    rw [hp] at h
    exact h.1 m rfl
  have hstep : ((c.step (servers uuid) i).store.table res.table).get (.str id) =
      some (d.apply Model.inactive) := by
    rw [Pool.step_store hp]
    refine (serve_get_some hd (uuid i) (.write m)).trans (congrArg some ?_)
    rw [effect_eq hm, hi]
    cases res <;> simp [effect, Resource.request, Resource.table]
  have hlast := exec_get uuid (Pool.step_calls hc i) schedule hstep
  rintro d' hd' hid
  obtain ⟨⟨k, hk⟩, hactive⟩ := mem_activeList.mp hd'
  obtain rfl : k = .str id := Option.some.inj ((Table.get_id hk).symm.trans hid)
  rw [hlast] at hk
  obtain rfl := Option.some.inj hk
  exact foldl_not_active hw (not_active_apply_inactive d) hactive

def acmeStored : Store :=
  Store.empty.setTable .company (Table.empty.insert (fun _ => "a") (.object (companyDoc "Acme"))).1

def deleteAndRename : Fin 2 → Request
  | 0 => .deleteCompany "a"
  | 1 => .putCompany "a" (.object (Doc.strings [("company_name", "Best")]))

end PersonnelBackend.RecordHistory
