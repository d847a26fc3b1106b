import PersonnelBackend.ControllerHandlers
import PersonnelBackend.DatabaseInsert

/-! The routes that ask no conflict query before they act, run alone: the lists,
the login, and the two creates that write first and look afterwards. -/
namespace PersonnelBackend.Direct
open Document Database Express Resumption Router

/-- The answer to a new user, given how many records carry the username. -/
def registerAnswer (count : ℕ) (r : WriteResult) : Answer :=
  if 1 < count then
    ⟨409, .object { error := some true, message := some "Username already exist!" }⟩
  else ⟨200, .object { error := some false, data := some ("user", .result r) }⟩

def registerOutcome (body : Body) (r : WriteResult) (s : Store) : Outcome :=
  match official.object [("username", body.field "username")] with
  | .error e => rejected e
  | .ok predicate =>
    answered (registerAnswer (Multiset.card ((Query.filter .user predicate).answer s)) r)

def positionOutcome (body : Body) (r : WriteResult) : Outcome :=
  match official.object [("role", body.field "role")] with
  | .error e => rejected e
  | .ok _ => answered ⟨200, .object { error := some false, data := some ("position", .result r) }⟩

def loginAnswer (rows : Multiset Doc) : Answer :=
  if 0 < Multiset.card rows then
    ⟨200, .object { error := some false, data := some ("user", .rows rows) }⟩
  else ⟨401, .object { error := some true, data := some ("user", .rows rows) }⟩

def loginQuery (username password : Json) : Query :=
  .filterEq .user [("username", username), ("password", password)]

def loginOutcome (dash : Driver) (body : Body) (s : Store) : Outcome :=
  match dash.expr (body.field "username"), dash.expr (body.field "password") with
  | .ok username, .ok password =>
    conclude ((loginQuery username password).reply s) fun rows => answered (loginAnswer rows)
  | .error e, _ => rejected e
  | .ok _, .error e => rejected e

lemma start_registerAnswer (rows : Multiset Doc) (r : WriteResult) :
    start (if greater (some (Multiset.card rows)) 1 then
        send 409 (.object { error := some true, message := some "Username already exist!" })
      else send 200 (.object { error := some false, data := some ("user", .result r) })) =
      .pure (answered (registerAnswer (Multiset.card rows) r)) := by
  rw [start_ite, registerAnswer]
  simp only [greater, decide_eq_true_eq]
  split_ifs <;> rfl

lemma start_loginAnswer (rows : Multiset Doc) :
    start (if greater (some (Multiset.card rows)) 0 then
        send 200 (.object { error := some false, data := some ("user", .rows rows) })
      else send 401 (.object { error := some true, data := some ("user", .rows rows) })) =
      .pure (answered (loginAnswer rows)) := by
  rw [start_ite, loginAnswer]
  simp only [greater, decide_eq_true_eq]
  split_ifs <;> rfl

/-! ### The processes -/

variable (dash : Driver)

theorem process_register (body : Body) :
    process dash (.registerUser body) =
      if dash.builds body.json then
        .call (.write (.insert .user body)) fun reply => resume reply fun r =>
          .call .connect fun _ =>
          match official.object [("username", body.field "username")] with
          | .error e => .pure (rejected e)
          | .ok predicate => .call (.read (.filter .user predicate)) fun reply =>
            .pure (conclude reply fun rows => answered (registerAnswer (Multiset.card rows) r))
      else .pure (rejected .unencodable) := by
  refine (congrArg start (bind_assoc _ _ _)).trans ?_
  rw [Driver.expr]
  split_ifs with hb
  · refine (start_execute (.insert .user body) _).trans ?_
    refine congrArg (Prog.call _) (funext fun reply => congrArg (resume reply) (funext fun r => ?_))
    refine congrArg (Prog.call _) (funext fun _ => ?_)
    cases official.object [("username", body.field "username")] with
    | error e => rfl
    | ok predicate =>
      refine (start_fetch (.filter .user predicate) _).trans ?_
      exact congrArg (Prog.call _) (funext (resume_eq_pure fun rows => start_registerAnswer rows r))
  · rfl

theorem process_position (body : Body) :
    process dash (.createPosition body) =
      if dash.builds body.json then
        .call (.write (.insert .positions body)) fun reply => resume reply fun r =>
          .call .connect fun _ => .pure (positionOutcome body r)
      else .pure (rejected .unencodable) := by
  refine (congrArg start (bind_assoc _ _ _)).trans ?_
  rw [Driver.expr]
  split_ifs with hb
  · refine (start_execute (.insert .positions body) _).trans ?_
    refine congrArg (Prog.call _) (funext fun reply => congrArg (resume reply) (funext fun r => ?_))
    refine congrArg (Prog.call _) (funext fun _ => ?_)
    unfold positionOutcome
    cases official.object [("role", body.field "role")] <;> rfl
  · rfl

theorem process_login (body : Body) :
    process dash (.loginUser body) =
      match dash.expr (body.field "username"), dash.expr (body.field "password") with
      | .ok username, .ok password =>
        .call (.read (loginQuery username password)) fun reply =>
          .pure (conclude reply fun rows => answered (loginAnswer rows))
      | .error e, _ => .pure (rejected e)
      | .ok _, .error e => .pure (rejected e) := by
  refine (congrArg start (bind_assoc _ _ _)).trans ?_
  cases dash.expr (body.field "username") with
  | error e => rfl
  | ok username =>
    refine (congrArg start (bind_assoc _ _ _)).trans ?_
    cases dash.expr (body.field "password") with
    | error e => rfl
    | ok password =>
      refine (start_fetch (loginQuery username password) _).trans ?_
      exact congrArg (Prog.call _) (funext (resume_eq_pure start_loginAnswer))

def activeList (table : TableName) : Query := .filter table (.cons "status" (.str "Active") .nil)

lemma start_list (query : Query) :
    start (fetch query >>= fun rows => send 200 (.rows rows)) =
      .call (.read query) fun reply =>
        .pure (conclude reply fun rows => answered ⟨200, .rows rows⟩) := by
  refine (start_fetch query _).trans ?_
  exact congrArg (Prog.call _) (funext (resume_eq_pure fun rows => rfl))

lemma start_activeList (table : TableName) :
    start (Model.getActive dash table >>= fun rows => send 200 (.rows rows)) =
      .call (.read (activeList table)) fun reply =>
        .pure (conclude reply fun rows => answered ⟨200, .rows rows⟩) := by
  refine (congrArg start (bind_assoc _ _ _)).trans ?_
  rw [Driver.object_str]
  exact start_list (activeList table)

theorem process_getCompanies :
    process dash .getCompanies = .call (.read (activeList .company)) fun reply =>
      .pure (conclude reply fun rows => answered ⟨200, .rows rows⟩) :=
  start_activeList dash .company

theorem process_getEmployees :
    process dash .getEmployees = .call (.read (activeList .employee)) fun reply =>
      .pure (conclude reply fun rows => answered ⟨200, .rows rows⟩) :=
  start_activeList dash .employee

theorem process_getPositions :
    process dash .getPositions = .call (.read (.rows .positions)) fun reply =>
      .pure (conclude reply fun rows => answered ⟨200, .rows rows⟩) :=
  start_list (.rows .positions)

theorem process_getUsers :
    process dash .getUsers = .call (.read (.rows .user)) fun reply =>
      .pure (conclude reply fun rows => answered ⟨200, .rows rows⟩) :=
  start_list (.rows .user)

/-- The list by company never gets as far as its query. -/
theorem process_getEmployeesByCompany (company : String) :
    process dash (.getEmployeesByCompany company) =
      .pure (rejected (.undefinedField "company_name")) := rfl

/-! ### The runs -/

lemma Body.field_plain {body : Body} (h : body.plain = true) {k : String} {v : Json}
    (hv : body.field k = some v) : v.plain = true := by
  match body with
  | .object d => exact (Fields.get_plain h hv).2

lemma object_plain {driver : Driver} {field : String} {v : Option Json} {predicate : Fields}
    (hname : field ≠ reqlType) (hv : ∀ w, v = some w → w.plain = true)
    (h : driver.object [(field, v)] = .ok predicate) : predicate.plain = true := by
  cases v with
  | none => cases h
  | some w =>
    rw [Driver.object] at h
    split_ifs at h
    obtain rfl := Except.ok.inj h
    exact Fields.plain_cons.mpr ⟨hname, hv w rfl, rfl⟩

variable (uuid : ℕ → String) (s : Store)

theorem run_register (body : Body) :
    (process dash (.registerUser body)).run (serve uuid) s =
      if dash.builds body.json then
        if body.plain then
          (registerOutcome body (s.user.insert uuid body).2
              (s.setTable .user (s.user.insert uuid body).1),
            s.setTable .user (s.user.insert uuid body).1)
        else (rejected (.server (.pseudotype body.json)), s)
      else (rejected .unencodable, s) := by
  rw [process_register, registerOutcome]
  split_ifs with hb hp
  · simp only [Prog.run, serve, Mutation.table, onTable_insert body hp, resume_ok]
    cases hobject : official.object [("username", body.field "username")] with
    | error e => rfl
    | ok predicate =>
      have hplain : predicate.plain = true :=
        object_plain (by decide) (fun w hw => Body.field_plain hp hw) hobject
      simp only [Prog.run, serve_read, Query.reply_filter hplain, conclude_ok]
      rfl
  · simp only [Prog.run, serve, Mutation.table, onTable_insert_refused body hp, resume_error]
    rw [Store.setTable_table]
  · rfl

theorem run_position (body : Body) :
    (process dash (.createPosition body)).run (serve uuid) s =
      if dash.builds body.json then
        if body.plain then
          (positionOutcome body (s.positions.insert uuid body).2,
            s.setTable .positions (s.positions.insert uuid body).1)
        else (rejected (.server (.pseudotype body.json)), s)
      else (rejected .unencodable, s) := by
  rw [process_position]
  split_ifs with hb hp
  · simp only [Prog.run, serve, Mutation.table, onTable_insert body hp, resume_ok]
    rfl
  · simp only [Prog.run, serve, Mutation.table, onTable_insert_refused body hp, resume_error]
    rw [Store.setTable_table]
  · rfl

theorem run_login (body : Body) :
    (process dash (.loginUser body)).run (serve uuid) s = (loginOutcome dash body s, s) := by
  rw [process_login, loginOutcome]
  cases dash.expr (body.field "username") with
  | error e => rfl
  | ok username => cases dash.expr (body.field "password") <;> rfl

lemma loginQuery_reply {username password : Json} (hu : username.plain = true)
    (hp : password.plain = true) (s : Store) :
    (loginQuery username password).reply s = .ok ((loginQuery username password).answer s) := by
  have hrefused : (loginQuery username password).refused s = none := by
    rw [loginQuery, Query.refused]
    split_ifs
    · rfl
    · simp [hu, hp]
  rw [Query.reply, hrefused]

/-! ### The lists -/

lemma mem_activeList {s : Store} {table : TableName} {d : Doc} :
    d ∈ (activeList table).answer s ↔
      (∃ k, (s.table table).get k = some d) ∧ d.get "status" = some (.str "Active") := by
  rw [activeList, Query.answer, Table.mem_select, Fields.matches_one rfl]
  rfl

/-! ### The queries after the writes -/

/-- The second driver can build a query for this field of the body. -/
def Askable (body : Body) (field : String) (v : Json) : Prop :=
  body.field field = some v ∧ within v (official.nestingLevel - 1) = true

lemma object_cases (body : Body) (field : String) :
    (∃ v, Askable body field v ∧ official.object [(field, body.field field)] =
      .ok (.cons field v .nil)) ∨
      (¬ ∃ v, Askable body field v) ∧ ∃ e, official.object [(field, body.field field)] =
        .error e := by
  unfold Askable
  cases body.field field with
  | none => exact Or.inr ⟨by simp, _, rfl⟩
  | some v =>
    by_cases hw : within v (official.nestingLevel - 1) = true
    · exact Or.inl ⟨v, ⟨rfl, hw⟩, by simp [Driver.object, hw]⟩
    · exact Or.inr ⟨by simp [hw], .unencodable, by simp [Driver.object, hw]⟩

lemma register_rows {uuid : ℕ → String} {s : Store} {d : Doc} {v : Json}
    (hv : d.get "username" = some v) (hin : Insertable uuid s.user d) :
    (Query.filter .user (.cons "username" v .nil)).answer
        (s.setTable .user (s.user.insert uuid (.object d)).1) =
      maybeGenerateKey (uuid 0) d ::ₘ (Query.filter .user (.cons "username" v .nil)).answer s := by
  have hsorted : v.sorted = true := Fields.get_sorted d.sorted hv
  have hname : (newRow uuid d hin.1).doc.get "username" = some v :=
    (maybeGenerateKey_get _ _ (by decide)).trans hv
  have hmatch : (Fields.cons "username" v .nil).matches (newRow uuid d hin.1).doc.fields = true :=
    Fields.matches_cons.mpr ⟨⟨v, hname, Json.matches_self v hsorted⟩, Fields.matches_nil _⟩
  rw [Query.answer, Store.table_setTable, insert_of_insertable hin, Table.select_put_of_none hin.2,
    if_pos hmatch]
  rfl

end PersonnelBackend.Direct
