import PersonnelBackend.ControllerHandlers

/-! The shape of the six write handlers on companies and employees. Each one
ends at once, writes at once, or asks the conflict query first and then either
answers or writes. The concurrency results are about these plans, and
`process_eq_plan` says that the handlers are these plans. -/
namespace PersonnelBackend.Guarded
open Document Database Express Resumption Router

inductive Resource
  | company
  | employee
  deriving DecidableEq

inductive WriteOp
  | post (body : Body)
  | put (id : String) (body : Body)
  | delete (id : String)

namespace Resource

def table : Resource → TableName
  | .company => .company
  | .employee => .employee

def nameField : Resource → String
  | .company => "company_name"
  | .employee => "employee_name"

def request : Resource → WriteOp → Request
  | .company, .post body => .postCompany body
  | .company, .put id body => .putCompany id body
  | .company, .delete id => .deleteCompany id
  | .employee, .post body => .postEmployee body
  | .employee, .put id body => .putEmployee id body
  | .employee, .delete id => .deleteEmployee id

def conflict (res : Resource) (body : Body) (rows : Multiset Doc) : Bool :=
  match res with
  | .company => includes (rows.map fun item => item.get "company_name") (body.field "company_name")
  | .employee =>
    includes (rows.map fun item => item.get "employee_position") (body.field "employee_position") &&
      includes (rows.map fun item => item.get "company_name") (body.field "company_name")

def conflictAnswer : Resource → Answer
  | .company => ⟨409, .object { error := some true, message := some "Company Already Exist!" }⟩
  | .employee => ⟨409, .object { error := some true, message := some "Employee Already Exist!" }⟩

def created (res : Resource) (r : WriteResult) : Answer :=
  match res with
  | .company => ⟨200, .object { error := some false, data := some ("company", .result r) }⟩
  | .employee => ⟨200, .object { error := some false }⟩

/-- Only the company handler looks at the result of its update. -/
def updated (res : Resource) (r : WriteResult) : Answer :=
  match res with
  | .company =>
    if r.replaced > 0 then
      ⟨200, .object { error := some false, data := some ("company", .result r) }⟩
    else ⟨400, .object { error := some true }⟩
  | .employee => ⟨200, .object { error := some false, data := some ("employee", .result r) }⟩

def deleted (res : Resource) (r : WriteResult) : Answer :=
  match res with
  | .company => ⟨200, .object { error := some false, data := some ("company", .result r) }⟩
  | .employee => ⟨200, .object { error := some false, data := some ("employee", .result r) }⟩

end Resource

def idMissing : Answer := ⟨400, .object { message := some "Id parameter is missing." }⟩

structure Write where
  mutation : Mutation
  answer : WriteResult → Answer

def Write.ending (w : Write) (reply : Except WriteError WriteResult) : Outcome :=
  conclude reply fun r => answered (w.answer r)

def Write.process (w : Write) : Process :=
  .call (.write w.mutation) fun reply => .pure (w.ending reply)

inductive Plan
  | ended (outcome : Outcome)
  | write (w : Write)
  | check (table : TableName) (predicate : Fields) (verdict : Multiset Doc → Outcome ⊕ Write)

/-- What is left of a request once its verdict is known. -/
def settle : Outcome ⊕ Write → Process
  | .inl outcome => .pure outcome
  | .inr w => w.process

/-- The verdict on the reply to a conflict query; a failed query is thrown. -/
def judge (verdict : Multiset Doc → Outcome ⊕ Write) :
    Except WriteError (Multiset Doc) → Outcome ⊕ Write
  | .ok rows => verdict rows
  | .error e => .inl (rejected (.server e))

def Plan.process : Plan → Process
  | .ended outcome => .pure outcome
  | .write w => w.process
  | .check table predicate verdict =>
    .call (.read (.filter table predicate)) fun reply => settle (judge verdict reply)

/-- What a plan comes to in the state `s`. -/
def Plan.decide (p : Plan) (s : Store) : Outcome ⊕ Write :=
  match p with
  | .ended outcome => .inl outcome
  | .write w => .inr w
  | .check table predicate verdict => judge verdict ((Query.filter table predicate).reply s)

lemma judge_filter_eq_inr {verdict : Multiset Doc → Outcome ⊕ Write} {table : TableName}
    {predicate : Fields} {s : Store} {w : Write}
    (h : judge verdict ((Query.filter table predicate).reply s) = .inr w) :
    verdict ((Query.filter table predicate).answer s) = .inr w := by
  by_cases hp : predicate.plain = true
  · rwa [Query.reply_filter hp] at h
  · rw [Query.reply_filter_refused hp] at h
    cases h

lemma judge_filter_congr {verdict : Multiset Doc → Outcome ⊕ Write} {table : TableName}
    {predicate : Fields} {s s' : Store}
    (h : verdict ((Query.filter table predicate).answer s) =
      verdict ((Query.filter table predicate).answer s')) :
    judge verdict ((Query.filter table predicate).reply s) =
      judge verdict ((Query.filter table predicate).reply s') := by
  by_cases hp : predicate.plain = true
  · rw [Query.reply_filter hp, Query.reply_filter hp]
    exact h
  · rw [Query.reply_filter_refused hp, Query.reply_filter_refused hp]

def activePattern (name : String) (n : Json) : Fields :=
  .cons name n (.cons "status" (.str "Active") .nil)

variable (dash : Driver)

/-- A body reaches the server only if the driver can build its term. -/
def sendBody (body : Body) (w : Write) : Outcome ⊕ Write :=
  if dash.builds body.json then .inr w else .inl (rejected .unencodable)

/-- The conflict query of a body, followed by `verdict` on its rows. -/
def guarded (res : Resource) (body : Body) (verdict : Multiset Doc → Outcome ⊕ Write) : Plan :=
  match body.field res.nameField with
  | none => .ended (rejected (.undefinedField res.nameField))
  | some n =>
    if within n (dash.nestingLevel - 1) then
      .check res.table (activePattern res.nameField n) verdict
    else .ended (rejected .unencodable)

def postVerdict (res : Resource) (body : Body) (rows : Multiset Doc) : Outcome ⊕ Write :=
  if res.conflict body rows then .inl (answered res.conflictAnswer)
  else sendBody dash body ⟨.insert res.table body, res.created⟩

def putVerdict (res : Resource) (id : String) (body : Body) (rows : Multiset Doc) :
    Outcome ⊕ Write :=
  if id = "" then .inl (answered idMissing)
  else if res.conflict body rows then .inl (answered res.conflictAnswer)
  else sendBody dash body ⟨.update res.table id body, res.updated⟩

/-- The plan of each request. The employee handlers differ from the company
handlers in where the identifier is checked: `update` before the query, and
`delete` not at all. -/
def plan : Resource → WriteOp → Plan
  | res, .post body => guarded dash res body (postVerdict dash res body)
  | .company, .put id body => guarded dash .company body (putVerdict dash .company id body)
  | .employee, .put id body =>
    if id = "" then .ended (answered idMissing)
    else guarded dash .employee body (putVerdict dash .employee id body)
  | .company, .delete id =>
    if id = "" then .ended (answered idMissing)
    else .write ⟨.update .company id (.object Model.inactive), Resource.company.deleted⟩
  | .employee, .delete id =>
    .write ⟨.update .employee id (.object Model.inactive), Resource.employee.deleted⟩

lemma inactive_builds : dash.builds (.obj Model.inactive.fields) = true := by
  obtain ⟨n, hn⟩ := Nat.exists_eq_add_of_le' dash.flat
  rw [Driver.builds, hn]
  rfl

lemma settle_inactive (w : Write) :
    settle (sendBody dash (.object Model.inactive) w) = w.process := by
  rw [sendBody, Body.json, if_pos (inactive_builds dash)]
  rfl

lemma start_getActiveBy (res : Resource) (body : Body) (k : Multiset Doc → Handler Unit)
    (verdict : Multiset Doc → Outcome ⊕ Write)
    (h : ∀ rows, start (k rows) = settle (verdict rows)) :
    start (Model.getActiveBy dash res.table res.nameField (body.field res.nameField) >>= k) =
      (guarded dash res body verdict).process := by
  rw [Model.getActiveBy, bind_assoc, Driver.object_active, guarded]
  cases body.field res.nameField with
  | none => rfl
  | some n =>
    by_cases hw : within n (dash.nestingLevel - 1) = true
    · simp only [hw, if_true, start_build_ok, start_fetch, Plan.process]
      refine congrArg (Prog.call _) (funext fun reply => ?_)
      cases reply with
      | ok rows => exact h rows
      | error e => rfl
    · simp only [hw, Plan.process]
      rfl

lemma start_insertInto (table : TableName) (body : Body) (k : WriteResult → Handler Unit)
    (answer : WriteResult → Answer) (h : ∀ r, start (k r) = .pure (answered (answer r))) :
    start (Model.insertInto dash table body >>= k) =
      settle (sendBody dash body ⟨.insert table body, answer⟩) := by
  rw [Model.insertInto, bind_assoc, Driver.expr, sendBody]
  by_cases hb : dash.builds body.json = true
  · simp only [hb, if_true, start_build_ok, start_execute, settle, Write.process]
    exact congrArg (Prog.call _) (funext (resume_eq_pure h))
  · simp only [hb, settle]
    rfl

lemma start_updateIn (table : TableName) (id : String) (body : Body)
    (k : WriteResult → Handler Unit) (answer : WriteResult → Answer)
    (h : ∀ r, start (k r) = .pure (answered (answer r))) :
    start (Model.updateIn dash table id body >>= k) =
      settle (sendBody dash body ⟨.update table id body, answer⟩) := by
  rw [Model.updateIn, bind_assoc, Driver.expr_str, start_build_ok, bind_assoc,
    Driver.expr, sendBody]
  by_cases hb : dash.builds body.json = true
  · simp only [hb, if_true, start_build_ok, start_execute, settle, Write.process]
    exact congrArg (Prog.call _) (funext (resume_eq_pure h))
  · simp only [hb, settle]
    rfl

lemma start_conflict (res : Resource) (body : Body) (rows : Multiset Doc)
    {refuse act : Handler Unit} {w : Write}
    (hr : start refuse = .pure (answered res.conflictAnswer))
    (ha : start act = settle (sendBody dash body w)) :
    start (if res.conflict body rows then refuse else act) =
      settle (if res.conflict body rows then .inl (answered res.conflictAnswer)
        else sendBody dash body w) := by
  rw [start_ite]
  split_ifs
  · exact hr
  · exact ha

/-- The handlers of the repository are these plans. -/
theorem process_eq_plan (res : Resource) (op : WriteOp) :
    process dash (res.request op) = (plan dash res op).process := by
  cases res with
  | company =>
    cases op with
    | post body =>
      refine start_getActiveBy dash .company body _ (postVerdict dash .company body) fun rows => ?_
      refine start_conflict dash .company body rows rfl ?_
      exact start_insertInto dash .company body _ Resource.company.created fun r => rfl
    | put id body =>
      refine start_getActiveBy dash .company body _ (putVerdict dash .company id body)
        fun rows => ?_
      refine (start_ite _ _ _).trans ?_
      rw [putVerdict]
      by_cases hid : id = ""
      · rw [if_pos hid, if_pos hid]
        rfl
      · rw [if_neg hid, if_neg hid]
        refine start_conflict dash .company body rows rfl ?_
        refine start_updateIn dash .company id body _ Resource.company.updated fun r => ?_
        rw [start_ite, Resource.updated]
        split_ifs <;> rfl
    | delete id =>
      refine (start_ite _ _ _).trans ?_
      rw [plan]
      by_cases hid : id = ""
      · rw [if_pos hid, if_pos hid]
        rfl
      · rw [if_neg hid, if_neg hid, Plan.process, ← settle_inactive dash]
        exact start_updateIn dash .company id _ _ Resource.company.deleted fun r => rfl
  | employee =>
    cases op with
    | post body =>
      refine start_getActiveBy dash .employee body _ (postVerdict dash .employee body)
        fun rows => ?_
      refine start_conflict dash .employee body rows rfl ?_
      exact start_insertInto dash .employee body _ Resource.employee.created fun r => rfl
    | put id body =>
      refine (start_ite _ _ _).trans ?_
      rw [plan]
      by_cases hid : id = ""
      · rw [if_pos hid, if_pos hid]
        rfl
      · rw [if_neg hid, if_neg hid]
        refine start_getActiveBy dash .employee body _ (putVerdict dash .employee id body)
          fun rows => ?_
        rw [putVerdict, if_neg hid]
        refine start_conflict dash .employee body rows rfl ?_
        exact start_updateIn dash .employee id body _ Resource.employee.updated fun r => rfl
    | delete id =>
      rw [plan, Plan.process, ← settle_inactive dash]
      exact start_updateIn dash .employee id _ _ Resource.employee.deleted fun r => rfl

end PersonnelBackend.Guarded
