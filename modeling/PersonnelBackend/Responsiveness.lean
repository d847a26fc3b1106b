import PersonnelBackend.DirectRoutes
import PersonnelBackend.GuardedAlone

/-! Which requests get an answer. The handlers read their bodies unchecked and
catch nothing: a field that is missing, or nested too deep for a driver, or
refused by the server, makes the promise of the handler reject, and the request
is left without an answer. -/
namespace PersonnelBackend.Responsiveness
open Document Database Express Resumption Router Direct Guarded

/-- Exactly one answer was sent and the promise did not reject. -/
def Settled (o : Outcome) : Prop := o.sent.length = 1 ∧ o.rejected = none

instance : DecidablePred Settled := fun _ => inferInstanceAs (Decidable (_ ∧ _))

/-- The guarded requests that get an answer: the name can be queried, and the
body can be sent and taken unless a conflict or a missing identifier stops it before. -/
def GuardedAnswerable (dash : Driver) (res : Resource) (s : Store) (op : WriteOp) : Prop :=
  match op with
  | .post body => Asked dash res body ∧
    (op.clear res s = true → dash.builds body.json = true ∧ body.plain = true)
  | .put id body => (res = .employee ∧ id = "") ∨
    Asked dash res body ∧
      (id ≠ "" → op.clear res s = true →
        dash.builds body.json = true ∧ isPrimary (.str id) = true)
  | .delete id => isPrimary (.str id) = true

/-- No stored user gets the login query as far as a value that the server refuses. -/
def LoginTaken (s : Store) (body : Body) : Prop :=
  ∀ username password, body.field "username" = some username →
    body.field "password" = some password → (loginQuery username password).refused s = none

/-- The requests that get an answer; the list by company is left aside. -/
def Answerable (dash : Driver) (s : Store) : Request → Prop
  | .postCompany body => GuardedAnswerable dash .company s (.post body)
  | .putCompany id body => GuardedAnswerable dash .company s (.put id body)
  | .deleteCompany id => GuardedAnswerable dash .company s (.delete id)
  | .postEmployee body => GuardedAnswerable dash .employee s (.post body)
  | .putEmployee id body => GuardedAnswerable dash .employee s (.put id body)
  | .deleteEmployee id => GuardedAnswerable dash .employee s (.delete id)
  | .createPosition body =>
    dash.builds body.json = true ∧ body.plain = true ∧ official.queryable body "role" = true
  | .registerUser body =>
    dash.builds body.json = true ∧ body.plain = true ∧ official.queryable body "username" = true
  | .loginUser body => dash.expressible body "username" = true ∧
    dash.expressible body "password" = true ∧ LoginTaken s body
  | _ => True

lemma settled_answered (a : Answer) : Settled (answered a) := ⟨rfl, rfl⟩

lemma not_settled_rejected (e : JsError) : ¬ Settled (rejected e) :=
  fun h => absurd h.2 (by simp [rejected])

/-! ### The guarded handlers -/

variable {dash : Driver} {res : Resource} {s : Store}

lemma settled_conclude {α : Type} {reply : Except WriteError α} {f : α → Answer} :
    Settled (conclude reply fun value => answered (f value)) ↔ reply.isOk = true := by
  cases reply with
  | ok value => exact iff_of_true (settled_answered _) rfl
  | error e => exact iff_of_false (not_settled_rejected _) Bool.false_ne_true

lemma settled_write (op : WriteOp) (uuid : ℕ → String) :
    Settled ((settle (.inr (op.write res))).run (serve uuid) s).1 ↔
      ((op.mutation res).onTable uuid (s.table res.table)).2.isOk = true := by
  rw [← mutation_table res op]
  exact settled_conclude

lemma insert_isOk_iff (uuid : ℕ → String) (t : Table) (name : TableName) (body : Body) :
    ((Mutation.insert name body).onTable uuid t).2.isOk = true ↔ body.plain = true := by
  by_cases hp : body.plain = true
  · rw [onTable_insert body hp]
    exact iff_of_true rfl hp
  · rw [onTable_insert_refused body hp]
    exact iff_of_false Bool.false_ne_true hp

lemma update_isOk_iff (uuid : ℕ → String) (t : Table) (name : TableName) (id : String)
    (body : Body) :
    ((Mutation.update name id body).onTable uuid t).2.isOk = true ↔
      isPrimary (.str id) = true := by
  by_cases hid : isPrimary (.str id) = true
  · rw [onTable_update hid]
    exact iff_of_true rfl hid
  · obtain ⟨e, he⟩ := onTable_update_refused hid uuid t name body
    rw [he]
    exact iff_of_false Bool.false_ne_true hid

lemma ruling_settled_iff {op : WriteOp} {body : Body} {x : Outcome ⊕ Write} (uuid : ℕ → String)
    (h : Ruling dash res op body s x) :
    Settled ((settle x).run (serve uuid) s).1 ↔
      Asked dash res body ∧ (op.clear res s = true → dash.builds body.json = true ∧
        ((op.mutation res).onTable uuid (s.table res.table)).2.isOk = true) := by
  cases h with
  | unasked e hq => exact iff_of_false (not_settled_rejected e) fun h => hq h.1
  | conflict hq hc =>
    refine iff_of_true (settled_answered _) ⟨hq, fun h => ?_⟩
    exact absurd (h.symm.trans hc) (by decide)
  | unsent hq hc hb => exact iff_of_false (not_settled_rejected _) fun h => hb (h.2 hc).1
  | sent hq hc hb =>
    rw [settled_write]
    exact ⟨fun h => ⟨hq, fun _ => ⟨hb, h⟩⟩, fun h => (h.2 hc).2⟩

theorem post_settled_iff (dash : Driver) (uuid : ℕ → String) (s : Store) (res : Resource)
    (body : Body) :
    Settled ((process dash (res.request (.post body))).run (serve uuid) s).1 ↔
      GuardedAnswerable dash res s (.post body) := by
  rw [run_decision, ruling_settled_iff uuid (post_ruling dash res body s), WriteOp.mutation,
    insert_isOk_iff]
  rfl

theorem put_settled_iff (dash : Driver) (uuid : ℕ → String) (s : Store) (res : Resource)
    (id : String) (body : Body) :
    Settled ((process dash (res.request (.put id body))).run (serve uuid) s).1 ↔
      GuardedAnswerable dash res s (.put id body) := by
  rw [run_decision, GuardedAnswerable]
  by_cases hid : id = ""
  · subst hid
    rcases put_missing_cases dash res body s with ⟨ha, hd⟩ | ⟨ha, e, hd⟩
    · rw [hd]
      refine iff_of_true (settled_answered idMissing) ?_
      exact ha.imp (fun h => ⟨h, rfl⟩) fun h => ⟨h, fun hne => absurd rfl hne⟩
    · rw [hd]
      refine iff_of_false (not_settled_rejected e) fun h => ha ?_
      exact h.imp And.left And.left
  · rw [ruling_settled_iff uuid (put_ruling dash res hid body s), WriteOp.mutation,
      update_isOk_iff]
    simp [hid]

theorem delete_settled_iff (dash : Driver) (uuid : ℕ → String) (s : Store) (res : Resource)
    (id : String) :
    Settled ((process dash (res.request (.delete id))).run (serve uuid) s).1 ↔
      GuardedAnswerable dash res s (.delete id) := by
  have hwrite : Settled ((settle (.inr ((WriteOp.delete id).write res))).run (serve uuid) s).1 ↔
      isPrimary (.str id) = true := by
    rw [settled_write, WriteOp.mutation, update_isOk_iff]
  rw [run_decision, GuardedAnswerable, ← hwrite]
  by_cases hid : res = .company ∧ id = ""
  · obtain ⟨rfl, rfl⟩ := hid
    refine iff_of_true (settled_answered idMissing) ?_
    rw [hwrite]
    decide
  · have hd : decision dash res (.delete id) s = .inr ((WriteOp.delete id).write res) := by
      cases res with
      | company => exact congrArg (fun p => Plan.decide p s) (if_neg fun h => hid ⟨rfl, h⟩)
      | employee => rfl
    rw [hd]

/-! ### The other handlers -/

lemma settled_query_iff {body : Body} {field : String} {answer : Fields → Answer} :
    Settled (match official.object [(field, body.field field)] with
      | .error e => rejected e
      | .ok predicate => answered (answer predicate)) ↔ official.queryable body field = true := by
  have hq : official.queryable body field = true ↔ ∃ v, Askable body field v := by
    simp [Driver.queryable, Askable, Option.any_eq_true]
  rw [hq]
  rcases object_cases body field with ⟨v, hv, ho⟩ | ⟨hv, e, ho⟩
  · rw [ho]
    exact iff_of_true (settled_answered _) ⟨v, hv⟩
  · rw [ho]
    exact iff_of_false (not_settled_rejected e) hv

theorem position_settled_iff (dash : Driver) (uuid : ℕ → String) (s : Store) (body : Body) :
    Settled ((process dash (.createPosition body)).run (serve uuid) s).1 ↔
      dash.builds body.json = true ∧ body.plain = true ∧ official.queryable body "role" = true := by
  rw [run_position]
  split_ifs with hb hp
  · simp only [hb, hp, true_and]
    exact settled_query_iff
  · exact iff_of_false (not_settled_rejected _) fun h => hp h.2.1
  · exact iff_of_false (not_settled_rejected _) fun h => hb h.1

theorem register_settled_iff (dash : Driver) (uuid : ℕ → String) (s : Store) (body : Body) :
    Settled ((process dash (.registerUser body)).run (serve uuid) s).1 ↔
      dash.builds body.json = true ∧ body.plain = true ∧
        official.queryable body "username" = true := by
  rw [run_register]
  split_ifs with hb hp
  · simp only [hb, hp, true_and]
    exact settled_query_iff
  · exact iff_of_false (not_settled_rejected _) fun h => hp h.2.1
  · exact iff_of_false (not_settled_rejected _) fun h => hb h.1

lemma expr_cases (driver : Driver) (body : Body) (field : String) :
    (driver.expressible body field = true ∧
      ∃ v, body.field field = some v ∧ driver.expr (body.field field) = .ok v) ∨
    (driver.expressible body field ≠ true ∧ ∃ e, driver.expr (body.field field) = .error e) := by
  unfold Driver.expressible Driver.expr
  cases body.field field with
  | none => exact Or.inr ⟨Bool.false_ne_true, _, rfl⟩
  | some v =>
    by_cases hb : driver.builds v = true
    · exact Or.inl ⟨hb, v, rfl, if_pos hb⟩
    · exact Or.inr ⟨hb, _, if_neg hb⟩

lemma reply_isOk_iff {query : Query} : (query.reply s).isOk = true ↔ query.refused s = none := by
  rw [Query.reply]
  cases query.refused s with
  | none => exact iff_of_true rfl rfl
  | some v => exact iff_of_false Bool.false_ne_true (Option.some_ne_none v)

theorem login_settled_iff (dash : Driver) (uuid : ℕ → String) (s : Store) (body : Body) :
    Settled ((process dash (.loginUser body)).run (serve uuid) s).1 ↔
      dash.expressible body "username" = true ∧ dash.expressible body "password" = true ∧
        LoginTaken s body := by
  rw [run_login, loginOutcome]
  rcases expr_cases dash body "username" with ⟨hu, u, huv, hue⟩ | ⟨hu, e, hue⟩
  · rcases expr_cases dash body "password" with ⟨hp, p, hpv, hpe⟩ | ⟨hp, e, hpe⟩
    · have htaken : LoginTaken s body ↔ (loginQuery u p).refused s = none := by
        simp [LoginTaken, huv, hpv]
      rw [hue, hpe, and_iff_right hu, and_iff_right hp, htaken, ← reply_isOk_iff]
      exact settled_conclude
    · rw [hue, hpe]
      exact iff_of_false (not_settled_rejected e) fun h => hp h.2.1
  · rw [hue]
    exact iff_of_false (not_settled_rejected e) fun h => hu h.1

def annLogin : Request :=
  .loginUser (.object (Doc.strings [("username", "ann"), ("password", "one")]))

end PersonnelBackend.Responsiveness
