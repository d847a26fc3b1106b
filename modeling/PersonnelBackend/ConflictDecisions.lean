import PersonnelBackend.GuardedAlone

/-! When a create or an update is refused with 409, in terms of the stored
records. The check looks for each compared field on some Active record of the
name, whichever record that is and whichever record the request addresses. -/
namespace PersonnelBackend.ConflictDecisions
open Document Database Express Resumption Router Guarded

def statusAt (dash : Driver) (uuid : ℕ → String) (res : Resource) (op : WriteOp) (s : Store) :
    Option ℕ :=
  ((process dash (res.request op)).run (serve uuid) s).1.status

/-- The document under `k` is Active and has the key fields of the body. -/
def Carries (res : Resource) (t : Table) (body : Body) (k : Json) : Prop :=
  ∃ d, t.get k = some d ∧ Active d ∧ ∀ f ∈ res.keyFields, d.get f = body.field f

/-- The document under `k` is Active and has the name and the field `f` of the body. -/
def Shares (res : Resource) (t : Table) (body : Body) (f : String) (k : Json) : Prop :=
  ∃ d, t.get k = some d ∧ Active d ∧ d.get res.nameField = body.field res.nameField ∧
    d.get f = body.field f

/-- Each compared field of the body is on some Active record of its name. -/
def Covered (res : Resource) (t : Table) (body : Body) : Prop :=
  ∀ f ∈ res.comparedFields, ∃ k, Shares res t body f k

structure Named (res : Resource) (body : Body) : Prop where
  name : (body.field res.nameField).isSome = true
  scalar : ∀ f ∈ res.keyFields, ∀ v, body.field f = some v → v.isScalar = true

variable {dash : Driver} {uuid : ℕ → String} {res : Resource} {s : Store} {t t' : Table}
  {body : Body}

lemma Carries.shares {k : Json} (h : Carries res t body k) {f : String}
    (hf : f ∈ res.comparedFields) :
    Shares res t body f k := by
  obtain ⟨d, hk, hactive, hfields⟩ := h
  exact ⟨d, hk, hactive, hfields _ List.mem_cons_self, hfields f (List.mem_cons_of_mem _ hf)⟩

lemma Carries.covered {k : Json} (h : Carries res t body k) : Covered res t body :=
  fun _ hf => ⟨k, h.shares hf⟩

/-! ### The answer 409 -/

lemma conflictAnswer_status (res : Resource) : res.conflictAnswer.status = 409 := by
  cases res <;> rfl

lemma answer_status_ne (res : Resource) (op : WriteOp) (r : WriteResult) :
    (op.answer res r).status ≠ 409 := by
  cases op with
  | post body => cases res <;> simp [WriteOp.answer, Resource.created]
  | delete id => cases res <;> simp [WriteOp.answer, Resource.deleted]
  | put id body =>
    cases res with
    | employee => simp [WriteOp.answer, Resource.updated]
    | company =>
      rw [WriteOp.answer, Resource.updated]
      split_ifs <;> simp

lemma ending_status_ne (res : Resource) (op : WriteOp) (reply : Except WriteError WriteResult) :
    (op.ending res reply).status ≠ some 409 := by
  cases reply with
  | ok r => exact fun h => answer_status_ne res op r (Option.some.inj h)
  | error e => exact fun h => nomatch h

lemma Named.asked_iff (h : Named res body) :
    Asked dash res body ↔ dash.queryable body res.nameField = true := by
  obtain ⟨n, hn⟩ := Option.isSome_iff_exists.mp h.name
  have hplain : n.plain = true := Json.plain_of_isScalar (h.scalar _ List.mem_cons_self n hn)
  exact and_iff_left (Body.readable_iff.mpr ⟨n, hn, hplain⟩)

lemma ruling_refused_iff {op : WriteOp} {x : Outcome ⊕ Write} (h : Ruling dash res op body s x) :
    ((settle x).run (serve uuid) s).1.status = some 409 ↔
      Asked dash res body ∧ op.clear res s = false := by
  cases h with
  | unasked e hq => simp [settle, hq]
  | conflict hq hc => exact iff_of_true (congrArg some (conflictAnswer_status res)) ⟨hq, hc⟩
  | unsent hq hc hb => simp [settle, hc]
  | sent hq hc hb =>
    refine iff_of_false (ending_status_ne res op _) ?_
    simp [hc]

theorem post_refused_iff (dash : Driver) (uuid : ℕ → String) (res : Resource) (body : Body)
    (s : Store) :
    statusAt dash uuid res (.post body) s = some 409 ↔
      Asked dash res body ∧ (WriteOp.post body).clear res s = false := by
  rw [statusAt, run_decision]
  exact ruling_refused_iff (post_ruling dash res body s)

theorem put_refused_iff (dash : Driver) (uuid : ℕ → String) (res : Resource) (id : String)
    (body : Body) (s : Store) :
    statusAt dash uuid res (.put id body) s = some 409 ↔
      id ≠ "" ∧ Asked dash res body ∧ (WriteOp.put id body).clear res s = false := by
  rw [statusAt, run_decision]
  by_cases hid : id = ""
  · subst hid
    rcases put_missing_cases dash res body s with ⟨-, hd⟩ | ⟨-, e, hd⟩
    · simp [hd, settle, idMissing]
    · simp [hd, settle]
  · rw [ruling_refused_iff (put_ruling dash res hid body s)]
    exact (and_iff_right hid).symm

/-- With scalar key fields the check fails exactly on the bodies that the Active
records cover. -/
theorem clear_eq_false_iff (op : WriteOp) (hop : op.field = body.field) (hbody : Named res body) :
    op.clear res s = false ↔ Covered res (s.table res.table) body := by
  obtain ⟨n, hn⟩ := Option.isSome_iff_exists.mp hbody.name
  have hname : op.field res.nameField = some n := by rw [hop, hn]
  have hscalar : n.isScalar = true := hbody.scalar _ List.mem_cons_self n hn
  rw [WriteOp.clear, Bool.not_eq_false', conflict_iff hname, Covered, WriteOp.rivals, hname, hop]
  refine forall₂_congr fun f hf => ?_
  have hf' : ∀ v, body.field f = some v → v.isScalar = true :=
    hbody.scalar f (List.mem_cons_of_mem _ hf)
  rw [and_iff_right hf']
  constructor
  · rintro ⟨d, hd, hfd⟩
    obtain ⟨⟨k, hk⟩, hdn, hactive⟩ := (mem_active_rows hscalar).mp hd
    exact ⟨k, d, hk, hactive, hdn.trans hn.symm, hfd⟩
  · rintro ⟨k, d, hk, hactive, hdn, hfd⟩
    exact ⟨d, (mem_active_rows hscalar).mpr ⟨⟨k, hk⟩, hdn.trans hn, hactive⟩, hfd⟩

/-! ### Creating an employee -/

/-- Each compared field of the body is on an Active record of its name, but no
Active record has them all. -/
def Scattered (res : Resource) (t : Table) (body : Body) : Prop :=
  Covered res t body ∧ ¬ ∃ k, Carries res t body k

/-- A new employee is refused only because of one Active record with all three
fields, if and only if its query cannot be asked or its position and company are
not scattered over several records of its name. -/
theorem employee_refused_by_one_iff (dash : Driver) (uuid : ℕ → String) (s : Store) (body : Body)
    (hbody : Named .employee body) :
    (statusAt dash uuid .employee (.post body) s = some 409 →
        ∃ k, Carries .employee s.employee body k) ↔
      ¬ (dash.queryable body "employee_name" = true ∧ Scattered .employee s.employee body) := by
  have hrefused : statusAt dash uuid .employee (.post body) s = some 409 ↔
      dash.queryable body "employee_name" = true ∧ Covered .employee s.employee body := by
    rw [post_refused_iff, clear_eq_false_iff (.post body) rfl hbody, hbody.asked_iff]
    rfl
  rw [hrefused, Scattered, not_and, not_and_not_right, and_imp]

def employee (name position company : String) : Doc := Doc.strings
  [("company_name", company), ("employee_name", name), ("employee_position", position),
    ("status", "Active")]

def staff : Store := Store.empty.setTable .employee
  ((Table.empty.insert (fun _ => "a") (.object (employee "ann" "clerk" "Acme"))).1.insert
    (fun _ => "b")
    (.object (employee "ann" "cook" "Best"))).1

theorem employee_refused_by_one_iff_ann :
    ∃ k, Carries .employee staff.employee (.object (employee "ann" "clerk" "Acme")) k := by
  refine (employee_refused_by_one_iff official (fun _ => "c") staff
    (.object (employee "ann" "clerk" "Acme"))
    ⟨by decide, fun f _ v hv => Doc.strings_isScalar hv⟩).mpr ?_ (by decide)
  rintro ⟨-, -, hnone⟩
  exact hnone ⟨.str "a", maybeGenerateKey "a" (employee "ann" "clerk" "Acme"), by decide, by decide,
    by decide⟩

/-- A clerk at the other company is refused, though nobody is one. -/
theorem clerk_at_best_refused :
    statusAt official (fun _ => "c") .employee
      (.post (.object (employee "ann" "clerk" "Best"))) staff =
        some 409 ∧
      ¬ ∃ k, Carries .employee staff.employee (.object (employee "ann" "clerk" "Best")) k := by
  refine ⟨by decide, ?_⟩
  rintro ⟨k, d, hk, -, hfields⟩
  have hdiffer : ∀ d ∈ staff.employee.docs, ¬ ∀ f ∈ Resource.employee.keyFields,
      d.get f = (employee "ann" "clerk" "Best").get f := by decide
  exact hdiffer d (Table.mem_docs.mpr ⟨k, hk⟩) hfields

/-! ### Updates -/

def Complete (res : Resource) (d : Doc) : Prop :=
  ∀ f ∈ res.keyFields, ∃ v, d.get f = some v ∧ v.isScalar = true

/-- An update is refused because of a record it does not address, and one that
has just succeeded can be repeated. -/
structure RefusedByOthers (dash : Driver) (uuid : ℕ → String) (res : Resource) (id : String)
    (d : Doc) (s : Store) : Prop where
  refused : statusAt dash uuid res (.put id (.object d)) s = some 409 →
    ∃ k, k ≠ .str id ∧ Carries res (s.table res.table) (.object d) k
  repeated : statusAt dash uuid res (.put id (.object d)) s = some 200 →
    statusAt dash uuid res (.put id (.object d))
      ((process dash (res.request (.put id (.object d)))).run (serve uuid) s).2 ≠ some 409

/-- The check finds the fields of the body, and not on a record other than the
addressed one. -/
def SelfRefused (dash : Driver) (res : Resource) (id : String) (d : Doc) (t : Table) : Prop :=
  id ≠ "" ∧ dash.queryable (.object d) res.nameField = true ∧ Covered res t (.object d) ∧
    ¬ ∃ k, k ≠ .str id ∧ Carries res t (.object d) k

/-- The update goes through and leaves the addressed record Active. -/
def Relapses (dash : Driver) (res : Resource) (id : String) (d : Doc) (t : Table) : Prop :=
  id ≠ "" ∧ dash.builds (.obj d.fields) = true ∧ ¬ Covered res t (.object d) ∧
    ∃ old, t.get (.str id) = some old ∧
      (d.plain = true ∧ (d.get "id" = none ∨ d.get "id" = some (.str id))) ∧ Active (old.merge d)

variable {id : String} {d : Doc}

lemma Complete.named (h : Complete res d) : Named res (.object d) := by
  refine ⟨?_, fun f hf v hv => ?_⟩
  · obtain ⟨n, hn, -⟩ := h _ List.mem_cons_self
    exact Option.isSome_iff_exists.mpr ⟨n, hn⟩
  · obtain ⟨w, hw, hscalar⟩ := h f hf
    obtain rfl : w = v := Option.some.inj (hw.symm.trans hv)
    exact hscalar

lemma put_refused_iff_covered (hd : Complete res d) :
    statusAt dash uuid res (.put id (.object d)) s = some 409 ↔
      id ≠ "" ∧ dash.queryable (.object d) res.nameField = true ∧
        Covered res (s.table res.table) (.object d) := by
  rw [put_refused_iff, clear_eq_false_iff (.put id (.object d)) rfl hd.named, hd.named.asked_iff]

lemma put_accepted_iff (hd : Complete res d) :
    Accepted dash res (.put id (.object d)) s ↔
      id ≠ "" ∧ dash.builds (.obj d.fields) = true ∧
      ¬ Covered res (s.table res.table) (.object d) := by
  have hclear := clear_eq_false_iff (s := s) (.put id (.object d)) rfl hd.named
  rw [← hclear, Bool.not_eq_false]
  refine and_congr_right fun _ => and_congr_left fun _ => and_iff_right ?_
  obtain ⟨n, hn, hscalar⟩ := hd _ List.mem_cons_self
  exact Body.readable_iff.mpr ⟨n, hn, Json.plain_of_isScalar hscalar⟩

lemma carries_merge (hd : Complete res d) {old : Doc} {k : Json} (hk : t.get k = some (old.merge d))
    (hactive : Active (old.merge d)) : Carries res t (.object d) k := by
  refine ⟨_, hk, hactive, fun f hf => ?_⟩
  obtain ⟨v, hv, hscalar⟩ := hd f hf
  exact (Doc.get_merge_scalar hv hscalar).trans hv.symm

lemma active_of_covered (hnot : ¬ Covered res t (.object d))
    (h : Covered res (t.update id (.object d)).1 (.object d)) :
    ∃ old, t.get (.str id) = some old ∧
      (d.plain = true ∧ (d.get "id" = none ∨ d.get "id" = some (.str id))) ∧
      Active (old.merge d) := by
  by_contra hnone
  refine hnot fun f hf => ?_
  obtain ⟨k, e, hk, hactive, hname, hfield⟩ := h f hf
  rw [Table.update_get] at hk
  split_ifs at hk with hid
  · obtain ⟨old, hold, rfl⟩ := Option.map_eq_some_iff.mp hk
    subst hid
    rcases old.apply_cases d with hmerge | hkept
    · have hkey := (Doc.apply_eq_merge_iff (t.get_plain hold) (t.get_id hold)).mp hmerge
      refine absurd ⟨old, hold, hkey, ?_⟩ hnone
      rw [← hmerge]
      exact hactive
    · rw [hkept] at hactive hname hfield
      exact ⟨_, old, hold, hactive, hname, hfield⟩
  · exact ⟨k, e, hk, hactive, hname, hfield⟩

lemma update_merges {old : Doc} (hold : t.get (.str id) = some old)
    (hid : d.plain = true ∧ (d.get "id" = none ∨ d.get "id" = some (.str id)))
    (hne : old.merge d ≠ old) :
    (t.update id (.object d)).2.replaced = 1 ∧
      (t.update id (.object d)).1.get (.str id) = some (old.merge d) := by
  refine ⟨?_, ?_⟩
  · rw [Table.update_present hold hid.1, dif_pos ((Doc.merge_id_iff (t.get_id hold)).mpr hid.2),
      if_neg hne]
  · rw [Table.update_get, if_pos rfl, hold, Option.map_some,
      (Doc.apply_eq_merge_iff (t.get_plain hold) (t.get_id hold)).mpr hid]

lemma Relapses.refused (hd : Complete res d) (h : Relapses dash res id d (s.table res.table)) :
    statusAt dash uuid res (.put id (.object d)) s = some 200 ∧
      statusAt dash uuid res (.put id (.object d))
        ((process dash (res.request (.put id (.object d)))).run (serve uuid) s).2 = some 409 := by
  obtain ⟨hid, hbuilds, hnot, old, hold, hkey, hactive⟩ := h
  have ha : Accepted dash res (.put id (.object d)) s :=
    (put_accepted_iff hd).mpr ⟨hid, hbuilds, hnot⟩
  have hne : old.merge d ≠ old := by
    intro hsame
    exact hnot (carries_merge hd (hold.trans (congrArg some hsame.symm)) hactive).covered
  obtain ⟨hreplaced, hnew⟩ := update_merges hold hkey hne
  have hwrite : ((WriteOp.put id (.object d)).mutation res).onTable uuid (s.table res.table) =
      (((s.table res.table).update id (.object d)).1,
        .ok ((s.table res.table).update id (.object d)).2) :=
    onTable_update (Table.get_usable hold) uuid (s.table res.table) res.table (.object d)
  refine ⟨?_, ?_⟩
  · rw [statusAt, run_accepted ha uuid, hwrite, ending_ok, status_answered]
    cases res with
    | employee => rfl
    | company =>
      have hpos : ((s.table Resource.company.table).update id (.object d)).2.replaced > 0 := by
        rw [hreplaced]
        exact Nat.one_pos
      exact congrArg (fun a : Answer => some a.status) (if_pos hpos)
  · rw [put_refused_iff_covered hd, run_accepted ha uuid, hwrite, Store.table_setTable]
    exact ⟨hid, (asked_of_sendable ha.2.1).1, (carries_merge hd hnew hactive).covered⟩

lemma relapses_of_status (hd : Complete res d)
    (hfirst : statusAt dash uuid res (.put id (.object d)) s = some 200)
    (hsecond : statusAt dash uuid res (.put id (.object d))
      ((process dash (res.request (.put id (.object d)))).run (serve uuid) s).2 = some 409) :
    Relapses dash res id d (s.table res.table) := by
  have ha : Accepted dash res (.put id (.object d)) s := accepted_of_status hfirst
  obtain ⟨hid, hbuilds, hnot⟩ := (put_accepted_iff hd).mp ha
  rw [put_refused_iff_covered hd, run_accepted ha uuid, Store.table_setTable, WriteOp.mutation,
    onTable_update_table] at hsecond
  exact ⟨hid, hbuilds, hnot, active_of_covered hnot hsecond.2.2⟩

def company (name : String) : Doc := Doc.strings [("company_name", name), ("status", "Active")]

def acme : Store := Store.empty.setTable .company
  (Table.empty.insert (fun _ => "a") (.object (company "Acme"))).1

lemma acme_carries : Carries .company acme.company (.object (company "Acme")) (.str "a") :=
  ⟨maybeGenerateKey "a" (company "Acme"), by decide, by decide, by decide⟩

def renamed : Store :=
  ((process official (.putCompany "a" (.object (company "Best")))).run (serve fun _ => "") acme).2

/-- A create is refused exactly when an Active company has an equal name, if and
only if the name is a scalar or no Active company has it: the second look with
`includes` passes over arrays and objects that the query has found. -/
theorem company_refused_iff_named_iff (dash : Driver) (uuid : ℕ → String) (s : Store) (body : Body)
    (n : Json) (hn : body.field "company_name" = some n)
    (hquery : dash.queryable body "company_name" = true) :
    (statusAt dash uuid .company (.post body) s = some 409 ↔
        ∃ k, ActiveNamed s.company "company_name" k n) ↔
      n.isScalar = true ∨ ¬ ∃ k, ActiveNamed s.company "company_name" k n := by
  have hrefused : statusAt dash uuid .company (.post body) s = some 409 ↔
      n.isScalar = true ∧ ∃ k, ActiveNamed s.company "company_name" k n := by
    have hop : (WriteOp.post body).field Resource.company.nameField = some n := hn
    rw [post_refused_iff, WriteOp.clear, WriteOp.rivals, hop, Bool.not_eq_false',
      ← company_conflict_iff hop]
    refine and_iff_right_of_imp fun h => ?_
    obtain ⟨-, k, d, hd, -, hname⟩ := (company_conflict_iff hop).mp h
    exact ⟨hquery, Body.readable_iff.mpr ⟨n, hn, (Fields.get_plain (Table.get_plain hd) hname).2⟩⟩
  rw [hrefused]
  constructor
  · intro h
    by_cases hk : ∃ k, ActiveNamed s.company "company_name" k n
    · exact Or.inl (h.mpr hk).1
    · exact Or.inr hk
  · rintro (hscalar | hnone)
    · exact and_iff_right hscalar
    · exact iff_of_false (fun h => hnone h.2) hnone

theorem company_refused_iff_named_iff_acme :
    statusAt official (fun _ => "b") .company (.post (.object (company "Acme"))) acme = some 409 ↔
      ∃ k, ActiveNamed acme.company "company_name" k (.str "Acme") :=
  (company_refused_iff_named_iff official (fun _ => "b") acme (.object (company "Acme"))
    (.str "Acme")
    (by decide) (by decide)).mpr (Or.inl rfl)

def arrayName : Json := .arr (.cons (.str "Acme") .nil)

def arrayNamed : Doc :=
  ⟨.cons "company_name" arrayName (.cons "status" (.str "Active") .nil), by decide, by decide⟩

def club : Store :=
  Store.empty.setTable .company (Table.empty.insert (fun _ => "a") (.object arrayNamed)).1

/-- The second company of the same name is found by the query and accepted. -/
theorem array_name_accepted_twice :
    statusAt official (fun _ => "b") .company (.post (.object arrayNamed)) club = some 200 ∧
      Multiset.card ((WriteOp.post (.object arrayNamed)).rivals .company club) = 1 ∧
      ActiveNamed club.company "company_name" (.str "a") arrayName :=
  ⟨by decide, by decide, maybeGenerateKey "a" arrayNamed, by decide, by decide, by decide⟩

end PersonnelBackend.ConflictDecisions
