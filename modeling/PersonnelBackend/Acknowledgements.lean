import PersonnelBackend.DirectRoutes
import PersonnelBackend.GuardedAlone

/-! Whether a success answer means that the write happened. The database reports
failed writes in the result object, and only the update of a company looks at
the result before it answers. -/
namespace PersonnelBackend.Acknowledgements
open Document Database Express Resumption Router Direct Guarded

/-- Some answer has status 200 and the field `error` set to false. -/
def Succeeded (o : Outcome) : Prop :=
  ∃ a ∈ o.sent, a.status = 200 ∧ ∃ m, a.payload = .object m ∧ m.error = some false

/-! ### What the write of a request should have done -/

def Added (uuid : ℕ → String) (name : TableName) (d : Doc) (s s' : Store) : Prop :=
  ∃ row : Row, (s.table name).get row.key = none ∧ row.doc = maybeGenerateKey (uuid 0) d ∧
    s' = s.setTable name ((s.table name).put row)

def Merged (name : TableName) (id : String) (d : Doc) (s s' : Store) : Prop :=
  ∃ old, (s.table name).get (.str id) = some old ∧
    (s'.table name).get (.str id) = some (old.merge d)

/-- The addressed record existed and is now Inactive and otherwise the same. -/
def Retired (name : TableName) (id : String) (s s' : Store) : Prop :=
  ∃ old new, (s.table name).get (.str id) = some old ∧ (s'.table name).get (.str id) = some new ∧
    new.get "status" = some (.str "Inactive") ∧ ∀ f, f ≠ "status" → new.get f = old.get f

def Happened (uuid : ℕ → String) (s s' : Store) : Request → Prop
  | .postCompany (.object d) => Added uuid .company d s s'
  | .postEmployee (.object d) => Added uuid .employee d s s'
  | .createPosition (.object d) => Added uuid .positions d s s'
  | .registerUser (.object d) => Added uuid .user d s s'
  | .putCompany id (.object d) => Merged .company id d s s'
  | .putEmployee id (.object d) => Merged .employee id d s s'
  | .putCompany _ (.array _) => False
  | .putEmployee _ (.array _) => False
  | .deleteCompany id => Retired .company id s s'
  | .deleteEmployee id => Retired .employee id s s'
  | _ => True

def Mergeable (t : Table) (id : String) (d : Doc) : Prop :=
  (t.get (.str id)).isSome = true ∧ d.plain = true ∧
    (d.get "id" = none ∨ d.get "id" = some (.str id))

/-- The requests that are not answered 200 in vain: a create that gets through
has a usable and free key, an update or deletion that gets through addresses a
stored record, and an employee update carries no other key and nothing that the
server refuses. A query that fails as a whole is not answered at all. -/
def Faithful (dash : Driver) (uuid : ℕ → String) (s : Store) : Request → Prop
  | .postCompany (.object d) =>
    Accepted dash .company (.post (.object d)) s → d.plain = true → Insertable uuid s.company d
  | .postEmployee (.object d) =>
    Accepted dash .employee (.post (.object d)) s → d.plain = true → Insertable uuid s.employee d
  | .createPosition (.object d) =>
    dash.builds (.obj d.fields) = true → d.plain = true →
      (∃ v, Askable (.object d) "role" v) → Insertable uuid s.positions d
  | .registerUser (.object d) =>
    dash.builds (.obj d.fields) = true → d.plain = true →
      ∀ v, Askable (.object d) "username" v →
        Multiset.card ((Query.filter .user (.cons "username" v .nil)).answer s) ≤ 1 →
        Insertable uuid s.user d
  | .putEmployee id (.object d) =>
    Accepted dash .employee (.put id (.object d)) s → isPrimary (.str id) = true →
      Mergeable s.employee id d
  | .deleteCompany id =>
    id ≠ "" → isPrimary (.str id) = true → (s.company.get (.str id)).isSome = true
  | .deleteEmployee id => isPrimary (.str id) = true → (s.employee.get (.str id)).isSome = true
  | _ => True

/-! ### One write -/

lemma succeeded_answered {a : Answer} :
    Succeeded (answered a) ↔ a.status = 200 ∧ ∃ m, a.payload = .object m ∧
    m.error = some false := by
  simp [Succeeded, answered]

lemma not_succeeded_rejected (e : JsError) : ¬ Succeeded (rejected e) := by
  simp [Succeeded, rejected]

lemma not_succeeded_refusal {res : Resource} {o : Outcome} (h : Refusal res o) : ¬ Succeeded o := by
  rcases h with ⟨e, rfl⟩ | rfl | rfl
  · exact not_succeeded_rejected e
  · simp [succeeded_answered, idMissing]
  · cases res <;> simp [succeeded_answered, Resource.conflictAnswer]

lemma succeeded_created (res : Resource) (r : WriteResult) :
    Succeeded (answered (res.created r)) := by
  cases res <;> exact succeeded_answered.mpr ⟨rfl, _, rfl, rfl⟩

lemma succeeded_deleted (res : Resource) (r : WriteResult) :
    Succeeded (answered (res.deleted r)) := by
  cases res <;> exact succeeded_answered.mpr ⟨rfl, _, rfl, rfl⟩

lemma succeeded_updated (res : Resource) (r : WriteResult) :
    Succeeded (answered (res.updated r)) ↔ (res = .company → r.replaced > 0) := by
  rw [succeeded_answered]
  cases res with
  | company =>
    rw [Resource.updated]
    split_ifs with h <;> simp [h]
  | employee => simp [Resource.updated]

lemma added_insert_iff (uuid : ℕ → String) (name : TableName) (d : Doc) (s : Store) :
    Added uuid name d s (s.setTable name ((s.table name).insert uuid (.object d)).1) ↔
      Insertable uuid (s.table name) d := by
  constructor
  · rintro ⟨row, hfree, -, hs⟩
    by_contra hout
    rw [insert_of_not_insertable hout, Store.setTable_table] at hs
    have hget := congrArg (fun s' => (Store.table s' name).get row.key) hs
    simp [Table.get_put, hfree] at hget
  · intro hin
    exact ⟨newRow uuid d hin.1, hin.2, rfl, by rw [insert_of_insertable hin]⟩

lemma merged_update_iff (name : TableName) (id : String) (d : Doc) (s : Store) :
    Merged name id d s (s.setTable name ((s.table name).update id (.object d)).1) ↔
      Mergeable (s.table name) id d := by
  cases hold : (s.table name).get (.str id) with
  | none => simp [Merged, Mergeable, hold]
  | some old =>
    simp only [Merged, Mergeable, hold, Store.table_setTable, Table.update_get, if_true,
      Option.map_some, Option.some.injEq, exists_eq_left', Option.isSome_some, true_and]
    exact Doc.apply_eq_merge_iff (Table.get_plain hold) (Table.get_id hold)

lemma retired_update_iff {name : TableName} {id : String} {s : Store} :
    Retired name id s (s.setTable name ((s.table name).update id (.object Model.inactive)).1) ↔
      ((s.table name).get (.str id)).isSome = true := by
  cases hold : (s.table name).get (.str id) with
  | none => simp [Retired, hold]
  | some old =>
    refine iff_of_true ⟨old, old.apply Model.inactive, hold, ?_, ?_, fun f hf => ?_⟩ rfl
    · rw [Store.table_setTable, Table.update_get, if_pos rfl, hold, Option.map_some]
    · rw [inactive_apply, Doc.get_merge_scalar (by rw [inactive_get]; rfl) rfl]
    · rw [inactive_apply, Doc.get_merge_none (by rw [inactive_get, if_neg hf])]

/-! ### The handlers -/

lemma succeeded_insert_iff (uuid : ℕ → String) (s : Store) (res : Resource) (d : Doc)
    (P : Store → Prop) :
    (Succeeded (WriteOp.ending res (.post (.object d))
        ((Mutation.insert res.table (.object d)).onTable uuid (s.table res.table)).2) →
      P (s.setTable res.table
        ((Mutation.insert res.table (.object d)).onTable uuid (s.table res.table)).1)) ↔
      (d.plain = true → P (s.setTable res.table
        ((s.table res.table).insert uuid (.object d)).1)) := by
  by_cases hp : d.plain = true
  · rw [onTable_insert (.object d) hp]
    exact ⟨fun h _ => h (succeeded_created res _), fun h _ => h hp⟩
  · rw [onTable_insert_refused (.object d) hp]
    exact iff_of_true (fun h => absurd h (not_succeeded_rejected _)) fun h => absurd h hp

lemma succeeded_update_iff {op : WriteOp} {res : Resource} {id : String} {d : Doc}
    (hop : op.mutation res = .update res.table id (.object d)) (uuid : ℕ → String) (s : Store)
    (P : Store → Prop) :
    (Succeeded (op.ending res ((op.mutation res).onTable uuid (s.table res.table)).2) →
      P (s.setTable res.table ((op.mutation res).onTable uuid (s.table res.table)).1)) ↔
      (isPrimary (.str id) = true →
        Succeeded (answered (op.answer res ((s.table res.table).update id (.object d)).2)) →
        P (s.setTable res.table ((s.table res.table).update id (.object d)).1)) := by
  rw [hop]
  by_cases hid : isPrimary (.str id) = true
  · rw [onTable_update hid]
    exact ⟨fun h _ => h, fun h => h hid⟩
  · obtain ⟨e, he⟩ := onTable_update_refused hid uuid (s.table res.table) res.table (.object d)
    rw [he]
    exact iff_of_true (fun h => absurd h (not_succeeded_rejected _)) fun h => absurd h hid

lemma guarded_happened_iff (dash : Driver) (uuid : ℕ → String) (s : Store) (res : Resource)
    (op : WriteOp) (P : Store → Prop) :
    (Succeeded ((process dash (res.request op)).run (serve uuid) s).1 →
      P ((process dash (res.request op)).run (serve uuid) s).2) ↔
      (Accepted dash res op s →
        Succeeded (op.ending res ((op.mutation res).onTable uuid (s.table res.table)).2) →
        P (s.setTable res.table ((op.mutation res).onTable uuid (s.table res.table)).1)) := by
  -- a guarded request keeps its promise exactly if its write, once reached and answered with
  -- success, does
  by_cases ha : Accepted dash res op s
  · rw [run_accepted ha]
    simp [ha]
  · obtain ⟨outcome, hr, hrun⟩ := run_refused ha uuid
    rw [hrun]
    simp [ha, not_succeeded_refusal hr]

theorem position_happened_iff (dash : Driver) (uuid : ℕ → String) (s : Store) (d : Doc) :
    (Succeeded ((process dash (.createPosition (.object d))).run (serve uuid) s).1 →
      Added uuid .positions d s ((process dash (.createPosition (.object d))).run
        (serve uuid) s).2) ↔
      (dash.builds (.obj d.fields) = true → d.plain = true →
        (∃ v, Askable (.object d) "role" v) → Insertable uuid s.positions d) := by
  rw [run_position, Body.json, Body.plain_object]
  by_cases hb : dash.builds (.obj d.fields) = true ∧ d.plain = true
  · simp only [hb, if_true, true_implies, positionOutcome]
    rcases object_cases (.object d) "role" with ⟨v, hv, ho⟩ | ⟨hv, e, ho⟩
    · rw [ho]
      have hyes : ∃ v, Askable (.object d) "role" v := ⟨v, hv⟩
      simp only [succeeded_answered, hyes, true_implies]
      refine Iff.trans ?_ (added_insert_iff uuid .positions d s)
      exact ⟨fun h => h ⟨trivial, _, rfl, rfl⟩, fun h _ => h⟩
    · rw [ho]
      simp [hv, not_succeeded_rejected]
  · refine iff_of_true (fun h => absurd h ?_) fun hbuilds hplain => absurd ⟨hbuilds, hplain⟩ hb
    split_ifs with hbuilds hplain
    · exact absurd ⟨hbuilds, hplain⟩ hb
    · exact not_succeeded_rejected _
    · exact not_succeeded_rejected _

lemma succeeded_registerAnswer {count : ℕ} {r : WriteResult} :
    Succeeded (answered (registerAnswer count r)) ↔ count ≤ 1 := by
  rw [succeeded_answered, registerAnswer]
  split_ifs with h
  · simpa using h
  · simpa using h

/-- Only a registration that stored nothing is in question. It is told of
success if at most one record had its username. -/
theorem register_happened_iff (dash : Driver) (uuid : ℕ → String) (s : Store) (d : Doc) :
    (Succeeded ((process dash (.registerUser (.object d))).run (serve uuid) s).1 →
      Added uuid .user d s ((process dash (.registerUser (.object d))).run (serve uuid) s).2) ↔
      (dash.builds (.obj d.fields) = true → d.plain = true →
        ∀ v, Askable (.object d) "username" v →
          Multiset.card ((Query.filter .user (.cons "username" v .nil)).answer s) ≤ 1 →
          Insertable uuid s.user d) := by
  rw [run_register, Body.json, Body.plain_object]
  by_cases hb : dash.builds (.obj d.fields) = true ∧ d.plain = true
  · have hadded : Added uuid .user d s (s.setTable .user (s.user.insert uuid (.object d)).1) ↔
        Insertable uuid s.user d := added_insert_iff uuid .user d s
    simp only [hb, if_true, true_implies, hadded]
    by_cases hin : Insertable uuid s.user d
    · exact iff_of_true (fun _ => hin) fun _ _ _ => hin
    · have hsame : s.setTable .user (s.user.insert uuid (.object d)).1 = s := by
        rw [insert_of_not_insertable hin]
        exact s.setTable_table .user
      simp only [hin, imp_false, hsame, registerOutcome]
      rcases object_cases (.object d) "username" with ⟨v, hv, ho⟩ | ⟨hv, e, ho⟩
      · rw [ho]
        rw [succeeded_registerAnswer]
        refine ⟨fun h w hw => ?_, fun h => h v hv⟩
        obtain rfl : v = w := Option.some.inj (hv.1.symm.trans hw.1)
        exact h
      · rw [ho]
        exact iff_of_true (not_succeeded_rejected e) fun v h => absurd ⟨v, h⟩ hv
  · refine iff_of_true (fun h => absurd h ?_) fun hbuilds hplain => absurd ⟨hbuilds, hplain⟩ hb
    split_ifs with hbuilds hplain
    · exact absurd ⟨hbuilds, hplain⟩ hb
    · exact not_succeeded_rejected _
    · exact not_succeeded_rejected _

lemma post_happened_iff (dash : Driver) (uuid : ℕ → String) (s : Store) (res : Resource) (d : Doc) :
    (Succeeded ((process dash (res.request (.post (.object d)))).run (serve uuid) s).1 →
      Added uuid res.table d s
        ((process dash (res.request (.post (.object d)))).run (serve uuid) s).2) ↔
      (Accepted dash res (.post (.object d)) s → d.plain = true →
        Insertable uuid (s.table res.table) d) := by
  rw [guarded_happened_iff dash uuid s res (.post (.object d)) (Added uuid res.table d s)]
  refine imp_congr_right fun _ => ?_
  rw [← added_insert_iff uuid res.table d s]
  exact succeeded_insert_iff uuid s res d (Added uuid res.table d s)

lemma delete_happened_iff (dash : Driver) (uuid : ℕ → String) (s : Store) (res : Resource)
    (id : String) :
    (Succeeded ((process dash (res.request (.delete id))).run (serve uuid) s).1 →
      Retired res.table id s ((process dash (res.request (.delete id))).run (serve uuid) s).2) ↔
      (Accepted dash res (.delete id) s → isPrimary (.str id) = true →
        ((s.table res.table).get (.str id)).isSome = true) := by
  rw [guarded_happened_iff dash uuid s res (.delete id) (Retired res.table id s)]
  refine imp_congr_right fun _ => (succeeded_update_iff rfl uuid s _).trans ?_
  refine imp_congr_right fun _ => ?_
  rw [← retired_update_iff]
  exact ⟨fun h => h (succeeded_deleted res _), fun h _ => h⟩

lemma putEmployee_happened_iff (dash : Driver) (uuid : ℕ → String) (s : Store) (id : String)
    (d : Doc) :
    (Succeeded ((process dash (.putEmployee id (.object d))).run (serve uuid) s).1 →
      Merged .employee id d s ((process dash (.putEmployee id (.object d))).run (serve uuid) s).2) ↔
      (Accepted dash .employee (.put id (.object d)) s → isPrimary (.str id) = true →
        Mergeable s.employee id d) := by
  refine (guarded_happened_iff dash uuid s .employee (.put id (.object d))
    (Merged .employee id d s)).trans (imp_congr_right fun _ => ?_)
  refine (succeeded_update_iff rfl uuid s _).trans (imp_congr_right fun _ => ?_)
  refine Iff.trans ?_ (merged_update_iff .employee id d s)
  exact ⟨fun h => h (succeeded_updated .employee _ |>.mpr (by simp)), fun h _ => h⟩

lemma putCompany_happened (dash : Driver) (uuid : ℕ → String) (s : Store) (id : String) (d : Doc) :
    Succeeded ((process dash (.putCompany id (.object d))).run (serve uuid) s).1 →
      Merged .company id d s ((process dash (.putCompany id (.object d))).run (serve uuid)
        s).2 := by
  refine (guarded_happened_iff dash uuid s .company (.put id (.object d))
    (Merged .company id d s)).mpr fun _ => (succeeded_update_iff rfl uuid s _).mpr fun _ h => ?_
  exact (merged_update_iff .company id d s).mpr
    (Table.update_replaced ((succeeded_updated .company _).mp h rfl))

lemma putArray_not_succeeded (dash : Driver) (uuid : ℕ → String) (s : Store) (res : Resource)
    (id : String) (items : List Value) :
    ¬ Succeeded ((process dash (res.request (.put id (.array items)))).run (serve uuid) s).1 := by
  have hout : ¬ Accepted dash res (.put id (.array items)) s :=
    fun h => absurd h.2.1.1 Bool.false_ne_true
  obtain ⟨outcome, hr, hrun⟩ := run_refused hout uuid
  rw [hrun]
  exact not_succeeded_refusal hr

def annRaised : Request := .putEmployee "x" (.object (Doc.strings [("employee_name", "ann")]))

end PersonnelBackend.Acknowledgements
