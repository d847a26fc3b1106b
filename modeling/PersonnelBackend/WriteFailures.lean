import PersonnelBackend.DirectRoutes
import PersonnelBackend.GuardedAlone

/-! When a failed request leaves the tables as they were. The guarded handlers
look before they write; the creates of positions and users write first, and
what fails afterwards is not undone. -/
namespace PersonnelBackend.WriteFailures
open Document Database Express Resumption Router Direct Guarded

/-- An answer of status 400 or above, or a rejection. -/
def Failed (o : Outcome) : Prop := (∃ a ∈ o.sent, 400 ≤ a.status) ∨ o.rejected.isSome = true

/-- No document of the body goes in: every usable key is taken. -/
def StoresNothing (uuid : ℕ → String) (t : Table) (body : Body) : Prop :=
  ∀ row ∈ validRows uuid body, (t.get row.key).isSome = true

/-- What keeps a failing request from having changed a table. -/
def Undisturbed (dash : Driver) (uuid : ℕ → String) (s : Store) : Request → Prop
  | .createPosition body => dash.builds body.json = true → body.plain = true →
    StoresNothing uuid s.positions body ∨ ∃ v, Askable body "role" v
  | .registerUser body => dash.builds body.json = true → body.plain = true →
    StoresNothing uuid s.user body ∨ ∃ v, Askable body "username" v ∧
      (Query.filter .user (.cons "username" v .nil)).answer s = 0
  | _ => True

lemma failed_answered {a : Answer} : Failed (answered a) ↔ 400 ≤ a.status := by
  simp [Failed, answered]

lemma failed_rejected (e : JsError) : Failed (rejected e) := Or.inr rfl

/-! ### The guarded handlers -/

lemma ending_status_of_failed {res : Resource} {op : WriteOp}
    {reply : Except WriteError WriteResult} (h : Failed (op.ending res reply)) :
    (op.ending res reply).status ≠ some 200 := by
  cases reply with
  | error e => exact fun hs => nomatch hs
  | ok r =>
    rw [ending_ok, failed_answered] at h
    rw [ending_ok, status_answered, ne_eq, Option.some.injEq]
    omega

theorem guarded_failed (dash : Driver) (uuid : ℕ → String) (s : Store) (res : Resource)
    (op : WriteOp) (h : Failed ((process dash (res.request op)).run (serve uuid) s).1) :
    ((process dash (res.request op)).run (serve uuid) s).2 = s := by
  by_cases ha : Accepted dash res op s
  · rw [run_accepted ha] at h ⊢
    exact Store.setTable_eq_iff.mpr (ending_failed (ending_status_of_failed h))
  · obtain ⟨outcome, -, hrun⟩ := run_refused ha uuid
    rw [hrun]

/-! ### The creates that write first -/

lemma storesNothing_iff (table : TableName) {uuid : ℕ → String} {s : Store} {body : Body} :
    s.setTable table ((s.table table).insert uuid body).1 = s ↔
      StoresNothing uuid (s.table table) body := by
  rw [Store.setTable_eq_iff, Table.insert_table, Table.insertRows_eq_self]
  rfl

theorem position_failed_iff (dash : Driver) (uuid : ℕ → String) (s : Store) (body : Body) :
    (Failed ((process dash (.createPosition body)).run (serve uuid) s).1 →
      ((process dash (.createPosition body)).run (serve uuid) s).2 = s) ↔
      Undisturbed dash uuid s (.createPosition body) := by
  rw [run_position, Undisturbed]
  split_ifs with hb hp
  · simp only [hb, hp, true_implies]
    rw [show s.positions = s.table .positions from rfl, storesNothing_iff .positions,
      positionOutcome]
    rcases object_cases body "role" with ⟨v, hv, ho⟩ | ⟨hv, e, ho⟩
    · rw [ho]
      exact iff_of_true (fun h => absurd (failed_answered.mp h) (by simp)) (Or.inr ⟨v, hv⟩)
    · rw [ho]
      simp only [failed_rejected, true_implies, hv, or_false]
  · exact iff_of_true (fun _ => rfl) fun _ h => absurd h hp
  · exact iff_of_true (fun _ => rfl) fun h => absurd h hb

lemma askable_object {uuid : ℕ → String} {t : Table} {body : Body} {field : String} {v : Json}
    (hv : Askable body field v) (hs : ¬ StoresNothing uuid t body) :
    ∃ d, body = .object d ∧ d.get field = some v ∧ Insertable uuid t d := by
  match body with
  | .object d =>
    refine ⟨d, rfl, hv.1, ?_⟩
    by_contra hin
    have h := insert_of_not_insertable hin
    rw [Table.insert_table, Table.insertRows_eq_self] at h
    exact hs h
  | .array items => cases hv.1

theorem register_failed_iff (dash : Driver) (uuid : ℕ → String) (s : Store) (body : Body) :
    (Failed ((process dash (.registerUser body)).run (serve uuid) s).1 →
      ((process dash (.registerUser body)).run (serve uuid) s).2 = s) ↔
      Undisturbed dash uuid s (.registerUser body) := by
  rw [run_register, Undisturbed]
  split_ifs with hb hp
  · simp only [hb, hp, true_implies]
    by_cases hs : StoresNothing uuid s.user body
    · exact iff_of_true (fun _ => (storesNothing_iff .user).mpr hs) (Or.inl hs)
    · have hsame : s.setTable .user (s.user.insert uuid body).1 ≠ s :=
        fun h => hs ((storesNothing_iff .user).mp h)
      simp only [hs, hsame, false_or, imp_false]
      rw [registerOutcome]
      rcases object_cases body "username" with ⟨v, hv, ho⟩ | ⟨hv, e, ho⟩
      · obtain ⟨d, rfl, hd, hin⟩ := askable_object hv hs
        have hunique : (∃ w, Askable (.object d) "username" w ∧
            (Query.filter .user (.cons "username" w .nil)).answer s = 0) ↔
            (Query.filter .user (.cons "username" v .nil)).answer s = 0 := by
          constructor
          · rintro ⟨w, hw, hrows⟩
            obtain rfl : w = v := Option.some.inj (hw.1.symm.trans hd)
            exact hrows
          · intro hrows
            exact ⟨v, hv, hrows⟩
        rw [ho, hunique]
        simp only [register_rows hd hin, Multiset.card_cons, failed_answered, registerAnswer]
        split_ifs with hcount
        · refine iff_of_false (by simp) fun hrows => ?_
          rw [hrows] at hcount
          simp at hcount
        · refine iff_of_true (by simp) (Multiset.card_eq_zero.mp (by omega))
      · rw [ho]
        refine iff_of_false (fun h => h (failed_rejected e)) ?_
        rintro ⟨v, hv', -⟩
        exact hv ⟨v, hv'⟩
  · exact iff_of_true (fun _ => rfl) fun _ h => absurd h hp
  · exact iff_of_true (fun _ => rfl) fun h => absurd h hb

/-! ### All routes -/

lemma getEmployeesByCompany_unchanged (dash : Driver) (uuid : ℕ → String) (s : Store)
    (company : String) :
    ((process dash (.getEmployeesByCompany company)).run (serve uuid) s).2 = s := by
  rw [process_getEmployeesByCompany]
  rfl

def annStored : Store := Store.empty.setTable .user (Table.empty.insert (fun _ => "a")
  (.object (Doc.strings [("username", "ann"), ("password", "one")]))).1

def annAgain : Request :=
  .registerUser (.object (Doc.strings [("username", "ann"), ("password", "two")]))

end PersonnelBackend.WriteFailures
