import PersonnelBackend.DirectRoutes
import PersonnelBackend.GuardedHistories

/-! A deletion keeps the record and marks it Inactive, and the lists leave such
records out. Seen through its list, a table is a plain store from which a
deletion removes the record, as long as no update touches the status. -/
namespace PersonnelBackend.SoftDeletion
open Document Database Express Resumption Router Histories Direct Guarded

/-! ### The plain store -/

/-- What a request does to a store that forgets what is deleted. Only records
created Active are counted. -/
def plainStep (live : Json → Option Doc) (a : Act) : Json → Option Doc :=
  match a.op with
  | .post (.object d) =>
    if Active d then Function.update live (newKey a.ids d) (some (maybeGenerateKey (a.ids 0) d))
    else live
  | .put id (.object d) => Function.update live (.str id) ((live (.str id)).map (Doc.merge · d))
  | .delete id => Function.update live (.str id) none
  | .post (.array _) => live
  | .put _ (.array _) => live

def plainAfter (acts : List Act) : Json → Option Doc := acts.foldl plainStep fun _ => none

/-! ### What the handlers acknowledge -/

def listRequest : Resource → Request
  | .company => .getCompanies
  | .employee => .getEmployees

def acknowledged (dash : Driver) (res : Resource) (s : Store) : List Act → List Act
  | [] => []
  | a :: acts =>
    let r := respond dash s (a.entry res)
    if r.1.status = some 200 then a :: acknowledged dash res r.2 acts
    else acknowledged dash res r.2 acts

/-- The database does not drop the write: a new record has a usable and free
key, and the update of an employee carries no other key and nothing that the
server refuses. -/
def Kept (res : Resource) (t : Table) (a : Act) : Prop :=
  match a.op with
  | .post (.object d) => Insertable a.ids t d
  | .put id (.object d) => res = .employee →
    d.plain = true ∧ (d.get "id" = none ∨ d.get "id" = some (.str id))
  | _ => True

instance (res : Resource) (t : Table) (a : Act) : Decidable (Kept res t a) :=
  match a with
  | ⟨_, .post (.object _)⟩ => inferInstanceAs (Decidable (Insertable _ _ _))
  | ⟨_, .put _ (.object _)⟩ => inferInstanceAs (Decidable (_ → _ ∧ (_ ∨ _)))
  | ⟨_, .delete _⟩ => inferInstanceAs (Decidable True)
  | ⟨_, .post (.array _)⟩ => inferInstanceAs (Decidable True)
  | ⟨_, .put _ (.array _)⟩ => inferInstanceAs (Decidable True)

def livePart (t : Table) (k : Json) : Option Doc := (t.get k).filter fun d => Active d

variable {dash : Driver} {res : Resource} {s : Store}

lemma acknowledged_concat (acts : List Act) (a : Act) :
    acknowledged dash res s (acts ++ [a]) = acknowledged dash res s acts ++
      if (reply dash res s acts a).status = some 200 then [a] else [] := by
  induction acts generalizing s with
  | nil =>
    simp only [List.nil_append, acknowledged]
    rfl
  | cons b acts ih =>
    have hreply : reply dash res s (b :: acts) a =
      reply dash res (respond dash s (b.entry res)).2 acts a := rfl
    simp only [List.cons_append, acknowledged, ih, hreply]
    split_ifs <;> simp

/-! ### One request -/

lemma livePart_update {t t' : Table} {key : Json} (hsame : ∀ k, k ≠ key → t'.get k = t.get k) :
    livePart t' = Function.update (livePart t) key (livePart t' key) := by
  funext k
  by_cases hk : k = key
  · subst hk
    rw [Function.update_self]
  · rw [Function.update_of_ne hk, livePart, livePart, hsame k hk]

lemma active_maybeGenerateKey (uuid : String) (d : Doc) :
    Active (maybeGenerateKey uuid d) ↔ Active d := by
  rw [Active, maybeGenerateKey_get _ _ (by decide), Active]

lemma active_merge {d : Doc} (hd : d.get "status" = none) (old : Doc) :
    Active (old.merge d) ↔ Active old := by
  rw [Active, Doc.get_merge_none hd, Active]

lemma respond_unacknowledged {a : Act} (h : (respond dash s (a.entry res)).1.status ≠ some 200) :
    (respond dash s (a.entry res)).2 = s := by
  by_cases ha : Accepted dash res a.op s
  · rw [respond, Act.entry, run_accepted ha] at h ⊢
    exact Store.setTable_eq_iff.mpr (ending_failed h)
  · exact respond_refused ha

lemma updated_replaced {r : WriteResult} (h : (Resource.company.updated r).status = 200) :
    0 < r.replaced := by
  by_contra hr
  rw [Resource.updated, if_neg hr] at h
  cases h

lemma acknowledged_apply {ids : ℕ → String} {id : String} {d old : Doc}
    (h : (respond dash s (Act.entry res ⟨ids, .put id (.object d)⟩)).1.status = some 200)
    (hkept : Kept res (s.table res.table) ⟨ids, .put id (.object d)⟩)
    (hold : (s.table res.table).get (.str id) = some old) : old.apply d = old.merge d := by
  have hid : d.plain = true ∧ (d.get "id" = none ∨ d.get "id" = some (.str id)) := by
    cases res with
    | employee => exact hkept rfl
    | company =>
      have ha : Accepted dash .company (.put id (.object d)) s := accepted_of_status h
      rw [respond, Act.entry, run_accepted ha, WriteOp.mutation,
        onTable_update (Table.get_usable hold)] at h
      exact (Table.update_replaced (updated_replaced (Option.some.inj h))).2
  exact (Doc.apply_eq_merge_iff (Table.get_plain hold) (Table.get_id hold)).mpr hid

lemma post_live {ids : ℕ → String} {d : Doc} (ha : Accepted dash res (.post (.object d)) s)
    (hkept : Insertable ids (s.table res.table) d) :
    livePart ((respond dash s (Act.entry res ⟨ids, .post (.object d)⟩)).2.table res.table) =
      plainStep (livePart (s.table res.table)) ⟨ids, .post (.object d)⟩ := by
  rw [livePart_update fun k hk => respond_get_ne rfl hk, livePart, respond_get_target ha rfl]
  simp only [WriteOp.outcome, hkept.2, hkept.1, if_true, Option.none_or, plainStep,
    Option.filter_some, decide_eq_true_eq, active_maybeGenerateKey]
  split_ifs with hactive
  · rfl
  · rw [Function.update_eq_self_iff, livePart, hkept.2]
    rfl

lemma put_live {ids : ℕ → String} {id : String} {d : Doc}
    (ha : Accepted dash res (.put id (.object d)) s) (hstatus : d.get "status" = none)
    (hmerge : ∀ old, (s.table res.table).get (.str id) = some old → old.apply d = old.merge d) :
    livePart ((respond dash s (Act.entry res ⟨ids, .put id (.object d)⟩)).2.table res.table) =
      plainStep (livePart (s.table res.table)) ⟨ids, .put id (.object d)⟩ := by
  rw [livePart_update fun k hk => respond_get_ne rfl hk, livePart, respond_get_target ha rfl]
  simp only [plainStep, WriteOp.outcome]
  congr 1
  rw [livePart]
  cases hold : (s.table res.table).get (.str id) with
  | none => rfl
  | some old =>
    rw [Option.map_some, hmerge old hold]
    by_cases hactive : Active old
    · simp [Option.filter, hactive, active_merge hstatus]
    · simp [Option.filter, hactive, active_merge hstatus]

lemma delete_live {ids : ℕ → String} {id : String} (ha : Accepted dash res (.delete id) s) :
    livePart ((respond dash s (Act.entry res ⟨ids, .delete id⟩)).2.table res.table) =
      plainStep (livePart (s.table res.table)) ⟨ids, .delete id⟩ := by
  rw [livePart_update fun k hk => respond_get_ne rfl hk, livePart, respond_get_target ha rfl]
  simp only [plainStep, WriteOp.outcome]
  congr 1
  cases (s.table res.table).get (.str id) with
  | none => rfl
  | some old => simp [Option.filter, not_active_apply_inactive]

/-- Through its Active part, the table moves as the plain store does on the
requests that are answered 200. -/
theorem live_respond {a : Act}
    (hstatus : ∀ id body, a.op = .put id body → body.field "status" = none)
    (hkept : (respond dash s (a.entry res)).1.status = some 200 → Kept res (s.table res.table) a) :
    livePart ((respond dash s (a.entry res)).2.table res.table) =
      if (respond dash s (a.entry res)).1.status = some 200
      then plainStep (livePart (s.table res.table)) a else livePart (s.table res.table) := by
  split_ifs with h
  · have ha : Accepted dash res a.op s := accepted_of_status h
    match a with
    | ⟨ids, .post (.object d)⟩ => exact post_live ha (hkept h)
    | ⟨ids, .put id (.object d)⟩ =>
      exact put_live ha (hstatus id _ rfl) fun old hold => acknowledged_apply h (hkept h) hold
    | ⟨ids, .delete id⟩ => exact delete_live ha
    | ⟨ids, .post (.array items)⟩ => exact absurd ha.1.1 (by simp [Body.readable, Body.field])
    | ⟨ids, .put id (.array items)⟩ => exact absurd ha.2.1.1 (by simp [Body.readable, Body.field])
  · rw [respond_unacknowledged h]

/-! ### Histories -/

lemma live_empty : livePart .empty = fun _ => none := by
  funext k
  rw [livePart, Table.get_empty]
  rfl

theorem live_since (hs : s.table res.table = .empty) {acts : List Act}
    (hstatus : ∀ a ∈ acts, ∀ id body, a.op = .put id body → body.field "status" = none)
    (hkept : ∀ pre a post, acts = pre ++ a :: post → (reply dash res s pre a).status = some 200 →
      Kept res ((since dash res s pre).table res.table) a) :
    livePart ((since dash res s acts).table res.table) =
      plainAfter (acknowledged dash res s acts) := by
  induction acts using List.reverseRecOn with
  | nil => exact (congrArg livePart hs).trans live_empty
  | append_singleton acts a ih =>
    have hprev := ih (fun b hb => hstatus b (by simp [hb])) fun pre b post he =>
      hkept pre b (post ++ [a]) (by simp [he])
    rw [since_concat, live_respond (hstatus a (by simp)) (hkept acts a [] rfl), acknowledged_concat,
      plainAfter, List.foldl_append, hprev]
    change (if (reply dash res s acts a).status = some 200 then _ else _) = _
    split_ifs <;> rfl

lemma livePart_eq_some {t : Table} {k : Json} {d : Doc} :
    livePart t k = some d ↔ t.get k = some d ∧ Active d := by
  rw [livePart, Option.filter_eq_some_iff, decide_eq_true_eq]

lemma run_list (uuid : ℕ → String) (s : Store) (res : Resource) :
    (process dash (listRequest res)).run (serve uuid) s =
      (answered ⟨200, .rows ((activeList res.table).answer s)⟩, s) := by
  cases res with
  | company =>
    rw [listRequest, process_getCompanies]
    rfl
  | employee =>
    rw [listRequest, process_getEmployees]
    rfl

lemma activeList_ids_nodup (s : Store) (table : TableName) :
    (((activeList table).answer s).map fun d => d.get "id").Nodup := by
  refine Multiset.Nodup.map_on ?_ (Table.select_nodup _ _)
  intro d hd d' hd' hid
  obtain ⟨⟨k, hk⟩, -⟩ := mem_activeList.mp hd
  obtain ⟨⟨k', hk'⟩, -⟩ := mem_activeList.mp hd'
  rw [Table.get_id hk, Table.get_id hk', Option.some.injEq] at hid
  rw [← hid, hk] at hk'
  exact Option.some.inj hk'

/-- Two companies are opened, one is renamed and the other one closed. -/
def renamed : List Act :=
  [⟨fun _ => "a", .post (.object (Doc.strings [("company_name", "Acme"), ("status", "Active")]))⟩,
    ⟨fun _ => "b", .post (.object (Doc.strings [("company_name", "Zeta"), ("status", "Active")]))⟩,
    ⟨fun _ => "", .put "a" (.object (Doc.strings [("company_name", "Apex")]))⟩,
    ⟨fun _ => "", .delete "b"⟩]

def statusless : Act := ⟨fun _ => "a", .post (.object (Doc.strings [("company_name", "Acme")]))⟩

end PersonnelBackend.SoftDeletion
