import PersonnelBackend.GuardedWrites

/-! A guarded request run alone. It is refused, with the tables untouched, or it
is accepted and performs its one write. -/
namespace PersonnelBackend.Guarded
open Document Database Express Resumption Router

def WriteOp.rivals (res : Resource) (op : WriteOp) (s : Store) : Multiset Doc :=
  match op.field res.nameField with
  | none => 0
  | some n => (Query.filter res.table (activePattern res.nameField n)).answer s

/-- Asked at `s`, the conflict query of the request reports no conflict. -/
def WriteOp.clear (res : Resource) (op : WriteOp) (s : Store) : Bool :=
  !op.conflict res (op.rivals res s)

/-- The conflict query of the body can be built and evaluated. -/
def Asked (dash : Driver) (res : Resource) (body : Body) : Prop :=
  dash.queryable body res.nameField = true ∧ body.readable res.nameField = true

/-- The body has a name that can be asked for, and its term can be built. -/
def Sendable (dash : Driver) (res : Resource) (body : Body) : Prop :=
  body.readable res.nameField = true ∧ dash.builds body.json = true

/-- The request gets as far as its write. -/
def Accepted (dash : Driver) (res : Resource) (op : WriteOp) (s : Store) : Prop :=
  match op with
  | .post body => Sendable dash res body ∧ op.clear res s = true
  | .put id body => id ≠ "" ∧ Sendable dash res body ∧ op.clear res s = true
  | .delete id => res = .company → id ≠ ""

instance (dash : Driver) (res : Resource) (op : WriteOp) (s : Store) :
    Decidable (Accepted dash res op s) :=
  match op with
  | .post _ => inferInstanceAs (Decidable ((_ ∧ _) ∧ _))
  | .put _ _ => inferInstanceAs (Decidable (_ ∧ (_ ∧ _) ∧ _))
  | .delete _ => inferInstanceAs (Decidable (_ → _))

def Refusal (res : Resource) (outcome : Outcome) : Prop :=
  (∃ e, outcome = rejected e) ∨ outcome = answered idMissing ∨ outcome = answered res.conflictAnswer

def decision (dash : Driver) (res : Resource) (op : WriteOp) (s : Store) : Outcome ⊕ Write :=
  (plan dash res op).decide s

variable {dash : Driver} {res : Resource}

lemma run_decision (dash : Driver) (res : Resource) (op : WriteOp) (uuid : ℕ → String) (s : Store) :
    (process dash (res.request op)).run (serve uuid) s =
      (settle (decision dash res op s)).run (serve uuid) s := by
  rw [process_eq_plan, decision]
  cases plan dash res op with
  | ended outcome => rfl
  | write w => rfl
  | check table predicate verdict => rfl

lemma Refusal.status {outcome : Outcome} (h : Refusal res outcome) : outcome.status ≠ some 200 := by
  rcases h with ⟨e, rfl⟩ | rfl | rfl
  · simp
  · simp [idMissing]
  · cases res <;> simp [Resource.conflictAnswer]

theorem clear_eq_false {op : WriteOp} {s : Store} {n k : Json} {d : Doc}
    (hname : op.field res.nameField = some n)
    (hscalar : ∀ f ∈ res.keyFields, ∀ v, op.field f = some v → v.isScalar = true)
    (hk : (s.table res.table).get k = some d) (hactive : Active d)
    (hsame : ∀ f ∈ res.keyFields, d.get f = op.field f) : op.clear res s = false := by
  have hmem : res.nameField ∈ res.keyFields := List.mem_cons_self
  have hrow : d ∈ op.rivals res s := by
    rw [WriteOp.rivals, hname]
    exact (mem_active_rows (hscalar _ hmem n hname)).mpr
      ⟨⟨k, hk⟩, (hsame _ hmem).trans hname, hactive⟩
  have hconflict : op.conflict res (op.rivals res s) = true := by
    rw [conflict_iff hname]
    intro f hf
    have hf' : f ∈ res.keyFields := List.mem_cons_of_mem _ hf
    exact ⟨hscalar f hf', d, hrow, hsame f hf'⟩
  rw [WriteOp.clear, hconflict]
  rfl

/-! ### The decision -/

lemma asked_of_sendable {body : Body} (h : Sendable dash res body) : Asked dash res body := by
  obtain ⟨n, hn, -⟩ := Body.readable_iff.mp h.1
  refine ⟨?_, h.1⟩
  rw [Driver.queryable, hn]
  match body with
  | .object d => exact Driver.within_of_builds h.2 hn

lemma sendBody_cases (dash : Driver) (body : Body) (w : Write) :
    (dash.builds body.json = true ∧ sendBody dash body w = .inr w) ∨
      (dash.builds body.json ≠ true ∧ sendBody dash body w = .inl (rejected .unencodable)) := by
  unfold sendBody
  split_ifs with hb
  · exact Or.inl ⟨hb, rfl⟩
  · exact Or.inr ⟨hb, rfl⟩

lemma activePattern_plain (res : Resource) {n : Json} :
    (activePattern res.nameField n).plain = true ↔ n.plain = true := by
  have hname : res.nameField ≠ reqlType := by cases res <;> decide
  have hrest : (Fields.cons "status" (.str "Active") .nil).plain = true := rfl
  rw [activePattern, Fields.plain_cons]
  exact ⟨fun h => h.2.1, fun h => ⟨hname, h, hrest⟩⟩

lemma guarded_cases (dash : Driver) (res : Resource) (body : Body)
    (verdict : Multiset Doc → Outcome ⊕ Write) (s : Store) :
    (¬ Asked dash res body ∧
      ∃ e, (guarded dash res body verdict).decide s = .inl (rejected e)) ∨
    (Asked dash res body ∧ ∃ n, body.field res.nameField = some n ∧
      (guarded dash res body verdict).decide s =
        verdict ((Query.filter res.table (activePattern res.nameField n)).answer s)) := by
  unfold guarded Asked Driver.queryable Body.readable
  cases body.field res.nameField with
  | none => exact Or.inl ⟨fun h => Bool.false_ne_true h.1, _, rfl⟩
  | some n =>
    simp only [Option.any_some]
    by_cases hw : within n (dash.nestingLevel - 1) = true
    · rw [if_pos hw, Plan.decide]
      by_cases hn : n.plain = true
      · rw [Query.reply_filter ((activePattern_plain res).mpr hn)]
        exact Or.inr ⟨⟨hw, hn⟩, n, rfl, rfl⟩
      · rw [Query.reply_filter_refused fun h => hn ((activePattern_plain res).mp h)]
        exact Or.inl ⟨fun h => hn h.2, _, rfl⟩
    · rw [if_neg hw]
      exact Or.inl ⟨fun h => hw h.1, _, rfl⟩

inductive Ruling (dash : Driver) (res : Resource) (op : WriteOp) (body : Body) (s : Store) :
    Outcome ⊕ Write → Prop
  | unasked (e : JsError) (hq : ¬ Asked dash res body) :
    Ruling dash res op body s (.inl (rejected e))
  | conflict (hq : Asked dash res body) (hc : op.clear res s = false) :
    Ruling dash res op body s (.inl (answered res.conflictAnswer))
  | unsent (hq : Asked dash res body) (hc : op.clear res s = true)
    (hb : dash.builds body.json ≠ true) : Ruling dash res op body s (.inl (rejected .unencodable))
  | sent (hq : Asked dash res body) (hc : op.clear res s = true)
    (hb : dash.builds body.json = true) : Ruling dash res op body s (.inr (op.write res))

lemma guarded_ruling (op : WriteOp) {body : Body} (s : Store)
    (hfield : op.field res.nameField = body.field res.nameField)
    (hconflict : ∀ rows, op.conflict res rows = res.conflict body rows)
    (hplan : plan dash res op = guarded dash res body fun rows =>
      if res.conflict body rows then .inl (answered res.conflictAnswer)
      else sendBody dash body (op.write res)) :
    Ruling dash res op body s (decision dash res op s) := by
  rw [decision, hplan]
  rcases guarded_cases dash res body (fun rows =>
      if res.conflict body rows then .inl (answered res.conflictAnswer)
      else sendBody dash body (op.write res)) s with ⟨hq, e, hg⟩ | ⟨hq, n, hn, hg⟩
  · rw [hg]
    exact .unasked e hq
  · have hclear : op.clear res s = !res.conflict body
        ((Query.filter res.table (activePattern res.nameField n)).answer s) := by
      rw [WriteOp.clear, hconflict, WriteOp.rivals, hfield, hn]
    rw [hg]
    split_ifs with hc
    · rw [hc] at hclear
      exact .conflict hq hclear
    · rw [Bool.eq_false_iff.mpr hc] at hclear
      rcases sendBody_cases dash body (op.write res) with ⟨hb, hs⟩ | ⟨hb, hs⟩
      · rw [hs]
        exact .sent hq hclear hb
      · rw [hs]
        exact .unsent hq hclear hb

theorem post_ruling (dash : Driver) (res : Resource) (body : Body) (s : Store) :
    Ruling dash res (.post body) body s (decision dash res (.post body) s) :=
  guarded_ruling (.post body) s rfl (fun _ => rfl) (by rw [plan]; rfl)

lemma plan_put (id : String) (body : Body) (h : ¬ (res = .employee ∧ id = "")) :
    plan dash res (.put id body) = guarded dash res body (putVerdict dash res id body) := by
  cases res with
  | company => rfl
  | employee => exact if_neg fun hid => h ⟨rfl, hid⟩

theorem put_ruling (dash : Driver) (res : Resource) {id : String} (hid : id ≠ "") (body : Body)
    (s : Store) : Ruling dash res (.put id body) body s (decision dash res (.put id body) s) := by
  refine guarded_ruling (.put id body) s rfl (fun _ => rfl) ?_
  rw [plan_put id body fun h => hid h.2]
  exact congrArg (guarded dash res body) (funext fun rows => if_neg hid)

lemma put_missing_cases (dash : Driver) (res : Resource) (body : Body) (s : Store) :
    ((res = .employee ∨ Asked dash res body) ∧
      decision dash res (.put "" body) s = .inl (answered idMissing)) ∨
    (¬ (res = .employee ∨ Asked dash res body) ∧
      ∃ e, decision dash res (.put "" body) s = .inl (rejected e)) := by
  rw [decision]
  cases res with
  | employee => exact Or.inl ⟨Or.inl rfl, rfl⟩
  | company =>
    rw [plan]
    rcases guarded_cases dash .company body (putVerdict dash .company "" body) s with
      ⟨hq, e, hg⟩ | ⟨hq, n, hn, hg⟩
    · rw [hg]
      exact Or.inr ⟨by simp [hq], e, rfl⟩
    · rw [hg]
      exact Or.inl ⟨Or.inr hq, rfl⟩

/-- A request that writes at `s` is accepted there, and one that ends is refused. -/
def Decided (dash : Driver) (res : Resource) (op : WriteOp) (s : Store) : Prop :=
  Accepted dash res op s ∧ decision dash res op s = .inr (op.write res) ∨
    ¬ Accepted dash res op s ∧ ∃ outcome, Refusal res outcome ∧
      decision dash res op s = .inl outcome

lemma Ruling.decided {op : WriteOp} {body : Body} {s : Store}
    (hop : Accepted dash res op s ↔ Sendable dash res body ∧ op.clear res s = true)
    (h : Ruling dash res op body s (decision dash res op s)) : Decided dash res op s := by
  rw [Decided, hop]
  generalize decision dash res op s = x at h
  cases h with
  | unasked e hq => exact Or.inr ⟨fun ha => hq (asked_of_sendable ha.1), _, Or.inl ⟨e, rfl⟩, rfl⟩
  | conflict hq hc =>
    refine Or.inr ⟨fun ha => ?_, _, Or.inr (Or.inr rfl), rfl⟩
    rw [hc] at ha
    cases ha.2
  | unsent hq hc hb => exact Or.inr ⟨fun ha => hb ha.1.2, _, Or.inl ⟨_, rfl⟩, rfl⟩
  | sent hq hc hb => exact Or.inl ⟨⟨⟨hq.2, hb⟩, hc⟩, rfl⟩

lemma put_missing_decided (dash : Driver) (res : Resource) (body : Body) (s : Store) :
    Decided dash res (.put "" body) s := by
  refine Or.inr ⟨fun h => h.1 rfl, ?_⟩
  rcases put_missing_cases dash res body s with ⟨-, hd⟩ | ⟨-, e, hd⟩
  · exact ⟨_, Or.inr (Or.inl rfl), hd⟩
  · exact ⟨_, Or.inl ⟨e, rfl⟩, hd⟩

lemma delete_decided (dash : Driver) (res : Resource) (id : String) (s : Store) :
    Decided dash res (.delete id) s := by
  rw [Decided, decision]
  cases res with
  | company =>
    rw [plan]
    by_cases hid : id = ""
    · rw [if_pos hid]
      exact Or.inr ⟨fun h => h rfl hid, _, Or.inr (Or.inl rfl), rfl⟩
    · rw [if_neg hid]
      exact Or.inl ⟨fun _ => hid, rfl⟩
  | employee => exact Or.inl ⟨fun h => absurd h (by decide), rfl⟩

theorem decision_cases (dash : Driver) (res : Resource) (op : WriteOp) (s : Store) :
    Decided dash res op s := by
  cases op with
  | post body => exact (post_ruling dash res body s).decided Iff.rfl
  | put id body =>
    by_cases hid : id = ""
    · subst hid
      exact put_missing_decided dash res body s
    · exact (put_ruling dash res hid body s).decided (and_iff_right hid)
  | delete id => exact delete_decided dash res id s

/-! ### The run -/

theorem run_accepted {op : WriteOp} {s : Store} (h : Accepted dash res op s) (uuid : ℕ → String) :
    (process dash (res.request op)).run (serve uuid) s =
      (op.ending res ((op.mutation res).onTable uuid (s.table res.table)).2,
        s.setTable res.table ((op.mutation res).onTable uuid (s.table res.table)).1) := by
  rcases decision_cases dash res op s with ⟨-, hd⟩ | ⟨hn, -⟩
  · rw [run_decision, hd, ← mutation_table res op]
    rfl
  · exact absurd h hn

theorem run_refused {op : WriteOp} {s : Store} (h : ¬ Accepted dash res op s) (uuid : ℕ → String) :
    ∃ outcome, Refusal res outcome ∧
      (process dash (res.request op)).run (serve uuid) s = (outcome, s) := by
  rcases decision_cases dash res op s with ⟨ha, -⟩ | ⟨-, outcome, hr, hd⟩
  · exact absurd ha h
  · exact ⟨outcome, hr, by rw [run_decision, hd]; rfl⟩

lemma accepted_of_status {op : WriteOp} {uuid : ℕ → String} {s : Store}
    (h : ((process dash (res.request op)).run (serve uuid) s).1.status = some 200) :
    Accepted dash res op s := by
  by_contra ha
  obtain ⟨outcome, hr, hrun⟩ := run_refused ha uuid
  rw [hrun] at h
  exact hr.status h

/-! ### The reply to the write -/

lemma ending_ok (op : WriteOp) (r : WriteResult) :
    op.ending res (.ok r) = answered (op.answer res r) := rfl

lemma mutation_failed {op : WriteOp} {uuid : ℕ → String} {t : Table} {e : WriteError}
    (h : ((op.mutation res).onTable uuid t).2 = .error e) :
    ((op.mutation res).onTable uuid t).1 = t := by
  have hupdate : ∀ id body, ((Mutation.update res.table id body).onTable uuid t).2 = .error e →
      ((Mutation.update res.table id body).onTable uuid t).1 = t := by
    intro id body hu
    by_cases hid : isPrimary (.str id) = true
    · rw [onTable_update hid] at hu
      cases hu
    · obtain ⟨e', he⟩ := onTable_update_refused hid uuid t res.table body
      rw [he]
  match op with
  | .post body =>
    rw [WriteOp.mutation] at h ⊢
    by_cases hp : body.plain = true
    · rw [onTable_insert body hp] at h
      cases h
    · rw [onTable_insert_refused body hp]
  | .put id body => exact hupdate id body h
  | .delete id => exact hupdate id _ h

lemma answer_failed {res : Resource} {op : WriteOp} {uuid : ℕ → String} {t : Table}
    {r : WriteResult} (hr : ((op.mutation res).onTable uuid t).2 = .ok r)
    (h : (op.answer res r).status ≠ 200) :
    ((op.mutation res).onTable uuid t).1 = t := by
  match res, op with
  | .company, .put id body =>
    rw [WriteOp.mutation] at hr ⊢
    by_cases hid : isPrimary (.str id) = true
    · rw [onTable_update hid] at hr ⊢
      refine Table.update_replaced_zero ?_
      by_contra hzero
      have hpos : r.replaced > 0 := by
        rw [← Except.ok.inj hr]
        exact Nat.pos_of_ne_zero hzero
      simp [WriteOp.answer, Resource.updated, hpos] at h
    · obtain ⟨e, he⟩ := onTable_update_refused hid uuid t Resource.company.table body
      rw [he]
  | .employee, .put id body => simp [WriteOp.answer, Resource.updated] at h
  | .company, .post body => simp [WriteOp.answer, Resource.created] at h
  | .employee, .post body => simp [WriteOp.answer, Resource.created] at h
  | .company, .delete id => simp [WriteOp.answer, Resource.deleted] at h
  | .employee, .delete id => simp [WriteOp.answer, Resource.deleted] at h

lemma ending_failed {res : Resource} {op : WriteOp} {uuid : ℕ → String} {t : Table}
    (h : (op.ending res ((op.mutation res).onTable uuid t).2).status ≠ some 200) :
    ((op.mutation res).onTable uuid t).1 = t := by
  cases hr : ((op.mutation res).onTable uuid t).2 with
  | ok r =>
    refine answer_failed hr fun hanswer => h ?_
    rw [hr, ending_ok, status_answered, hanswer]
  | error e => exact mutation_failed hr

end PersonnelBackend.Guarded
