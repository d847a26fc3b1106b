import PersonnelBackend.GuardedRuns

/-! How two Active companies can come to carry one name. The name check and the
write of a request are separate steps; a name is doubled only by two requests
that each asked the conflict query before the other one wrote. -/
namespace PersonnelBackend.CompanyNameRace
open Document Database Express Resumption Guarded

variable {ι : Type}

lemma take_concat {schedule : List ι} {p : ℕ} (i : ι) (hp : p ≤ schedule.length) :
    (schedule ++ [i]).take p = schedule.take p := List.take_append_of_le_length hp

variable [DecidableEq ι]

def after (dash : Driver) (uuid : ι → ℕ → String) (ops : ι → WriteOp) (s : Store)
    (schedule : List ι) : RequestPool ι :=
  (launch dash s fun i => Resource.company.request (ops i)).exec (servers uuid) schedule

def Named (s : Store) (k n : Json) : Prop := ActiveNamed s.company "company_name" k n

section
variable (dash : Driver) (uuid : ι → ℕ → String) (ops : ι → WriteOp) (s : Store)

/-- Entry `p` of the schedule lets request `i` ask its conflict query for its own name. -/
def Checks (schedule : List ι) (p : ℕ) (i : ι) : Prop :=
  schedule[p]? = some i ∧ ∃ n next, (ops i).field "company_name" = some n ∧
    (after dash uuid ops s (schedule.take p)).progs i =
      .call (.read (.filter .company (activePattern "company_name" n))) next

/-- Entry `p` of the schedule lets request `i` perform its write. -/
def Writes (schedule : List ι) (p : ℕ) (i : ι) : Prop :=
  schedule[p]? = some i ∧ ∃ next, (after dash uuid ops s (schedule.take p)).progs i =
    .call (.write ((ops i).mutation .company)) next

/-- Company `k` got the name `n` by the write at entry `p`, made by request `i`:
it was not Active under that name before and has been ever since. -/
structure Got (schedule : List ι) (k n : Json) (p : ℕ) (i : ι) : Prop where
  writes : Writes dash uuid ops s schedule p i
  before : ¬ Named (after dash uuid ops s (schedule.take p)).store k n
  since : ∀ q, p < q → q ≤ schedule.length →
    Named (after dash uuid ops s (schedule.take q)).store k n

end

variable {dash : Driver} {uuid : ι → ℕ → String} {ops : ι → WriteOp} {s : Store}

lemma after_concat (schedule : List ι) (i : ι) :
    after dash uuid ops s (schedule ++ [i]) =
      (after dash uuid ops s schedule).step (servers uuid) i := Pool.exec_concat _ _ _

lemma after_stage (dash : Driver) (uuid : ι → ℕ → String) (ops : ι → WriteOp) (s : Store)
    (schedule : List ι) (i : ι) :
    Stage dash ⟨.company, ops i⟩ ((after dash uuid ops s schedule).progs i) :=
  exec_stage s (fun j => ⟨.company, ops j⟩) schedule i

lemma Checks.concat {schedule : List ι} {p : ℕ} {i : ι} (h : Checks dash uuid ops s schedule p i)
    (hp : p < schedule.length) (j : ι) : Checks dash uuid ops s (schedule ++ [j]) p i := by
  refine ⟨?_, ?_⟩
  · rw [List.getElem?_append_left hp]
    exact h.1
  · rw [take_concat j hp.le]
    exact h.2

lemma Checks.of_take {schedule : List ι} {p q : ℕ} {i : ι}
    (h : Checks dash uuid ops s (schedule.take q) p i) (hp : p < q) :
    Checks dash uuid ops s schedule p i := by
  refine ⟨?_, ?_⟩
  · rw [← List.getElem?_take_of_lt hp]
    exact h.1
  · have ht := h.2
    rwa [List.take_take, min_eq_left hp.le] at ht

/-! ### A pending write has a query behind it -/

lemma check_step_write (hscalar : ∀ i n, (ops i).field "company_name" = some n → n.isScalar = true)
    {i : ι} {c : RequestPool ι} {table : TableName} {predicate : Fields}
    {verdict : Multiset Doc → Outcome ⊕ Write}
    (hplan : plan dash .company (ops i) = .check table predicate verdict)
    (hc : c.progs i = (Plan.check table predicate verdict).process)
    {m : Mutation} {next : Reply (.write m) → Process}
    (hp : (c.step (servers uuid) i).progs i = .call (.write m) next) :
    ∃ n, (ops i).field "company_name" = some n ∧
      c.progs i = .call (.read (.filter .company (activePattern "company_name" n)))
        (fun reply => settle (judge verdict reply)) ∧
      ∀ k, ¬ Named c.store k n := by
  obtain ⟨n, hname, rfl, rfl, hverdict, -⟩ := plan_check hplan
  refine ⟨n, hname, hc, fun k hk => ?_⟩
  rw [step_check hc] at hp
  simp only [Function.update_self] at hp
  cases hv : judge verdict ((Query.filter Resource.company.table
      (activePattern Resource.company.nameField n)).reply c.store) with
  | inl outcome =>
    rw [hv] at hp
    cases hp
  | inr w =>
    have hyes := (company_conflict_iff hname).mpr ⟨hscalar i n hname, k, hk⟩
    have hno := (hverdict _ _ (judge_filter_eq_inr hv)).2
    exact Bool.false_ne_true (hno.symm.trans hyes)

/-- A request about to write after a check asked its query at some earlier
entry, and no Active company had the name then. -/
theorem pending_write_checked
    (hscalar : ∀ i n, (ops i).field "company_name" = some n → n.isScalar = true) {i : ι}
    {table : TableName} {predicate : Fields} {verdict : Multiset Doc → Outcome ⊕ Write}
    (hplan : plan dash .company (ops i) = .check table predicate verdict) (schedule : List ι)
    {m : Mutation} {next : Reply (.write m) → Process}
    (hp : (after dash uuid ops s schedule).progs i = .call (.write m) next) :
    ∃ a n, a < schedule.length ∧ (ops i).field "company_name" = some n ∧
      Checks dash uuid ops s schedule a i ∧
      ∀ k, ¬ Named (after dash uuid ops s (schedule.take a)).store k n := by
  have hstart : (after dash uuid ops s []).progs i =
      (Plan.check table predicate verdict).process := by
    rw [← hplan]
    exact process_eq_plan dash .company (ops i)
  induction schedule using List.reverseRecOn with
  | nil =>
    rw [hstart] at hp
    cases hp
  | append_singleton schedule j ih =>
    rw [after_concat] at hp
    by_cases hji : i = j
    · subst j
      rcases (after_stage dash uuid ops s schedule i).cases with
        ⟨outcome, hc⟩ | ⟨table', predicate', verdict', hplan', hc⟩ | ⟨hc, -⟩
      · rw [Pool.step_pure hc, hc] at hp
        cases hp
      · obtain ⟨n, hname, hcall, hnone⟩ := check_step_write hscalar hplan' hc hp
        refine ⟨schedule.length, n, by simp, hname,
          ⟨by simp, n, fun reply => settle (judge verdict' reply), hname, ?_⟩, ?_⟩
        · rw [take_concat i le_rfl, List.take_length]
          exact hcall
        · rw [take_concat i le_rfl, List.take_length]
          exact hnone
      · rw [step_write hc] at hp
        simp only [Function.update_self] at hp
        cases hp
    · rw [Pool.step_progs_ne hji] at hp
      obtain ⟨a, n, ha, hname, hchecks, hnone⟩ := ih hp
      refine ⟨a, n, by simp; omega, hname, hchecks.concat ha j, ?_⟩
      rw [take_concat j ha.le]
      exact hnone

/-! ### What makes a company Active under a name -/

theorem named_by_step (hscalar : ∀ i n, (ops i).field "company_name" = some n → n.isScalar = true)
    {schedule : List ι} {j : ι} {k n : Json}
    (hbefore : ¬ Named (after dash uuid ops s schedule).store k n)
    (hafter : Named (after dash uuid ops s (schedule ++ [j])).store k n) :
    (∃ next, (after dash uuid ops s schedule).progs j =
      .call (.write ((ops j).mutation .company)) next) ∧
    (∃ table predicate verdict, plan dash .company (ops j) = .check table predicate verdict) ∧
    (ops j).field "company_name" = some n ∧ (ops j).target (uuid j) = some k := by
  rw [after_concat] at hafter
  rcases (after_stage dash uuid ops s schedule j).cases with
    ⟨outcome, hc⟩ | ⟨table, predicate, verdict, -, hc⟩ | ⟨hc, hkind⟩
  · rw [Pool.step_pure hc] at hafter
    exact absurd hafter hbefore
  · rw [step_check hc] at hafter
    exact absurd hafter hbefore
  · rw [step_write hc] at hafter
    obtain ⟨d, hd, hactive, hname⟩ := hafter
    change ((Mutation.onTable (uuid j) _ ((ops j).mutation .company)).1).get k = some d at hd
    rcases hkind with hplan | ⟨table, predicate, verdict, rows, hplan, -⟩
    · obtain ⟨⟨id, hid⟩, -⟩ := plan_write hplan
      simp only at hid
      rw [hid, mutation_get (uuid j) .company rfl] at hd
      split_ifs at hd with ht
      · simp only [WriteOp.outcome, Option.map_eq_some_iff] at hd
        obtain ⟨old, -, rfl⟩ := hd
        exact absurd hactive (not_active_apply_inactive old)
      · exact absurd ⟨d, hd, hactive, hname⟩ hbefore
    · obtain ⟨n', hfield, -⟩ := plan_check hplan
      obtain ⟨e, hdoc, -⟩ := doc?_of_field hfield
      rw [mutation_get (uuid j) .company hdoc] at hd
      split_ifs at hd with ht
      · rcases outcome_field (k := "company_name") (by decide) hfield hd with hold | ⟨prior, hnew⟩
        · exact absurd ⟨d, hold, hactive, hname⟩ hbefore
        · rw [mergeField_of_isScalar prior (hscalar j n' hfield)] at hnew
          obtain rfl : n' = n := Option.some.inj (hnew.symm.trans hname)
          exact ⟨⟨_, hc⟩, ⟨_, _, _, hplan⟩, hfield, ht⟩
      · exact absurd ⟨d, hd, hactive, hname⟩ hbefore

lemma Got.concat {schedule : List ι} {k n : Json} {p : ℕ} {i j : ι}
    (h : Got dash uuid ops s schedule k n p i) (hp : p < schedule.length)
    (hlast : Named (after dash uuid ops s (schedule ++ [j])).store k n) :
    Got dash uuid ops s (schedule ++ [j]) k n p i := by
  refine ⟨⟨?_, ?_⟩, ?_, ?_⟩
  · rw [List.getElem?_append_left hp]
    exact h.writes.1
  · rw [take_concat j hp.le]
    exact h.writes.2
  · rw [take_concat j hp.le]
    exact h.before
  · intro q hlt hle
    rcases Nat.lt_or_ge schedule.length q with hq | hq
    · rwa [List.take_of_length_le (by simp; omega)]
    · rw [take_concat j hq]
      exact h.since q hlt hq

theorem named_since (hscalar : ∀ i n, (ops i).field "company_name" = some n → n.isScalar = true)
    (schedule : List ι) {k n : Json} (h : Named (after dash uuid ops s schedule).store k n) :
    (∀ q, q ≤ schedule.length → Named (after dash uuid ops s (schedule.take q)).store k n) ∨
    ∃ p i, p < schedule.length ∧ Got dash uuid ops s schedule k n p i := by
  induction schedule using List.reverseRecOn with
  | nil =>
    left
    intro q hq
    obtain rfl : q = 0 := by simpa using hq
    exact h
  | append_singleton schedule j ih =>
    have hlast : ∀ q, schedule.length < q → q ≤ (schedule ++ [j]).length →
        Named (after dash uuid ops s ((schedule ++ [j]).take q)).store k n := by
      intro q hlt hle
      rwa [List.take_of_length_le (by simp; omega)]
    by_cases hb : Named (after dash uuid ops s schedule).store k n
    · rcases ih hb with hall | ⟨p, i, hp, hgot⟩
      · left
        intro q hq
        rcases Nat.lt_or_ge schedule.length q with hq' | hq'
        · exact hlast q hq' hq
        · rw [take_concat j hq']
          exact hall q hq'
      · exact Or.inr ⟨p, i, by simp; omega, hgot.concat hp h⟩
    · right
      refine ⟨schedule.length, j, by simp, ⟨⟨by simp, ?_⟩, ?_, hlast⟩⟩
      · rw [take_concat j le_rfl, List.take_length]
        exact (named_by_step hscalar hb h).1
      · rw [take_concat j le_rfl, List.take_length]
        exact hb

lemma Got.checked (hscalar : ∀ i n, (ops i).field "company_name" = some n → n.isScalar = true)
    {schedule : List ι} {k n : Json} {p : ℕ} {i : ι} (hp : p < schedule.length)
    (h : Got dash uuid ops s schedule k n p i) :
    (ops i).target (uuid i) = some k ∧ ∃ a, a < p ∧ Checks dash uuid ops s schedule a i ∧
      ∀ k', ¬ Named (after dash uuid ops s (schedule.take a)).store k' n := by
  -- the request that gave a company its name is for that name and that company, and asked its
  -- query earlier, when no Active company had the name
  have hnext : schedule.take (p + 1) = schedule.take p ++ [i] := by
    rw [List.take_add_one, h.writes.1]
    rfl
  have hafter := h.since (p + 1) (Nat.lt_succ_self p) hp
  rw [hnext] at hafter
  obtain ⟨⟨next, hpending⟩, ⟨_, _, _, hplan⟩, hfield, htarget⟩ :=
    named_by_step hscalar h.before hafter
  obtain ⟨a, n', ha, hfield', hchecks, hnone⟩ :=
    pending_write_checked hscalar hplan (schedule.take p) hpending
  obtain rfl : n' = n := Option.some.inj (hfield'.symm.trans hfield)
  have hap : a < p := by
    rw [List.length_take] at ha
    omega
  rw [List.take_take, min_eq_left hap.le] at hnone
  exact ⟨htarget, a, hap, hchecks.of_take hap, hnone⟩

lemma Checks.ne_writes {schedule : List ι} {a p : ℕ} {i j : ι}
    (hc : Checks dash uuid ops s schedule a i) (hw : Writes dash uuid ops s schedule p j) :
    a ≠ p := by
  rintro rfl
  obtain rfl : i = j := Option.some.inj (hc.1.symm.trans hw.1)
  obtain ⟨n, next, -, hread⟩ := hc.2
  obtain ⟨next', hwrite⟩ := hw.2
  rw [hread] at hwrite
  cases hwrite

lemma Got.after_clear {schedule : List ι} {k n : Json} {p a : ℕ} {i j : ι}
    (hgot : Got dash uuid ops s schedule k n p i) (hc : Checks dash uuid ops s schedule a j)
    (hnone : ∀ k', ¬ Named (after dash uuid ops s (schedule.take a)).store k' n) : a < p := by
  -- a check that saw no company of the name came before the write that gave it
  have ha : a < schedule.length := (List.getElem?_eq_some_iff.mp hc.1).1
  have hne := hc.ne_writes hgot.writes
  by_contra hle
  exact hnone k (hgot.since a (by omega) ha.le)

/-- If two Active companies carry one scalar name in a reached state, neither
has it from the starting table: two different requests gave it to them, and each
of the two asked its conflict query before either of them wrote. -/
theorem doubled_name_raced (dash : Driver) (uuid : ι → ℕ → String) (ops : ι → WriteOp) (s : Store)
    (hdistinct : ∀ k k' n, Named s k n → Named s k' n → k = k')
    (hscalar : ∀ i n, (ops i).field "company_name" = some n → n.isScalar = true)
    (schedule : List ι) {k k' n : Json} (hne : k ≠ k')
    (h : Named (after dash uuid ops s schedule).store k n)
    (h' : Named (after dash uuid ops s schedule).store k' n) :
    ∃ i j p q a b, i ≠ j ∧ Got dash uuid ops s schedule k n p i ∧
      Got dash uuid ops s schedule k' n q j ∧
      Checks dash uuid ops s schedule a i ∧ Checks dash uuid ops s schedule b j ∧
      a < p ∧ a < q ∧ b < p ∧ b < q := by
  rcases named_since hscalar schedule h with hall | ⟨p, i, hp, hgot⟩ <;>
    rcases named_since hscalar schedule h' with hall' | ⟨q, j, hq, hgot'⟩
  · exact absurd (hdistinct k k' n (hall 0 (Nat.zero_le _)) (hall' 0 (Nat.zero_le _))) hne
  · obtain ⟨-, b, hb, -, hnone⟩ := hgot'.checked hscalar hq
    exact absurd (hall b (by omega)) (hnone k)
  · obtain ⟨-, a, ha, -, hnone⟩ := hgot.checked hscalar hp
    exact absurd (hall' a (by omega)) (hnone k')
  · obtain ⟨htarget, a, ha, hca, hnone⟩ := hgot.checked hscalar hp
    obtain ⟨htarget', b, hb, hcb, hnone'⟩ := hgot'.checked hscalar hq
    have hij : i ≠ j := by
      rintro rfl
      exact hne (Option.some.inj (htarget.symm.trans htarget'))
    exact ⟨i, j, p, q, a, b, hij, hgot, hgot', hca, hcb, ha, hgot'.after_clear hca hnone,
      hgot.after_clear hcb hnone', hb⟩

theorem doubled_name_raced_posts :
    ∃ i j p q a b, i ≠ j ∧
      Got official postIds (posts "Acme" "Acme") .empty [0, 1, 0, 1] (.str "a") (.str "Acme") p i ∧
      Got official postIds (posts "Acme" "Acme") .empty [0, 1, 0, 1] (.str "b") (.str "Acme") q j ∧
      Checks official postIds (posts "Acme" "Acme") .empty [0, 1, 0, 1] a i ∧
      Checks official postIds (posts "Acme" "Acme") .empty [0, 1, 0, 1] b j ∧
      a < p ∧ a < q ∧ b < p ∧ b < q := by
  have hnone : ∀ k n, ¬ Named Store.empty k n := by
    rintro k n ⟨d, hd, -⟩
    cases hd
  have hscalar : ∀ i n, (posts "Acme" "Acme" i).field "company_name" = some n →
      n.isScalar = true := by
    have hfield : ∀ i, (posts "Acme" "Acme" i).field "company_name" = some (.str "Acme") := by
      decide
    intro i n h
    obtain rfl := Option.some.inj ((hfield i).symm.trans h)
    rfl
  refine doubled_name_raced official postIds (posts "Acme" "Acme") .empty
    (fun k k' n h _ => absurd h (hnone k n)) hscalar [0, 1, 0, 1] (by decide) ?_ ?_
  · exact ⟨maybeGenerateKey "a" (companyDoc "Acme"), by decide, by decide, by decide⟩
  · exact ⟨maybeGenerateKey "b" (companyDoc "Acme"), by decide, by decide, by decide⟩

end PersonnelBackend.CompanyNameRace
