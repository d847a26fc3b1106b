import PersonnelBackend.GuardedAlone
import PersonnelBackend.GuardedRuns

/-! When the concurrent write requests are serializable. The conflict query and
the write of a request are two steps; if every write happens while its query
would still report no conflict, the requests might as well have run one after
the other, in the order of their last steps. -/
namespace PersonnelBackend.Guarded
open Document Database Express Resumption Router

variable {ι : Type} {dash : Driver} {uuid : ι → ℕ → String} {jobs : ι → Job} {s : Store}

lemma clear_run_write {job : Job} {table : TableName} {predicate : Fields}
    {verdict : Multiset Doc → Outcome ⊕ Write} {s₀ : Store}
    (hplan : job.plan dash = .check table predicate verdict)
    (hv : judge verdict ((Query.filter table predicate).reply s₀) = .inr job.write)
    {s : Store} (hclear : job.op.clear job.res s = true) (uuid : ℕ → String) :
    (process dash job.request).run (serve uuid) s = job.write.process.run (serve uuid) s := by
  obtain ⟨n, hn, rfl, rfl, hw, hcongr⟩ := plan_check hplan
  have hrows : job.op.rivals job.res s =
      (Query.filter job.res.table (activePattern job.res.nameField n)).answer s := by
    rw [WriteOp.rivals, hn]
  have hno : job.op.conflict job.res
      ((Query.filter job.res.table (activePattern job.res.nameField n)).answer s) = false := by
    rw [WriteOp.clear, hrows] at hclear
    simpa using hclear
  have hdecision : decision dash job.res job.op s = .inr job.write := by
    rw [decision, show plan dash job.res job.op = _ from hplan]
    refine (judge_filter_congr ?_).trans hv
    exact hcongr _ _ (hno.trans (hw _ _ (judge_filter_eq_inr hv)).2.symm)
  rw [Job.request, run_decision, hdecision]
  rfl

lemma replays_of_clear {c : RequestPool ι} {i : ι} (hc : Stage dash (jobs i) (c.progs i))
    (hclear : ∀ m next, c.progs i = .call (.write m) next →
      (jobs i).op.clear (jobs i).res c.store = true) :
    Pool.Replays (servers uuid) (launch dash s fun j => (jobs j).request) c i := by
  intro op next hp
  have hstart : (launch dash s fun j => (jobs j).request).progs i = process dash (jobs i).request :=
    rfl
  have hprocess : process dash (jobs i).request = ((jobs i).plan dash).process :=
    process_eq_plan dash (jobs i).res (jobs i).op
  rw [hstart]
  rcases hc.cases with ⟨outcome, h⟩ | ⟨table, predicate, verdict, hplan, h⟩ | ⟨h, hkind⟩
  · rw [h] at hp
    cases hp
  · rw [h] at hp
    cases hp
    rw [hprocess, hplan]
    have hrun : (Plan.check table predicate verdict).process.run (servers uuid i) c.store =
        (settle (judge verdict ((Query.filter table predicate).reply c.store))).run
          (servers uuid i) c.store := rfl
    rw [hrun]
    simp only [servers, serve_read]
    cases judge verdict ((Query.filter table predicate).reply c.store) with
    | inl outcome => rfl
    | inr w => trivial
  · have hrun : (process dash (jobs i).request).run (serve (uuid i)) c.store =
        (jobs i).write.process.run (serve (uuid i)) c.store := by
      rcases hkind with hplan | ⟨table, predicate, verdict, rows, hplan, hv⟩
      · rw [hprocess, hplan]
        rfl
      · exact clear_run_write hplan hv (hclear _ _ h) (uuid i)
    rw [h] at hp
    cases hp
    exact hrun

lemma pair_order {i j : ι} {order : List ι} (hij : i ≠ j) (honly : ∀ l, l = i ∨ l = j)
    (hnodup : order.Nodup) (hall : ∀ l, l ∈ order) : order = [i, j] ∨ order = [j, i] := by
  have hperm : order.Perm [i, j] := by
    refine (List.perm_ext_iff_of_nodup hnodup (by simp [hij])).mpr fun l => ?_
    simpa [hall l] using honly l
  obtain ⟨a, b, rfl⟩ := List.length_eq_two.mp hperm.length_eq
  rcases honly a with rfl | rfl <;> rcases honly b with rfl | rfl <;> simp_all

variable [DecidableEq ι]

/-- Some order of the requests, each run to completion before the next, gives
the same tables and the same answers. -/
def Serializable (uuid : ι → ℕ → String) (c : RequestPool ι) (schedule : List ι) : Prop :=
  ∃ order : List ι, order.Nodup ∧ (∀ i, i ∈ order) ∧
    (Pool.serial (servers uuid) c order).store = (c.exec (servers uuid) schedule).store ∧
    ∀ i, (Pool.serial (servers uuid) c order).result i = (c.exec (servers uuid) schedule).result i

/-- Whenever a request of the run is about to write, its conflict query asked
at that moment reports no conflict. -/
def WritesClear (dash : Driver) (uuid : ι → ℕ → String) (jobs : ι → Job) (s : Store)
    (schedule : List ι) : Prop :=
  ∀ pre i post, schedule = pre ++ i :: post →
    ∀ m next, ((launch dash s fun j => (jobs j).request).exec (servers uuid) pre).progs i =
      .call (.write m) next →
    (jobs i).op.clear (jobs i).res
      ((launch dash s fun j => (jobs j).request).exec (servers uuid) pre).store = true

/-! ### Two creates of one record -/

/-- Two posts that agree, in scalars, on the fields that make a record. -/
def SameRecord (job job' : Job) : Prop :=
  job.res = job'.res ∧ ∀ f ∈ job.res.keyFields, job.op.field f = job'.op.field f ∧
    ∀ v, job.op.field f = some v → v.isScalar = true

/-- Request `i` was answered 200 and the record it created is Active under `k`. -/
def Created (uuid : ι → ℕ → String) (jobs : ι → Job) (c : RequestPool ι) (i : ι) (k : Json) :
    Prop :=
  ∃ d, (jobs i).op = .post (.object d) ∧ (c.result i).bind Outcome.status = some 200 ∧
    (c.store.table (jobs i).res.table).get k = some (maybeGenerateKey (uuid i 0) d) ∧
    Active (maybeGenerateKey (uuid i 0) d)

lemma serial_pair_refused {i j : ι} (hij : i ≠ j) (hsame : SameRecord (jobs i) (jobs j))
    {k k' : Json} (hk : k ≠ k')
    (hi : Created uuid jobs (Pool.serial (servers uuid) (launch dash s fun l => (jobs l).request)
      [i, j]) i k)
    (hj : Created uuid jobs (Pool.serial (servers uuid) (launch dash s fun l => (jobs l).request)
      [i, j]) j k') :
    False := by
  obtain ⟨d, hd, -, hstored, hactive⟩ := hi
  obtain ⟨e, he, h200, hstored', -⟩ := hj
  set s' := ((process dash (jobs i).request).run (serve (uuid i)) s).2 with hs'
  set out := (process dash (jobs j).request).run (serve (uuid j)) s' with hout
  let pool := launch dash s fun l => (jobs l).request
  have hserial : (Pool.serial (servers uuid) pool [i, j]).store = out.2 ∧
      (Pool.serial (servers uuid) pool [i, j]).result j = some out.1 := Pool.serial_pair hij.symm
  rw [hserial.2] at h200
  rw [hserial.1] at hstored hstored'
  by_cases ha : Accepted dash (jobs j).res (jobs j).op s'
  · have hrun : out = _ := run_accepted ha (uuid j)
    have hold : (s'.table (jobs j).res.table).get k = some (maybeGenerateKey (uuid i 0) d) := by
      rw [hrun, hsame.1, Store.table_setTable, mutation_get (uuid j) _ (d := e) (by rw [he]; rfl),
        if_neg] at hstored
      · exact hstored
      · have hid := Table.get_id hstored'
        rw [he, WriteOp.target, ← newKey_id, hid]
        exact fun h => hk (Option.some.inj h).symm
    have hfields : ∀ f ∈ (jobs j).res.keyFields,
        (maybeGenerateKey (uuid i 0) d).get f = (jobs j).op.field f := by
      intro f hf
      have hf' := hsame.2 f (hsame.1 ▸ hf)
      rw [maybeGenerateKey_get _ _ (keyFields_ne_id hf), ← hf'.1, hd]
      rfl
    have hscalar : ∀ f ∈ (jobs j).res.keyFields, ∀ v, (jobs j).op.field f = some v →
        v.isScalar = true := by
      intro f hf v hv
      have hf' := hsame.2 f (hsame.1 ▸ hf)
      exact hf'.2 v (hf'.1.trans hv)
    rw [he] at ha
    obtain ⟨⟨hname, -⟩, hclear⟩ := ha
    obtain ⟨n, hn, -⟩ := Body.readable_iff.mp hname
    have hfalse := clear_eq_false (by rw [he]; exact hn) hscalar hold hactive hfields
    rw [he, hclear] at hfalse
    cases hfalse
  · obtain ⟨outcome, hr, hrun⟩ := run_refused ha (uuid j)
    rw [hout] at h200
    exact hr.status (by simpa [Job.request, hrun] using h200)

def postJobs (name name' : String) : Fin 2 → Job := fun i => ⟨.company, posts name name' i⟩

end PersonnelBackend.Guarded
