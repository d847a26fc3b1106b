import PersonnelBackend.GuardedWrites
import PersonnelBackend.ResumptionPool

/-! Pools of requests over the shared tables, and the life of a guarded request
in such a pool: it stands at its beginning, at its write after a conflict query
without conflict, or at its end. -/
namespace PersonnelBackend.Guarded
open Document Database Express Resumption Router

variable {ι : Type}

abbrev RequestPool (ι : Type) := Pool ι Call Reply Outcome Store

def launch (dash : Driver) (s : Store) (requests : ι → Request) : RequestPool ι :=
  ⟨s, fun i => process dash (requests i)⟩

/-- The server as each request sees it, with its own supply of identifiers. -/
def servers (uuid : ι → ℕ → String) : ι → Server Call Reply Store := fun i => serve (uuid i)

structure Job where
  res : Resource
  op : WriteOp

namespace Job

def request (job : Job) : Request := job.res.request job.op

def plan (dash : Driver) (job : Job) : Plan := Guarded.plan dash job.res job.op

def mutation (job : Job) : Mutation := job.op.mutation job.res

def write (job : Job) : Write := job.op.write job.res

end Job

variable {dash : Driver}

inductive Stage (dash : Driver) (job : Job) : Process → Prop
  | start : Stage dash job (job.plan dash).process
  | cleared {table : TableName} {predicate : Fields} {verdict : Multiset Doc → Outcome ⊕ Write}
      {s : Store} {w : Write} (hplan : job.plan dash = .check table predicate verdict)
      (hverdict : judge verdict ((Query.filter table predicate).reply s) = .inr w) :
      Stage dash job w.process
  | ended (outcome : Outcome) : Stage dash job (.pure outcome)

lemma launch_stage (s : Store) (jobs : ι → Job) (i : ι) :
    Stage dash (jobs i) ((launch dash s fun j => (jobs j).request).progs i) := by
  have h : (launch dash s fun j => (jobs j).request).progs i = ((jobs i).plan dash).process :=
    process_eq_plan dash (jobs i).res (jobs i).op
  rw [h]
  exact .start

/-- A guarded request has ended, is about to ask its conflict query, or is about
to make its own write, at once or after a query without conflict. -/
theorem Stage.cases {job : Job} {p : Process} (h : Stage dash job p) :
    (∃ outcome, p = .pure outcome) ∨
    (∃ table predicate verdict, job.plan dash = .check table predicate verdict ∧
      p = (Plan.check table predicate verdict).process) ∨
    (p = job.write.process ∧ (job.plan dash = .write job.write ∨ ∃ table predicate verdict s,
      job.plan dash = .check table predicate verdict ∧
        judge verdict ((Query.filter table predicate).reply s) = .inr job.write)) := by
  cases h with
  | start =>
    cases hplan : job.plan dash with
    | ended outcome => exact Or.inl ⟨outcome, rfl⟩
    | write w =>
      obtain rfl : w = job.write := (plan_write hplan).2
      exact Or.inr (Or.inr ⟨rfl, Or.inl rfl⟩)
    | check table predicate verdict => exact Or.inr (Or.inl ⟨table, predicate, verdict, rfl, rfl⟩)
  | cleared hplan hverdict =>
    obtain ⟨n, -, -, -, hw, -⟩ := plan_check hplan
    obtain rfl := (hw _ _ (judge_filter_eq_inr hverdict)).1
    exact Or.inr (Or.inr ⟨rfl, Or.inr ⟨_, _, _, _, hplan, hverdict⟩⟩)
  | ended outcome => exact Or.inl ⟨outcome, rfl⟩

variable [DecidableEq ι]

variable {uuid : ι → ℕ → String}

lemma step_check {c : RequestPool ι} {i : ι} {table : TableName} {predicate : Fields}
    {verdict : Multiset Doc → Outcome ⊕ Write}
    (h : c.progs i = (Plan.check table predicate verdict).process) :
    c.step (servers uuid) i = ⟨c.store, Function.update c.progs i
      (settle (judge verdict ((Query.filter table predicate).reply c.store)))⟩ := Pool.step_call h

lemma step_write {job : Job} {c : RequestPool ι} {i : ι} (h : c.progs i = job.write.process) :
    c.step (servers uuid) i =
      ⟨c.store.setTable job.res.table (job.mutation.onTable (uuid i)
        (c.store.table job.res.table)).1, Function.update c.progs i (.pure (job.op.ending job.res
          (job.mutation.onTable (uuid i) (c.store.table job.res.table)).2))⟩ := by
  have ht : job.mutation.table = job.res.table := mutation_table job.res job.op
  rw [Pool.step_call h, ← ht]
  rfl

lemma step_stage (jobs : ι → Job) {c : RequestPool ι} (hc : ∀ j, Stage dash (jobs j) (c.progs j))
    (i : ι) : ∀ j, Stage dash (jobs j) ((c.step (servers uuid) i).progs j) := by
  intro j
  by_cases hji : j = i
  · subst j
    rcases (hc i).cases with ⟨outcome, hp⟩ | ⟨table, predicate, verdict, hplan, hp⟩ | ⟨hp, -⟩
    · rw [Pool.step_pure hp]
      exact hc i
    · rw [step_check hp]
      simp only [Function.update_self]
      cases hv : judge verdict ((Query.filter table predicate).reply c.store) with
      | inl outcome => exact .ended outcome
      | inr w => exact .cleared hplan hv
    · rw [step_write hp]
      simp only [Function.update_self]
      exact .ended _
  · rw [Pool.step_progs_ne hji]
    exact hc j

lemma exec_stage (s : Store) (jobs : ι → Job) (schedule : List ι) (i : ι) :
    Stage dash (jobs i)
      (((launch dash s fun j => (jobs j).request).exec (servers uuid) schedule).progs i) :=
  Pool.exec_invariant (I := fun c => ∀ j, Stage dash (jobs j) (c.progs j))
    (fun _ i hc => step_stage jobs hc i) (fun j => launch_stage s jobs j) schedule i

/-! ### Two creates at once -/

def companyDoc (name : String) : Doc := Doc.strings [("company_name", name), ("status", "Active")]

def posts (name name' : String) : Fin 2 → WriteOp :=
  fun i => .post (.object (companyDoc (if i = 0 then name else name')))

def postIds : Fin 2 → ℕ → String := fun i _ => if i = 0 then "a" else "b"

end PersonnelBackend.Guarded
