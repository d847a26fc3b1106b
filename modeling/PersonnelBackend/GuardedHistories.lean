import PersonnelBackend.GuardedAlone
import PersonnelBackend.SequentialRuns

/-! Histories of write requests on one resource, served one after the other. A
request that gets through changes its table under one key. -/
namespace PersonnelBackend.Guarded
open Document Database Express Resumption Router Histories

/-- A write request with the identifiers the server would generate for it. -/
structure Act where
  ids : ℕ → String
  op : WriteOp

def Act.entry (res : Resource) (a : Act) : Entry := ⟨a.ids, res.request a.op⟩

section
variable (dash : Driver) (res : Resource) (s : Store)

def since (acts : List Act) : Store := after dash s (acts.map (Act.entry res))

def reply (acts : List Act) (a : Act) : Outcome :=
  (respond dash (since dash res s acts) (a.entry res)).1

end

variable {dash : Driver} {res : Resource} {s : Store}

lemma since_concat (acts : List Act) (a : Act) :
    since dash res s (acts ++ [a]) = (respond dash (since dash res s acts) (a.entry res)).2 := by
  rw [since, List.map_append]
  exact after_concat _ _ _

theorem since_invariant {I : Store → Prop} {acts : List Act} (hs : I s)
    (hstep : ∀ pre a post, acts = pre ++ a :: post → I (since dash res s pre) →
      I (respond dash (since dash res s pre) (a.entry res)).2) : I (since dash res s acts) := by
  refine after_invariant hs fun pre e post he hpre => ?_
  obtain ⟨front, rest, rfl, rfl, hrest⟩ := List.map_eq_append_iff.mp he
  obtain ⟨a, back, rfl, rfl, rfl⟩ := List.map_eq_cons_iff.mp hrest
  exact hstep front a back rfl hpre

lemma accepted_doc {op : WriteOp} (h : Accepted dash res op s) : ∃ d, op.doc? = some d := by
  match op with
  | .post (.object d) => exact ⟨d, rfl⟩
  | .put id (.object d) => exact ⟨d, rfl⟩
  | .delete id => exact ⟨_, rfl⟩
  | .post (.array items) => exact absurd h.1.1 (by simp [Body.readable, Body.field])
  | .put id (.array items) => exact absurd h.2.1.1 (by simp [Body.readable, Body.field])

theorem respond_get (a : Act) (s : Store) (k : Json) :
    ((respond dash s (a.entry res)).2.table res.table).get k =
      if Accepted dash res a.op s ∧ a.op.target a.ids = some k
      then a.op.outcome a.ids ((s.table res.table).get k) else (s.table res.table).get k := by
  rw [respond, Act.entry]
  by_cases ha : Accepted dash res a.op s
  · obtain ⟨d, hd⟩ := accepted_doc ha
    simp only [run_accepted ha, Store.table_setTable, mutation_get a.ids res hd, ha, true_and]
  · obtain ⟨outcome, -, hrun⟩ := run_refused ha a.ids
    simp only [hrun, ha, false_and, if_false]

lemma respond_get_target {a : Act} {s : Store} {key : Json} (ha : Accepted dash res a.op s)
    (hkey : a.op.target a.ids = some key) :
    ((respond dash s (a.entry res)).2.table res.table).get key =
      a.op.outcome a.ids ((s.table res.table).get key) := by
  rw [respond_get, if_pos ⟨ha, hkey⟩]

lemma respond_get_ne {a : Act} {s : Store} {key k : Json} (hkey : a.op.target a.ids = some key)
    (hk : k ≠ key) :
    ((respond dash s (a.entry res)).2.table res.table).get k = (s.table res.table).get k := by
  rw [respond_get, if_neg]
  rintro ⟨-, h⟩
  exact hk (Option.some.inj (h.symm.trans hkey))

lemma respond_refused {a : Act} {s : Store} (ha : ¬ Accepted dash res a.op s) :
    (respond dash s (a.entry res)).2 = s := by
  obtain ⟨outcome, -, hrun⟩ := run_refused ha a.ids
  rw [respond, Act.entry, hrun]

end PersonnelBackend.Guarded
