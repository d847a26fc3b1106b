import Mathlib.Data.List.Perm.Basic
import Mathlib.Data.Fintype.Basic
import PersonnelBackend.ResumptionProg

/-! Pools of resumptions over one shared state. A schedule is a list of process
names; each entry lets that process perform its next call. Two general facts
are proved: pairwise commuting steps make the outcome independent of the
schedule, and runs whose last steps can be replayed are serializable. -/
namespace PersonnelBackend.Resumption

universe u v w x y

variable {Op : Type u} {Reply : Op → Type v} {α : Type w} {σ : Type x} {ι : Type y}

/-- The shared state and what is left of every process. -/
@[ext] structure Pool (ι : Type y) (Op : Type u) (Reply : Op → Type v) (α : Type w)
    (σ : Type x) where
  store : σ
  progs : ι → Prog Op Reply α

namespace Pool

def result (c : Pool ι Op Reply α σ) (i : ι) : Option α := (c.progs i).value?

def Done (c : Pool ι Op Reply α σ) : Prop := ∀ i, ∃ value, c.progs i = .pure value

lemma done_of_result {c : Pool ι Op Reply α σ} (h : ∀ i, (c.result i).isSome = true) : c.Done := by
  intro i
  have hi := h i
  unfold result at hi
  cases hp : c.progs i with
  | pure value => exact ⟨value, rfl⟩
  | call op next => simp [hp, Prog.value?] at hi

variable [DecidableEq ι] (serve : ι → Server Op Reply σ)

/-- Process `i` performs its next call; a process that has ended stays as it is. -/
def step (c : Pool ι Op Reply α σ) (i : ι) : Pool ι Op Reply α σ :=
  match c.progs i with
  | .pure _ => c
  | .call op next =>
    ⟨(serve i op c.store).2, Function.update c.progs i (next (serve i op c.store).1)⟩

def exec (c : Pool ι Op Reply α σ) (schedule : List ι) : Pool ι Op Reply α σ :=
  schedule.foldl (step serve) c

/-- The calls performed along a schedule, each with the process that made it. -/
def trace : Pool ι Op Reply α σ → List ι → List (ι × Op)
  | _, [] => []
  | c, i :: schedule =>
    match c.progs i with
    | .pure _ => trace c schedule
    | .call op _ => (i, op) :: trace (c.step serve i) schedule

variable {serve}

lemma step_pure {c : Pool ι Op Reply α σ} {i : ι} {value : α} (h : c.progs i = .pure value) :
    c.step serve i = c := by
  simp [step, h]

lemma step_call {c : Pool ι Op Reply α σ} {i : ι} {op : Op} {next : Reply op → Prog Op Reply α}
    (h : c.progs i = .call op next) :
    c.step serve i =
      ⟨(serve i op c.store).2, Function.update c.progs i (next (serve i op c.store).1)⟩ := by
  simp [step, h]

lemma step_store {c : Pool ι Op Reply α σ} {i : ι} {op : Op} {next : Reply op → Prog Op Reply α}
    (h : c.progs i = .call op next) : (c.step serve i).store = (serve i op c.store).2 := by
  rw [step_call h]

lemma step_progs_ne {c : Pool ι Op Reply α σ} {i j : ι} (h : j ≠ i) :
    (c.step serve i).progs j = c.progs j := by
  cases hp : c.progs i with
  | pure value => rw [step_pure hp]
  | call op next => simp [step_call hp, h]

lemma step_comm_of_pure {c : Pool ι Op Reply α σ} {i j : ι} {value : α} (hij : i ≠ j)
    (h : c.progs i = .pure value) :
    (c.step serve i).step serve j = (c.step serve j).step serve i := by
  have h' : (c.step serve j).progs i = .pure value := (step_progs_ne hij).trans h
  rw [step_pure h, step_pure h']

@[simp] lemma exec_nil (c : Pool ι Op Reply α σ) : c.exec serve [] = c := rfl

@[simp] lemma exec_cons (c : Pool ι Op Reply α σ) (i : ι) (schedule : List ι) :
    c.exec serve (i :: schedule) = (c.step serve i).exec serve schedule := rfl

lemma exec_append (c : Pool ι Op Reply α σ) (s t : List ι) :
    c.exec serve (s ++ t) = (c.exec serve s).exec serve t := List.foldl_append

lemma exec_concat (c : Pool ι Op Reply α σ) (s : List ι) (i : ι) :
    c.exec serve (s ++ [i]) = (c.exec serve s).step serve i := by
  simp [exec_append]

theorem exec_invariant {I : Pool ι Op Reply α σ → Prop}
    (hstep : ∀ c i, I c → I (c.step serve i)) {c : Pool ι Op Reply α σ} (hc : I c)
    (schedule : List ι) : I (c.exec serve schedule) := by
  induction schedule generalizing c with
  | nil => exact hc
  | cons i schedule ih => exact ih (hstep c i hc)

lemma exec_progs_pure {c : Pool ι Op Reply α σ} {i : ι} {value : α} (h : c.progs i = .pure value)
    (schedule : List ι) : (c.exec serve schedule).progs i = .pure value := by
  refine exec_invariant (I := fun c => c.progs i = .pure value) (fun c j hc => ?_) h schedule
  by_cases hij : i = j
  · subst hij
    rw [step_pure hc, hc]
  · rw [step_progs_ne hij, hc]

lemma exec_done {c : Pool ι Op Reply α σ} (hc : c.Done) (schedule : List ι) :
    c.exec serve schedule = c := by
  induction schedule with
  | nil => rfl
  | cons i schedule ih =>
    obtain ⟨value, hv⟩ := hc i
    rw [exec_cons, step_pure hv, ih]

/-! ### Traces -/

lemma trace_cons_pure {c : Pool ι Op Reply α σ} {i : ι} {value : α}
    (h : c.progs i = .pure value) (schedule : List ι) :
    trace serve c (i :: schedule) = trace serve c schedule := by
  simp [trace, h]

lemma trace_cons_call {c : Pool ι Op Reply α σ} {i : ι} {op : Op}
    {next : Reply op → Prog Op Reply α} (h : c.progs i = .call op next) (schedule : List ι) :
    trace serve c (i :: schedule) = (i, op) :: trace serve (c.step serve i) schedule := by
  simp [trace, h]

lemma step_calls {P : ι → Op → Prop} {c : Pool ι Op Reply α σ}
    (hc : ∀ i, (c.progs i).Calls (P i)) (i : ι) : ∀ j, ((c.step serve i).progs j).Calls (P j) := by
  intro j
  by_cases hj : j = i
  · subst j
    cases hp : c.progs i with
    | pure value => simpa [step_pure hp] using hc i
    | call op next =>
      have h := hc i
      rw [hp] at h
      simpa [step_call hp] using h.2 _
  · rw [step_progs_ne hj]
    exact hc j

/-! ### Confluence -/

/-- Reordering a schedule changes nothing when the steps of different processes
commute on an invariant set of pools. -/
theorem exec_perm {I : Pool ι Op Reply α σ → Prop}
    (hstep : ∀ c i, I c → I (c.step serve i))
    (hcomm : ∀ c i j, I c → i ≠ j → (c.step serve i).step serve j = (c.step serve j).step serve i)
    {s t : List ι} (h : s.Perm t) {c : Pool ι Op Reply α σ} (hc : I c) :
    c.exec serve s = c.exec serve t := by
  induction h generalizing c with
  | nil => rfl
  | cons i _ ih => exact ih (hstep c i hc)
  | swap i j s =>
    by_cases hij : i = j
    · rw [hij]
    · rw [exec_cons, exec_cons, exec_cons, exec_cons, hcomm c i j hc hij]
  | trans _ _ ih₁ ih₂ => exact (ih₁ hc).trans (ih₂ hc)

/-- With commuting steps every schedule that lets all processes end gives the
same state and the same results. -/
theorem done_unique {I : Pool ι Op Reply α σ → Prop}
    (hstep : ∀ c i, I c → I (c.step serve i))
    (hcomm : ∀ c i j, I c → i ≠ j → (c.step serve i).step serve j = (c.step serve j).step serve i)
    {c : Pool ι Op Reply α σ} (hc : I c) {s t : List ι}
    (hs : (c.exec serve s).Done) (ht : (c.exec serve t).Done) :
    c.exec serve s = c.exec serve t := by
  calc c.exec serve s = c.exec serve (s ++ t) := by rw [exec_append, exec_done hs]
    _ = c.exec serve (t ++ s) := exec_perm hstep hcomm List.perm_append_comm hc
    _ = c.exec serve t := by rw [exec_append, exec_done ht]

/-! ### Serial runs -/

/-- Process `i` runs from where it stands to its end, without interruption. -/
def finish (serve : ι → Server Op Reply σ) (c : Pool ι Op Reply α σ) (i : ι) :
    Pool ι Op Reply α σ :=
  ⟨((c.progs i).run (serve i) c.store).2,
    Function.update c.progs i (.pure ((c.progs i).run (serve i) c.store).1)⟩

/-- The processes of `order`, each run to its end before the next one starts. -/
def serial (serve : ι → Server Op Reply σ) (c : Pool ι Op Reply α σ) (order : List ι) :
    Pool ι Op Reply α σ :=
  order.foldl (finish serve) c

lemma finish_progs_ne {c : Pool ι Op Reply α σ} {i j : ι} (h : j ≠ i) :
    (finish serve c i).progs j = c.progs j := Function.update_of_ne h _ _

lemma serial_concat (c : Pool ι Op Reply α σ) (order : List ι) (i : ι) :
    serial serve c (order ++ [i]) = finish serve (serial serve c order) i := by
  simp [serial]

lemma serial_progs_notMem {c : Pool ι Op Reply α σ} {order : List ι} {i : ι} (h : i ∉ order) :
    (serial serve c order).progs i = c.progs i := by
  induction order using List.reverseRecOn with
  | nil => rfl
  | append_singleton order j ih =>
    simp only [List.mem_append, List.mem_singleton, not_or] at h
    rw [serial_concat, finish_progs_ne h.2, ih h.1]

lemma serial_append_pure {c : Pool ι Op Reply α σ} {rest : List ι}
    (h : ∀ i ∈ rest, ∃ value, c.progs i = .pure value) :
    serial serve c rest = c := by
  induction rest with
  | nil => rfl
  | cons i rest ih =>
    obtain ⟨value, hv⟩ := h i (by simp)
    have hf : finish serve c i = c := by
      ext1
      · simp [finish, hv]
      · simp only [finish, hv, Prog.run_pure]
        rw [← hv, Function.update_eq_self]
    change serial serve (finish serve c i) rest = c
    rw [hf]
    exact ih fun j hj => h j (by simp [hj])

lemma serial_pair {c : Pool ι Op Reply α σ} {i j : ι} (h : j ≠ i) :
    (serial serve c [i, j]).store =
      ((c.progs j).run (serve j) ((c.progs i).run (serve i) c.store).2).2 ∧
    (serial serve c [i, j]).result j =
      some ((c.progs j).run (serve j) ((c.progs i).run (serve i) c.store).2).1 := by
  have hserial : serial serve c [i, j] = finish serve (finish serve c i) j := rfl
  have hstore : (finish serve c i).store = ((c.progs i).run (serve i) c.store).2 := rfl
  rw [hserial, finish, finish_progs_ne h, hstore, result]
  refine ⟨rfl, ?_⟩
  simp only [Function.update_self]
  rfl

/-- The next step of process `i` can be replayed: if it is the last step, the
whole of `i` run alone at this state does the same, and otherwise the step
leaves the state alone. -/
def Replays (serve : ι → Server Op Reply σ) (start c : Pool ι Op Reply α σ) (i : ι) : Prop :=
  ∀ op next, c.progs i = .call op next →
    match next (serve i op c.store).1 with
    | .pure value => (start.progs i).run (serve i) c.store = (value, (serve i op c.store).2)
    | .call _ _ => (serve i op c.store).2 = c.store

/-- A serial run of the processes that have ended reaches the state of `c`. -/
structure SerialUpTo (serve : ι → Server Op Reply σ) (start c : Pool ι Op Reply α σ)
    (order : List ι) : Prop where
  nodup : order.Nodup
  store : (serial serve start order).store = c.store
  ended : ∀ i ∈ order, ∃ value, c.progs i = .pure value
  same : ∀ i ∈ order, (serial serve start order).progs i = c.progs i
  untouched : ∀ i, i ∉ order → ∀ value, c.progs i = .pure value → start.progs i = .pure value

lemma SerialUpTo.notMem {start c : Pool ι Op Reply α σ} {order : List ι} {i : ι} {op : Op}
    {next : Reply op → Prog Op Reply α} (h : SerialUpTo serve start c order)
    (hp : c.progs i = .call op next) : i ∉ order := by
  intro hm
  obtain ⟨value, hv⟩ := h.ended i hm
  rw [hp] at hv
  cases hv

lemma SerialUpTo.step_last {start c : Pool ι Op Reply α σ} {order : List ι} {i : ι} {op : Op}
    {next : Reply op → Prog Op Reply α} {value : α} (h : SerialUpTo serve start c order)
    (hp : c.progs i = .call op next) (hq : next (serve i op c.store).1 = .pure value)
    (hr : (start.progs i).run (serve i) c.store = (value, (serve i op c.store).2)) :
    SerialUpTo serve start (c.step serve i) (order ++ [i]) := by
  -- the step that ends a program takes it into the serial order
  have hn := h.notMem hp
  have hs : serial serve start (order ++ [i]) =
      ⟨(serve i op c.store).2, Function.update (serial serve start order).progs i
        (.pure value)⟩ := by
    rw [serial_concat, finish, serial_progs_notMem hn, h.store, hr]
  refine ⟨?_, ?_, ?_, ?_, ?_⟩
  · simpa [List.nodup_append] using ⟨h.nodup, fun a ha hai => hn (hai ▸ ha)⟩
  · rw [hs, step_call hp]
  · intro j hj
    by_cases hji : j = i
    · exact ⟨value, by simp [step_call hp, hji, hq]⟩
    · rw [step_progs_ne hji]
      exact h.ended j (by simpa [hji] using hj)
  · intro j hj
    rw [hs]
    by_cases hji : j = i
    · simp [step_call hp, hji, hq]
    · rw [step_progs_ne hji]
      simpa [hji] using h.same j (by simpa [hji] using hj)
  · intro j hj out hout
    simp only [List.mem_append, List.mem_singleton, not_or] at hj
    rw [step_progs_ne hj.2] at hout
    exact h.untouched j hj.1 out hout

lemma SerialUpTo.step_early {start c : Pool ι Op Reply α σ} {order : List ι} {i : ι} {op op' : Op}
    {next : Reply op → Prog Op Reply α} {next' : Reply op' → Prog Op Reply α}
    (h : SerialUpTo serve start c order) (hp : c.progs i = .call op next)
    (hq : next (serve i op c.store).1 = .call op' next') (hr : (serve i op c.store).2 = c.store) :
    SerialUpTo serve start (c.step serve i) order := by
  -- a step that does not end its program leaves the serial order as it is
  have hne : ∀ j ∈ order, j ≠ i := fun j hj he => h.notMem hp (he ▸ hj)
  refine ⟨h.nodup, ?_, ?_, ?_, ?_⟩
  · rw [h.store, step_call hp]
    exact hr.symm
  · intro j hj
    rw [step_progs_ne (hne j hj)]
    exact h.ended j hj
  · intro j hj
    rw [step_progs_ne (hne j hj)]
    exact h.same j hj
  · intro j hj out hout
    by_cases hji : j = i
    · subst j
      simp [step_call hp, hq] at hout
    · rw [step_progs_ne hji] at hout
      exact h.untouched j hj out hout

lemma SerialUpTo.step {start c : Pool ι Op Reply α σ} {order : List ι}
    (h : SerialUpTo serve start c order) {i : ι} (hi : Replays serve start c i) :
    ∃ order', SerialUpTo serve start (c.step serve i) order' := by
  cases hp : c.progs i with
  | pure value =>
    rw [step_pure hp]
    exact ⟨order, h⟩
  | call op next =>
    have hr := hi op next hp
    cases hq : next (serve i op c.store).1 with
    | pure value =>
      rw [hq] at hr
      exact ⟨order ++ [i], h.step_last hp hq hr⟩
    | call op' next' =>
      rw [hq] at hr
      exact ⟨order, h.step_early hp hq hr⟩

/-- A run all of whose steps replay is a serial run up to its last state. -/
theorem exists_serialUpTo {c : Pool ι Op Reply α σ} {schedule : List ι}
    (h : ∀ pre i post, schedule = pre ++ i :: post → Replays serve c (c.exec serve pre) i) :
    ∃ order, SerialUpTo serve c (c.exec serve schedule) order := by
  induction schedule using List.reverseRecOn with
  | nil => exact ⟨[], by simp, rfl, by simp, by simp, fun i _ value hv => hv⟩
  | append_singleton schedule i ih =>
    obtain ⟨order, ho⟩ := ih fun pre j post he => h pre j (post ++ [i]) (by simp [he])
    rw [exec_concat]
    exact ho.step (h schedule i [] rfl)

/-- Serializability: when all steps replay and all processes have ended, some
order of all the processes, run one after the other, gives the same state and
the same results. -/
theorem exists_serial [Fintype ι] {c : Pool ι Op Reply α σ} {schedule : List ι}
    (h : ∀ pre i post, schedule = pre ++ i :: post → Replays serve c (c.exec serve pre) i)
    (hd : (c.exec serve schedule).Done) :
    ∃ order : List ι, order.Nodup ∧ (∀ i, i ∈ order) ∧
      serial serve c order = c.exec serve schedule := by
  obtain ⟨order, ho⟩ := exists_serialUpTo h
  let rest := (Finset.univ.filter fun i => i ∉ order).toList
  have hrest : ∀ i, i ∈ rest ↔ i ∉ order := by simp [rest]
  have hpure : ∀ i ∈ rest, ∃ value, (serial serve c order).progs i = .pure value := by
    intro i hi
    have hn := (hrest i).mp hi
    obtain ⟨value, hv⟩ := hd i
    rw [serial_progs_notMem hn]
    exact ⟨value, ho.untouched i hn value hv⟩
  have he : serial serve c (order ++ rest) = serial serve c order := by
    rw [serial, List.foldl_append]
    exact serial_append_pure hpure
  refine ⟨order ++ rest, ?_, ?_, ?_⟩
  · refine List.nodup_append.mpr ⟨ho.nodup, Finset.nodup_toList _, ?_⟩
    intro i hi j hj hij
    exact (hrest j).mp hj (hij ▸ hi)
  · intro i
    by_cases hi : i ∈ order
    · simp [hi]
    · simp [(hrest i).mpr hi]
  · rw [he]
    ext1
    · exact ho.store
    · funext i
      by_cases hi : i ∈ order
      · exact ho.same i hi
      · obtain ⟨value, hv⟩ := hd i
        rw [serial_progs_notMem hi, ho.untouched i hi value hv, hv]

end Pool

end PersonnelBackend.Resumption
