import PersonnelBackend.DatabaseTable

/-! How the rows of one insert reach the table (`real_table.cc`, `btree.cc`): in
batches of at most 128, and within a batch by shards and coroutines that keep only
rows of the same key in order. For the table this is inserting the rows one after
another, and the counters of the answer are the same; which of several errors is
named is up to the order in which the rows are done. -/
namespace PersonnelBackend.Database
open Document

/-! ### Batches -/

def splitSize : ℕ := 128

def batchStep (keysLeft : ℕ) : ℕ :=
  if splitSize > keysLeft then keysLeft
  else if splitSize < keysLeft ∧ keysLeft < 2 * splitSize then keysLeft / 2
  else splitSize

/-- The loop of `split`. Every batch takes something, so that the number of rows
is fuel enough. -/
def splitWith {α : Type*} : ℕ → List α → List (List α)
  | 0, _ => []
  | fuel + 1, v =>
    if v.isEmpty then []
    else v.take (batchStep v.length) :: splitWith fuel (v.drop (batchStep v.length))

def split {α : Type*} (v : List α) : List (List α) := splitWith v.length v

lemma batchStep_pos {n : ℕ} (h : 0 < n) : 0 < batchStep n := by
  have hs : splitSize = 128 := rfl
  rw [batchStep]
  split_ifs <;> omega

lemma splitWith_flatten {α : Type*} {fuel : ℕ} {v : List α} (hf : v.length ≤ fuel) :
    (splitWith fuel v).flatten = v := by
  induction fuel generalizing v with
  | zero =>
    obtain rfl := List.length_eq_zero_iff.mp (Nat.le_zero.mp hf)
    simp [splitWith]
  | succ fuel ih =>
    rw [splitWith]
    split_ifs with hempty
    · obtain rfl := List.isEmpty_iff.mp hempty
      simp
    · have hpos : 0 < v.length := List.length_pos_iff.mpr fun h => hempty (by simp [h])
      have hstep := batchStep_pos hpos
      have hrest : (v.drop (batchStep v.length)).length ≤ fuel := by
        rw [List.length_drop]
        omega
      rw [List.flatten_cons, ih hrest, List.take_append_drop]

lemma split_flatten {α : Type*} (v : List α) : (split v).flatten = v := splitWith_flatten le_rfl

/-! ### The order of the rows of a batch -/

/-- The rows in another order that keeps rows of the same key in order. -/
def Reordered (rows rows' : List Row) : Prop :=
  ∀ k, rows'.filter (fun row => row.key = k) = rows.filter fun row => row.key = k

/-- The method `write_batched_insert`, on the batches in the order in which their
rows are done. -/
def Table.writeBatchedInsert (t : Table) (batches : List (List Row)) : Table × WriteResult :=
  batches.foldl (fun acc batch =>
    let out := acc.1.insertRows batch
    (out.1, acc.2.merge out.2)) (t, {})

namespace WriteResult

def tally (r : WriteResult) : WriteResult × Bool :=
  ({ r with firstError := none }, r.firstError.isSome)

lemma tally_merge (a b : WriteResult) :
    (a.merge b).tally = (a.tally.1.merge b.tally.1, a.tally.2 || b.tally.2) := by
  simp [tally, merge]

lemma tally_keys (r : WriteResult) (keys : List String) :
    tally { r with generatedKeys := keys } =
      ({ r.tally.1 with generatedKeys := keys }, r.tally.2) := rfl

lemma merge_assoc (a b c : WriteResult) : (a.merge b).merge c = a.merge (b.merge c) := by
  simp [merge, Nat.add_assoc, Option.or_assoc]

lemma empty_merge (a : WriteResult) : merge {} a = a := by simp [merge]

lemma merge_empty (a : WriteResult) : a.merge {} = a := by simp [merge]

end WriteResult

lemma reordered_flatten {batches orders : List (List Row)}
    (h : List.Forall₂ Reordered batches orders) : Reordered batches.flatten orders.flatten := by
  intro k
  induction h with
  | nil => rfl
  | cons hb _ ih =>
    rw [List.flatten_cons, List.flatten_cons, List.filter_append, List.filter_append, hb k, ih]

/-- The same table, and answers that agree but for the error they name. -/
structure SameOutcome (x y : Table × WriteResult) : Prop where
  table : x.1 = y.1
  tally : x.2.tally = y.2.tally

namespace SameOutcome

variable {x y z : Table × WriteResult}

lemma trans (h : SameOutcome x y) (h' : SameOutcome y z) : SameOutcome x z :=
  ⟨h.table.trans h'.table, h.tally.trans h'.tally⟩

lemma cons {t : Table} {row : Row} {rows rows' : List Row}
    (h : SameOutcome ((t.insertRow row).1.insertRows rows) ((t.insertRow row).1.insertRows rows')) :
    SameOutcome (t.insertRows (row :: rows)) (t.insertRows (row :: rows')) := by
  refine ⟨h.table, ?_⟩
  simp only [Table.insertRows, WriteResult.tally_merge, h.tally]

end SameOutcome

namespace Table

lemma insertRow_tally (t : Table) (row : Row) :
    (t.insertRow row).2.tally =
      if (t.get row.key).isSome then ({ errors := 1 }, true) else ({ inserted := 1 }, false) := by
  rw [insertRow]
  cases t.get row.key <;> rfl

lemma insertRow_get_ne {t : Table} {row : Row} {k : Json} (h : k ≠ row.key) :
    (t.insertRow row).1.get k = t.get k := by
  rw [insertRow_get, if_neg h, Option.or_none]

lemma insertRow_comm (t : Table) {x y : Row} (h : x.key ≠ y.key) :
    ((t.insertRow x).1.insertRow y).1 = ((t.insertRow y).1.insertRow x).1 := by
  refine ext_get fun k => ?_
  rw [insertRow_get, insertRow_get, insertRow_get, insertRow_get]
  by_cases hx : k = x.key
  · simp [hx, h]
  · simp [hx]

lemma insertRows_swap (t : Table) {x y : Row} (h : x.key ≠ y.key) (rows : List Row) :
    SameOutcome (t.insertRows (x :: y :: rows)) (t.insertRows (y :: x :: rows)) := by
  refine ⟨?_, ?_⟩
  · simp only [insertRows, insertRow_comm t h]
  · simp only [insertRows, WriteResult.tally_merge, insertRow_tally, insertRow_get_ne h,
      insertRow_get_ne h.symm, insertRow_comm t h]
    split_ifs <;> simp [WriteResult.merge]

lemma insertRows_front (t : Table) (row : Row) (before after : List Row)
    (h : ∀ x ∈ before, x.key ≠ row.key) :
    SameOutcome (t.insertRows (before ++ row :: after))
      (t.insertRows (row :: (before ++ after))) := by
  induction before generalizing t with
  | nil => exact ⟨rfl, rfl⟩
  | cons x before ih =>
    have hrest := ih (t.insertRow x).1 fun y hy => h y (List.mem_cons_of_mem x hy)
    exact hrest.cons.trans (insertRows_swap t (h x List.mem_cons_self) (before ++ after))

lemma insertRows_reordered (t : Table) {rows rows' : List Row} (h : Reordered rows rows') :
    SameOutcome (t.insertRows rows') (t.insertRows rows) := by
  -- only the order of rows of the same key matters
  induction rows generalizing rows' t with
  | nil =>
    have hnil : rows' = [] := by
      refine List.eq_nil_iff_forall_not_mem.2 fun x hx => ?_
      have hmem : x ∈ rows'.filter fun row => row.key = x.key := by simpa using hx
      simp [h x.key] at hmem
    rw [hnil]
    exact ⟨rfl, rfl⟩
  | cons row rows ih =>
    -- the first row is the first of its key in the other order too
    have hrow := h row.key
    rw [List.filter_cons_of_pos (by simp), List.filter_eq_cons_iff] at hrow
    obtain ⟨before, after, rfl, hbefore, -, -⟩ := hrow
    have hrest : Reordered rows (before ++ after) := by
      intro k
      have hk := h k
      by_cases hkey : row.key = k
      · have hnone : before.filter (fun x => x.key = k) = [] := by simpa [hkey] using hbefore
        simpa [hkey, hnone] using hk
      · simpa [hkey] using hk
    have hfront := insertRows_front t row before after (by simpa using hbefore)
    exact hfront.trans (ih _ hrest).cons

lemma insertRows_append (t : Table) (rows rows' : List Row) :
    t.insertRows (rows ++ rows') =
      (((t.insertRows rows).1.insertRows rows').1,
        (t.insertRows rows).2.merge ((t.insertRows rows).1.insertRows rows').2) := by
  induction rows generalizing t with
  | nil => simp only [List.nil_append, insertRows, WriteResult.empty_merge]
  | cons row rows ih => simp only [List.cons_append, insertRows, ih, WriteResult.merge_assoc]

lemma writeBatchedInsert_eq (t : Table) (batches : List (List Row)) :
    t.writeBatchedInsert batches = t.insertRows batches.flatten := by
  -- the answer so far stands in front of the answer to the batches that are left
  have hfold : ∀ acc : Table × WriteResult,
      batches.foldl (fun acc batch =>
        let out := acc.1.insertRows batch
        (out.1, acc.2.merge out.2)) acc =
      ((acc.1.insertRows batches.flatten).1, acc.2.merge (acc.1.insertRows batches.flatten).2) := by
    induction batches with
    | nil =>
      intro acc
      simp only [List.foldl_nil, List.flatten_nil, insertRows, WriteResult.merge_empty]
    | cons batch batches ih =>
      intro acc
      simp only [List.foldl_cons, ih, List.flatten_cons, insertRows_append, WriteResult.merge_assoc]
  rw [writeBatchedInsert, hfold, WriteResult.empty_merge]

/-- The method `batched_insert`: the rows that pass the checks are inserted in
batches, in the order `orders`. -/
def batchedInsert (uuid : ℕ → String) (t : Table) (data : Body) (orders : List (List Row)) :
    Table × WriteResult :=
  let out := t.writeBatchedInsert orders
  (out.1, { (trivialErrors uuid data).merge out.2 with
    generatedKeys := (data.values.mapIdx fun i v => generatedKey (uuid i) v).flatten })

/-- In whichever order the rows of each batch are done, as long as it keeps rows of
the same key in order, an insert leaves the table of the insert of one row after the
other, with the same counters and an error named in the same cases. -/
theorem insert_in_batches (t : Table) (uuid : ℕ → String) (data : Body) (orders : List (List Row))
    (h : List.Forall₂ Reordered (split (validRows uuid data)) orders) :
    SameOutcome (t.batchedInsert uuid data orders) (t.insert uuid data) := by
  have hrows : Reordered (validRows uuid data) orders.flatten := by
    have := reordered_flatten h
    rwa [split_flatten] at this
  have hout := t.insertRows_reordered hrows
  rw [← writeBatchedInsert_eq] at hout
  refine ⟨hout.table, ?_⟩
  simp only [batchedInsert, insert, WriteResult.tally_keys, WriteResult.tally_merge, hout.tally]

def noteRow (id note : String) (h : isPrimary (.str id) = true) : Row where
  key := .str id
  doc := Doc.strings [("id", id), ("note", note)]
  keyed := by simp [Doc.get_strings_cons, reqlType]
  usable := h
  plain := Doc.strings_plain _

def noteA : Row := noteRow "a" "1" (by decide)

def noteAgain : Row := noteRow "a" "2" (by decide)

def noteB : Row := noteRow "b" "3" (by decide)

def noteBody (rows : List Row) : Body :=
  .array (rows.map fun row => ⟨.obj row.doc.fields, row.doc.sorted, row.doc.ordinary⟩)

theorem insert_in_batches_twice :
    SameOutcome
      (empty.batchedInsert (fun _ => "") (noteBody [noteA, noteAgain, noteB])
        [[noteB, noteA, noteAgain]])
      (empty.insert (fun _ => "") (noteBody [noteA, noteAgain, noteB])) := by
  have hsplit : split (validRows (fun _ => "") (noteBody [noteA, noteAgain, noteB])) =
      [[noteA, noteAgain, noteB]] := by rfl
  refine insert_in_batches _ _ _ _ ?_
  rw [hsplit]
  refine .cons (fun k => ?_) .nil
  by_cases hb : Json.str "b" = k
  · simp [noteA, noteAgain, noteB, noteRow, ← hb]
  · simp [noteA, noteAgain, noteB, noteRow, hb, List.filter_cons]

end Table

end PersonnelBackend.Database
