import PersonnelBackend.DatabaseTable

/-! Inserting one object. The object goes in when the server can read it and the
key it has or is given is usable and free; otherwise the table stays as it is. -/
namespace PersonnelBackend.Database
open Document

def newKey (uuid : ℕ → String) (d : Doc) : Json := (d.get "id").getD (.str (uuid 0))

def Admitted (uuid : ℕ → String) (d : Doc) : Prop :=
  d.plain = true ∧ isPrimary (newKey uuid d) = true

def Insertable (uuid : ℕ → String) (t : Table) (d : Doc) : Prop :=
  Admitted uuid d ∧ t.get (newKey uuid d) = none

instance (uuid : ℕ → String) (d : Doc) : Decidable (Admitted uuid d) :=
  inferInstanceAs (Decidable (_ ∧ _))

instance (uuid : ℕ → String) (t : Table) (d : Doc) : Decidable (Insertable uuid t d) :=
  inferInstanceAs (Decidable (_ ∧ _))

lemma maybeGenerateKey_id (uuid : String) (d : Doc) :
    (maybeGenerateKey uuid d).get "id" = some ((d.get "id").getD (.str uuid)) := by
  unfold maybeGenerateKey
  cases h : d.get "id" with
  | none => simp [Doc.get_set]
  | some key => simp [h]

lemma maybeGenerateKey_get (uuid : String) (d : Doc) {k : String} (hk : k ≠ "id") :
    (maybeGenerateKey uuid d).get k = d.get k := by
  unfold maybeGenerateKey
  split
  · rw [Doc.get_set, if_neg hk]
  · rfl

lemma maybeGenerateKey_plain (uuid : String) (d : Doc) :
    (maybeGenerateKey uuid d).plain = true ↔ d.plain = true := by
  unfold maybeGenerateKey
  split
  · rename_i hnone
    exact ⟨fun h => Fields.plain_of_overwrite hnone h, fun h => Doc.set_plain h _ _ _ _⟩
  · rfl

lemma validRows_object (uuid : ℕ → String) (d : Doc) :
    validRows uuid (.object d) =
      ((validRow (maybeGenerateKey (uuid 0) d)).toOption).toList := by
  have hv : (⟨.obj d.fields, d.sorted, d.ordinary⟩ : Value).doc? = some d := rfl
  simp only [validRows, prepared, Body.values, List.mapIdx_cons, List.mapIdx_nil, prepare, hv]
  cases validRow (maybeGenerateKey (uuid 0) d) <;> rfl

lemma newKey_id (uuid : ℕ → String) (d : Doc) :
    (maybeGenerateKey (uuid 0) d).get "id" = some (newKey uuid d) := maybeGenerateKey_id _ _

def newRow (uuid : ℕ → String) (d : Doc) (h : Admitted uuid d) : Row where
  key := newKey uuid d
  doc := maybeGenerateKey (uuid 0) d
  keyed := newKey_id uuid d
  usable := h.2
  plain := (maybeGenerateKey_plain _ _).mpr h.1

lemma validRow_of_admitted {uuid : ℕ → String} {d : Doc} (h : Admitted uuid d) :
    (validRow (maybeGenerateKey (uuid 0) d)).toOption = some (newRow uuid d h) := by
  have hid := newKey_id uuid d
  unfold validRow
  rw [dif_pos ((maybeGenerateKey_plain _ _).mpr h.1)]
  split
  · rename_i hnone
    rw [hnone] at hid
    cases hid
  · rename_i key hkey
    obtain rfl : key = newKey uuid d := Option.some.inj (hkey.symm.trans hid)
    split
    · rename_i e he
      rw [checkPrimary_of_isPrimary h.2] at he
      cases he
    · rfl

lemma validRow_of_not_admitted {uuid : ℕ → String} {d : Doc} (h : ¬ Admitted uuid d) :
    (validRow (maybeGenerateKey (uuid 0) d)).toOption = none := by
  have hid := newKey_id uuid d
  unfold validRow
  split_ifs with hp
  · split
    · rfl
    · rename_i key hkey
      obtain rfl : key = newKey uuid d := Option.some.inj (hkey.symm.trans hid)
      split
      · rfl
      · rename_i hk
        exact absurd ⟨(maybeGenerateKey_plain _ _).mp hp, by rw [isPrimary, hk]; rfl⟩ h
  · rfl

lemma insert_of_insertable {uuid : ℕ → String} {t : Table} {d : Doc} (h : Insertable uuid t d) :
    (t.insert uuid (.object d)).1 = t.put (newRow uuid d h.1) := by
  rw [Table.insert_table, validRows_object, validRow_of_admitted h.1]
  have hrow : t.get (newRow uuid d h.1).key = none := h.2
  simp [Table.insertRows, Table.insertRow, hrow]

lemma insert_of_not_insertable {uuid : ℕ → String} {t : Table} {d : Doc}
    (h : ¬ Insertable uuid t d) : (t.insert uuid (.object d)).1 = t := by
  rw [Table.insert_table, validRows_object]
  by_cases ha : Admitted uuid d
  · obtain ⟨old, hold⟩ := Option.ne_none_iff_exists'.mp fun hn => h ⟨ha, hn⟩
    have hrow : t.get (newRow uuid d ha).key = some old := hold
    rw [validRow_of_admitted ha]
    simp [Table.insertRows, Table.insertRow, hrow]
  · rw [validRow_of_not_admitted ha]
    rfl

lemma insert_object_get (uuid : ℕ → String) (t : Table) (d : Doc) (k : Json) :
    (t.insert uuid (.object d)).1.get k =
      if newKey uuid d = k then
        (t.get k).or (if Admitted uuid d then some (maybeGenerateKey (uuid 0) d) else none)
      else t.get k := by
  by_cases h : Insertable uuid t d
  · rw [insert_of_insertable h, Table.get_put, newRow]
    by_cases hk : newKey uuid d = k
    · subst hk
      simp [h.1, h.2]
    · simp [hk, Ne.symm hk]
  · rw [insert_of_not_insertable h]
    split_ifs with hk ha
    · subst hk
      obtain ⟨old, hold⟩ := Option.ne_none_iff_exists'.mp fun hn => h ⟨ha, hn⟩
      rw [hold, Option.some_or]
    · simp
    · rfl

lemma insert_object_get_iff {uuid : ℕ → String} {t : Table} {d e : Doc} {k : Json} :
    (t.insert uuid (.object d)).1.get k = some e ↔
      t.get k = some e ∨
        (Insertable uuid t d ∧ newKey uuid d = k ∧ maybeGenerateKey (uuid 0) d = e) := by
  by_cases h : Insertable uuid t d
  · rw [insert_of_insertable h, Table.get_put, newRow]
    by_cases hk : k = newKey uuid d
    · subst hk
      simp [h, h.2]
    · simp [hk, Ne.symm hk]
  · rw [insert_of_not_insertable h]
    simp [h]

lemma Table.select_put_of_none {t : Table} {row : Row} (h : t.get row.key = none) (p : Doc → Bool) :
    (t.put row).select p = if p row.doc then row.doc ::ₘ t.select p else t.select p := by
  have hentries : (t.put row).rows.entries = ⟨row.key, row.doc⟩ ::ₘ t.rows.entries :=
    Finmap.entries_insert_of_notMem (Finmap.lookup_eq_none.mp h)
  rw [select, docs, hentries, Multiset.map_cons, Multiset.filter_cons]
  split_ifs <;> simp [select, docs]

end PersonnelBackend.Database
