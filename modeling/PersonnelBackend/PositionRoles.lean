import PersonnelBackend.DirectRoutes
import PersonnelBackend.SequentialRuns

/-! Positions created one after the other. The handler stores the position first
and compares the length of a promise afterwards, so no request is refused and
only the requests themselves keep the stored roles apart. -/
namespace PersonnelBackend.PositionRoles
open Document Database Express Resumption Router Direct Histories

/-- An object body with a scalar role, and the identifiers generated for it. -/
structure Vacancy where
  ids : ℕ → String
  doc : Doc
  role : Json
  hasRole : doc.get "role" = some role
  scalar : role.isScalar = true

def Vacancy.entry (v : Vacancy) : Entry := ⟨v.ids, .createPosition (.object v.doc)⟩

variable (dash : Driver) (s : Store)

def reached (history : List Vacancy) : Store := after dash s (history.map Vacancy.entry)

def statusAfter (pre : List Vacancy) (v : Vacancy) : Option ℕ :=
  (respond dash (reached dash s pre) v.entry).1.status

def RoleStored (t : Table) (role : Json) : Prop :=
  ∃ k d, t.get k = some d ∧ d.get "role" = some role

def RolesDistinct (t : Table) : Prop :=
  ∀ k k' d d' role, t.get k = some d → t.get k' = some d' →
    d.get "role" = some role → d'.get "role" = some role → k = k'

/-- Requests are answered 409 exactly when their role is stored already, and at
no time do two stored positions share a role. -/
structure RolesKept (history : List Vacancy) : Prop where
  refused : ∀ pre v post, history = pre ++ v :: post →
    (statusAfter dash s pre v = some 409 ↔ RoleStored (reached dash s pre).positions v.role)
  distinct : ∀ pre, pre <+: history → RolesDistinct (reached dash s pre).positions

variable {dash s}

lemma reached_concat (history : List Vacancy) (v : Vacancy) :
    reached dash s (history ++ [v]) = (respond dash (reached dash s history) v.entry).2 := by
  rw [reached, List.map_append, List.map_cons, List.map_nil, after_concat]
  rfl

lemma positionOutcome_status (body : Body) (r : WriteResult) :
    (positionOutcome body r).status ≠ some 409 := by
  unfold positionOutcome
  cases official.object [("role", body.field "role")] with
  | error e => simp [status_rejected]
  | ok predicate => simp [status_answered]

/-- The comparison after the insert refuses nobody. -/
theorem never_refused (pre : List Vacancy) (v : Vacancy) : statusAfter dash s pre v ≠ some 409 := by
  rw [statusAfter, respond, Vacancy.entry, run_position]
  split_ifs
  · exact positionOutcome_status _ _
  · simp [status_rejected]
  · simp [status_rejected]

lemma respond_positions (dash : Driver) (s : Store) (v : Vacancy) :
    (respond dash s v.entry).2.positions = s.positions ∨
      (respond dash s v.entry).2.positions = (s.positions.insert v.ids (.object v.doc)).1 := by
  rw [respond, Vacancy.entry, run_position]
  split_ifs
  · exact Or.inr rfl
  · exact Or.inl rfl
  · exact Or.inl rfl

lemma insert_vacancy_get {t : Table} {v : Vacancy} {k : Json} {d : Doc}
    (h : (t.insert v.ids (.object v.doc)).1.get k = some d) :
    t.get k = some d ∨ (k = newKey v.ids v.doc ∧ d.get "role" = some v.role) := by
  rcases insert_object_get_iff.mp h with hold | ⟨-, hkey, rfl⟩
  · exact Or.inl hold
  · refine Or.inr ⟨hkey.symm, ?_⟩
    rw [maybeGenerateKey_get _ _ (by decide), v.hasRole]

lemma RolesDistinct.insert {t : Table} {v : Vacancy} (h : RolesDistinct t)
    (hnew : ¬ RoleStored t v.role) :
    RolesDistinct (t.insert v.ids (.object v.doc)).1 := by
  intro k k' d d' role hk hk' hd hd'
  rcases insert_vacancy_get hk with hold | ⟨hkey, hrole⟩ <;>
    rcases insert_vacancy_get hk' with hold' | ⟨hkey', hrole'⟩
  · exact h k k' d d' role hold hold' hd hd'
  · have hsame : role = v.role := Option.some.inj (hd'.symm.trans hrole')
    exact absurd ⟨k, d, hold, hsame ▸ hd⟩ hnew
  · have hsame : role = v.role := Option.some.inj (hd.symm.trans hrole)
    exact absurd ⟨k', d', hold', hsame ▸ hd'⟩ hnew
  · rw [hkey, hkey']

lemma RolesDistinct.respond {s : Store} {v : Vacancy} (h : RolesDistinct s.positions)
    (hnew : ¬ RoleStored s.positions v.role) :
    RolesDistinct (respond dash s v.entry).2.positions := by
  rcases respond_positions dash s v with hsame | hins
  · rw [hsame]
    exact h
  · rw [hins]
    exact h.insert hnew

/-- As long as every request brings a new role the stored roles stay apart. -/
theorem rolesDistinct_reached (hs : RolesDistinct s.positions) {history : List Vacancy}
    (hnew : ∀ pre v post, history = pre ++ v :: post →
      ¬ RoleStored (reached dash s pre).positions v.role) :
    RolesDistinct (reached dash s history).positions := by
  induction history using List.reverseRecOn with
  | nil => exact hs
  | append_singleton history v ih =>
    rw [reached_concat]
    refine RolesDistinct.respond (ih fun pre v' post he => ?_) (hnew history v [] rfl)
    exact hnew pre v' (post ++ [v]) (by simp [he])

/-- A history keeps the roles apart and is refused where it should be, if and
only if none of its requests brings a role that is stored when it arrives. -/
theorem rolesKept_iff (dash : Driver) (s : Store) (hs : RolesDistinct s.positions)
    (history : List Vacancy) :
    RolesKept dash s history ↔
      ∀ pre v post, history = pre ++ v :: post →
      ¬ RoleStored (reached dash s pre).positions v.role := by
  constructor
  · intro h pre v post he hstored
    exact never_refused pre v ((h.refused pre v post he).mpr hstored)
  · intro hnew
    refine ⟨fun pre v post he => ?_, ?_⟩
    · exact iff_of_false (never_refused pre v) (hnew pre v post he)
    · rintro pre ⟨rest, rfl⟩
      exact rolesDistinct_reached hs fun pre' v post he => hnew pre' v (post ++ rest) (by simp [he])

def vacancy (role id : String) : Vacancy :=
  ⟨fun _ => id, Doc.strings [("role", role)], .str role,
    by simp [Doc.get_strings_cons, reqlType], rfl⟩

def managed : Store := reached official .empty [vacancy "manager" "m"]

lemma managed_distinct : RolesDistinct managed.positions := by
  have hids : ∀ d ∈ managed.positions.docs, d.get "id" = some (.str "m") := by decide
  intro k k' d d' role hk hk' _ _
  have hid := (Table.get_id hk).symm.trans (hids d (Table.mem_docs.mpr ⟨k, hk⟩))
  have hid' := (Table.get_id hk').symm.trans (hids d' (Table.mem_docs.mpr ⟨k', hk'⟩))
  exact Option.some.inj (hid.trans hid'.symm)

lemma not_roleStored {t : Table} {role : Json} (h : ∀ d ∈ t.docs, d.get "role" ≠ some role) :
    ¬ RoleStored t role := by
  rintro ⟨k, d, hk, hd⟩
  exact h d (Table.mem_docs.mpr ⟨k, hk⟩) hd

theorem rolesKept_iff_managed :
    RolesKept official managed [vacancy "clerk" "a", vacancy "cook" "b"] := by
  refine (rolesKept_iff official managed managed_distinct _).mpr fun pre v post he => ?_
  rcases pre with _ | ⟨w, _ | ⟨w', pre⟩⟩
  · cases he
    exact not_roleStored (by decide)
  · cases he
    exact not_roleStored (by decide)
  · have hlength := congrArg List.length he
    simp at hlength

/-- The second clerk is accepted and stored beside the first. -/
theorem clerk_stored_twice :
    statusAfter official .empty [vacancy "clerk" "a"] (vacancy "clerk" "b") = some 200 ∧
      RoleStored (reached official .empty [vacancy "clerk" "a"]).positions (.str "clerk") ∧
      ¬ RolesDistinct
        (reached official .empty [vacancy "clerk" "a", vacancy "clerk" "b"]).positions := by
  refine ⟨by decide, ⟨.str "a", maybeGenerateKey "a" (vacancy "clerk" "a").doc, by decide,
    by decide⟩, fun h => ?_⟩
  have hkeys := h (.str "a") (.str "b") (maybeGenerateKey "a" (vacancy "clerk" "a").doc)
    (maybeGenerateKey "b" (vacancy "clerk" "b").doc) (.str "clerk") (by decide) (by decide)
    (by decide) (by decide)
  exact absurd hkeys (by decide)

end PersonnelBackend.PositionRoles
