import PersonnelBackend.DirectRoutes
import PersonnelBackend.DatabaseInsert
import PersonnelBackend.SequentialRuns

/-! Which credentials a login accepts. A registration stores its record before
it looks for the username, and a refused registration leaves its record behind;
a login looks at the stored records only. -/
namespace PersonnelBackend.UserCredentials
open Document Database Express Resumption Router Direct Histories

/-- An object body with a string username and a string password. -/
structure Credentials where
  doc : Doc
  username : String
  password : String
  hasUsername : doc.get "username" = some (.str username)
  hasPassword : doc.get "password" = some (.str password)

inductive Attempt
  | register (ids : ℕ → String) (who : Credentials)
  | login (who : Credentials)

def Attempt.entry : Attempt → Entry
  | .register ids who => ⟨ids, .registerUser (.object who.doc)⟩
  | .login who => ⟨fun _ => "", .loginUser (.object who.doc)⟩

section
variable (dash : Driver) (s : Store)

def users (history : List Attempt) : Store := after dash s (history.map Attempt.entry)

/-- The status of the answer to an attempt made after a history. -/
def answer (history : List Attempt) (a : Attempt) : Option ℕ :=
  (respond dash (users dash s history) a.entry).1.status

/-- Some registration of the history with this pair was answered 200. -/
def Acknowledged (history : List Attempt) (u p : String) : Prop :=
  ∃ pre ids who post, history = pre ++ .register ids who :: post ∧ who.username = u ∧
    who.password = p ∧ answer dash s pre (.register ids who) = some 200

/-- Every login made after the history is answered 200 exactly if its pair was
acknowledged earlier. -/
def Matches (history : List Attempt) : Prop :=
  ∀ who, answer dash s history (.login who) = some 200 ↔
    Acknowledged dash s history who.username who.password

/-- The same at every point of the history. -/
def LoginsMatch (history : List Attempt) : Prop :=
  ∀ pre, pre <+: history → Matches dash s pre

end

def HasPair (t : Table) (u p : String) : Prop :=
  ∃ k d, t.get k = some d ∧ d.get "username" = some (.str u) ∧ d.get "password" = some (.str p)

def named (t : Table) (u : String) : Multiset Doc :=
  t.select fun d => decide (d.get "username" = some (.str u))

/-- The driver can build the body and the server takes it as it is. -/
def Credentials.Taken (dash : Driver) (who : Credentials) : Prop :=
  dash.builds (.obj who.doc.fields) = true ∧ who.doc.plain = true

instance (dash : Driver) (who : Credentials) : Decidable (who.Taken dash) :=
  inferInstanceAs (Decidable (_ ∧ _))

/-- A registration that does what its answer says: it never reaches the table,
or its pair is stored already, or it goes in as the first of its username, or it
is kept out by its key while the username has two records. -/
def Consistent (dash : Driver) (s : Store) (ids : ℕ → String) (who : Credentials) : Prop :=
  ¬ who.Taken dash ∨ HasPair s.user who.username who.password ∨
    (Insertable ids s.user who.doc ∧ Multiset.card (named s.user who.username) = 0) ∨
    (¬ Insertable ids s.user who.doc ∧ 2 ≤ Multiset.card (named s.user who.username))

variable {dash : Driver} {s : Store}

lemma users_concat (history : List Attempt) (a : Attempt) :
    users dash s (history ++ [a]) = (respond dash (users dash s history) a.entry).2 := by
  rw [users, List.map_append]
  exact after_concat _ _ _

/-! ### One login -/

lemma login_status_iff {rows : Multiset Doc} :
    (answered (loginAnswer rows)).status = some 200 ↔ ∃ d, d ∈ rows := by
  rw [status_answered, loginAnswer, ← Multiset.card_pos_iff_exists_mem]
  split_ifs with h <;> simp [h]

theorem login_iff (history : List Attempt) (who : Credentials) :
    answer dash s history (.login who) = some 200 ↔
      HasPair (users dash s history).user who.username who.password := by
  have hplain : ∀ text, (Json.str text).plain = true := fun text =>
    Json.plain_of_isScalar (Json.isScalar_str text)
  have hreply := loginQuery_reply (hplain who.username) (hplain who.password) (users dash s history)
  rw [answer, respond, Attempt.entry, run_login, loginOutcome]
  simp only [Body.field, who.hasUsername, who.hasPassword, Driver.expr_str, hreply, conclude_ok,
    login_status_iff]
  simp only [loginQuery, Query.answer, Table.mem_select, satisfies, Store.table, HasPair]
  constructor
  · rintro ⟨d, ⟨k, hk⟩, hd⟩
    exact ⟨k, d, hk, by simpa using hd⟩
  · rintro ⟨k, d, hk, hd⟩
    exact ⟨d, ⟨k, hk⟩, by simpa using hd⟩

lemma users_login (history : List Attempt) (who : Credentials) :
    users dash s (history ++ [.login who]) = users dash s history := by
  rw [users_concat, respond, Attempt.entry, run_login]

/-! ### One registration -/

lemma filter_username (t : Store) (u : String) :
    (Query.filter .user (.cons "username" (.str u) .nil)).answer t = named t.user u := by
  refine Multiset.filter_congr fun d _ => ?_
  rw [decide_eq_true_eq, Fields.matches_one rfl]
  rfl

def stored (t : Table) (ids : ℕ → String) (who : Credentials) : Table :=
  (t.insert ids (.object who.doc)).1

lemma users_register (history : List Attempt) (ids : ℕ → String) (who : Credentials) :
    (users dash s (history ++ [.register ids who])).user =
      if who.Taken dash then stored (users dash s history).user ids who
      else (users dash s history).user := by
  rw [users_concat, respond, Attempt.entry, run_register, Body.json, Body.plain_object]
  by_cases ht : who.Taken dash
  · rw [if_pos ht, if_pos ht.1, if_pos ht.2]
    rfl
  · rw [if_neg ht]
    split_ifs with hb hp
    · exact absurd ⟨hb, hp⟩ ht
    · rfl
    · rfl

theorem register_iff (history : List Attempt) (ids : ℕ → String) (who : Credentials) :
    answer dash s history (.register ids who) = some 200 ↔
      who.Taken dash ∧
        Multiset.card (named (stored (users dash s history).user ids who) who.username) ≤ 1 := by
  rw [answer, respond, Attempt.entry, run_register, Body.json, Body.plain_object]
  by_cases ht : who.Taken dash
  · rw [if_pos ht.1, if_pos ht.2, and_iff_right ht]
    simp only [registerOutcome, Body.field, who.hasUsername, Driver.object_str, filter_username,
      status_answered, registerAnswer]
    split_ifs with hcount
    · exact iff_of_false (by simp) (not_le.mpr hcount)
    · exact iff_of_true rfl (not_lt.mp hcount)
  · refine iff_of_false ?_ fun h => ht h.1
    split_ifs with hb hp
    · exact absurd ⟨hb, hp⟩ ht
    · simp
    · simp

lemma hasPair_stored {t : Table} {ids : ℕ → String} {who : Credentials} {u p : String} :
    HasPair (stored t ids who) u p ↔
      HasPair t u p ∨ (Insertable ids t who.doc ∧ who.username = u ∧ who.password = p) := by
  have hname : (maybeGenerateKey (ids 0) who.doc).get "username" = some (.str who.username) :=
    (maybeGenerateKey_get _ _ (by decide)).trans who.hasUsername
  have hpass : (maybeGenerateKey (ids 0) who.doc).get "password" = some (.str who.password) :=
    (maybeGenerateKey_get _ _ (by decide)).trans who.hasPassword
  constructor
  · rintro ⟨k, d, hk, hu, hp⟩
    rcases insert_object_get_iff.mp hk with hold | ⟨hin, -, rfl⟩
    · exact Or.inl ⟨k, d, hold, hu, hp⟩
    · rw [hname] at hu
      rw [hpass] at hp
      exact Or.inr ⟨hin, by simpa using hu, by simpa using hp⟩
  · rintro (⟨k, d, hk, hu, hp⟩ | ⟨hin, rfl, rfl⟩)
    · exact ⟨k, d, insert_object_get_iff.mpr (Or.inl hk), hu, hp⟩
    · exact ⟨_, _, insert_object_get_iff.mpr (Or.inr ⟨hin, rfl, rfl⟩), hname, hpass⟩

lemma card_named_stored {t : Table} {ids : ℕ → String} {who : Credentials} :
    Multiset.card (named (stored t ids who) who.username) =
      Multiset.card (named t who.username) + if Insertable ids t who.doc then 1 else 0 := by
  by_cases hin : Insertable ids t who.doc
  · have hstored : stored t ids who = t.put (newRow ids who.doc hin.1) := insert_of_insertable hin
    have hname : (newRow ids who.doc hin.1).doc.get "username" = some (.str who.username) :=
      (maybeGenerateKey_get _ _ (by decide)).trans who.hasUsername
    rw [hstored, named, Table.select_put_of_none hin.2, if_pos (by simpa using hname),
      Multiset.card_cons, if_pos hin]
    rfl
  · rw [stored, insert_of_not_insertable hin, if_neg hin, add_zero]

/-! ### Histories -/

lemma acknowledged_concat {history : List Attempt} {a : Attempt} {u p : String} :
    Acknowledged dash s (history ++ [a]) u p ↔
      Acknowledged dash s history u p ∨ ∃ ids who, a = .register ids who ∧ who.username = u ∧
        who.password = p ∧ answer dash s history a = some 200 := by
  constructor
  · rintro ⟨pre, ids, who, post, hsplit, hu, hp, h200⟩
    rcases concat_eq_split.mp hsplit with ⟨rfl, rfl, -⟩ | ⟨post', -, hhistory⟩
    · exact Or.inr ⟨ids, who, rfl, hu, hp, h200⟩
    · exact Or.inl ⟨pre, ids, who, post', hhistory, hu, hp, h200⟩
  · rintro (⟨pre, ids, who, post, rfl, hu, hp, h200⟩ | ⟨ids, who, rfl, hu, hp, h200⟩)
    · exact ⟨pre, ids, who, post ++ [a], by simp, hu, hp, h200⟩
    · exact ⟨history, ids, who, [], rfl, hu, hp, h200⟩

lemma loginsMatch_concat {history : List Attempt} {a : Attempt} :
    LoginsMatch dash s (history ++ [a]) ↔
      LoginsMatch dash s history ∧ Matches dash s (history ++ [a]) := by
  constructor
  · intro h
    exact ⟨fun pre hpre => h pre (hpre.trans (List.prefix_append _ _)), h _ (List.prefix_refl _)⟩
  · rintro ⟨hhistory, hlast⟩ pre hpre
    rcases List.prefix_concat_iff.mp hpre with rfl | hpre
    · exact hlast
    · exact hhistory pre hpre

lemma matches_login {history : List Attempt} (h : Matches dash s history) (who : Credentials) :
    Matches dash s (history ++ [.login who]) := by
  intro other
  rw [login_iff, users_login, ← login_iff, h other, acknowledged_concat]
  simp

lemma register_effect {history : List Attempt} (h : Matches dash s history) (ids : ℕ → String)
    {who : Credentials} (ht : who.Taken dash) (w : Credentials) :
    (answer dash s (history ++ [.register ids who]) (.login w) = some 200 ↔
      HasPair (users dash s history).user w.username w.password ∨
        (Insertable ids (users dash s history).user who.doc ∧ who.username = w.username ∧
          who.password = w.password)) ∧
    (Acknowledged dash s (history ++ [.register ids who]) w.username w.password ↔
      HasPair (users dash s history).user w.username w.password ∨
        (who.username = w.username ∧ who.password = w.password ∧
          Multiset.card (named (users dash s history).user who.username) +
            (if Insertable ids (users dash s history).user who.doc then 1 else 0) ≤ 1)) := by
  constructor
  · rw [login_iff, users_register, if_pos ht, hasPair_stored]
  · rw [acknowledged_concat, ← h w, login_iff]
    refine or_congr_right ?_
    constructor
    · rintro ⟨ids', who', he, hu, hp, h200⟩
      cases he
      rw [register_iff, card_named_stored] at h200
      exact ⟨hu, hp, h200.2⟩
    · rintro ⟨hu, hp, hcount⟩
      refine ⟨ids, who, rfl, hu, hp, ?_⟩
      rw [register_iff, card_named_stored]
      exact ⟨ht, hcount⟩

lemma consistent_of_matches {history : List Attempt} (h : Matches dash s history) (ids : ℕ → String)
    (who : Credentials) (ht : who.Taken dash)
    (hm : Matches dash s (history ++ [.register ids who])) :
    Consistent dash (users dash s history) ids who := by
  obtain ⟨hlogin, hack⟩ := register_effect h ids ht who
  have hiff := hlogin.symm.trans ((hm who).trans hack)
  by_cases hpair : HasPair (users dash s history).user who.username who.password
  · exact Or.inr (Or.inl hpair)
  · by_cases hin : Insertable ids (users dash s history).user who.doc
    · have hcount := hiff.mp (Or.inr ⟨hin, rfl, rfl⟩)
      simp only [hpair, hin, if_true, true_and, false_or] at hcount
      exact Or.inr (Or.inr (Or.inl ⟨hin, by omega⟩))
    · have hcount : ¬ Multiset.card (named (users dash s history).user who.username) ≤ 1 := by
        intro hle
        have hlogin := hiff.mpr (Or.inr ⟨rfl, rfl, by simpa [hin] using hle⟩)
        simp [hpair, hin] at hlogin
      exact Or.inr (Or.inr (Or.inr ⟨hin, by omega⟩))

lemma matches_of_consistent {history : List Attempt} (h : Matches dash s history) (ids : ℕ → String)
    (who : Credentials) (ht : who.Taken dash)
    (hc : Consistent dash (users dash s history) ids who) :
    Matches dash s (history ++ [.register ids who]) := by
  intro w
  obtain ⟨hlogin, hack⟩ := register_effect h ids ht w
  rw [hlogin, hack]
  refine or_congr_right' fun hpair => ?_
  rcases hc with ht' | hpair' | ⟨hin, hzero⟩ | ⟨hout, htwo⟩
  · exact absurd ht ht'
  · have hne : ¬ (who.username = w.username ∧ who.password = w.password) := by
      rintro ⟨hu, hp⟩
      exact hpair (hu ▸ hp ▸ hpair')
    exact iff_of_false (fun hh => hne hh.2) fun hh => hne ⟨hh.1, hh.2.1⟩
  · have hcount : Multiset.card (named (users dash s history).user who.username) + 1 ≤ 1 := by omega
    simp [hin, hcount]
  · have hcount : ¬ Multiset.card (named (users dash s history).user who.username) ≤ 1 := by omega
    simp [hout, hcount]

/-- After a history whose logins match, they still match after a registration
exactly if the registration is consistent. -/
theorem matches_register_iff {history : List Attempt} (h : Matches dash s history)
    (ids : ℕ → String) (who : Credentials) :
    Matches dash s (history ++ [.register ids who]) ↔
      Consistent dash (users dash s history) ids who := by
  by_cases ht : who.Taken dash
  · exact ⟨consistent_of_matches h ids who ht, matches_of_consistent h ids who ht⟩
  · refine iff_of_true (fun w => ?_) (Or.inl ht)
    rw [login_iff, users_register, acknowledged_concat, ← h w, login_iff]
    simp [register_iff, ht]

lemma matches_nil (hs : s.user = .empty) : Matches dash s [] := by
  intro who
  rw [login_iff]
  refine iff_of_false ?_ ?_
  · rintro ⟨k, d, hk, -⟩
    change s.user.get k = some d at hk
    rw [hs, Table.get_empty] at hk
    cases hk
  · rintro ⟨pre, ids, w, post, hsplit, -⟩
    simp at hsplit

def pair (username password : String) : Credentials where
  doc := Doc.strings [("username", username), ("password", password)]
  username := username
  password := password
  hasUsername := by simp [Doc.get_strings_cons, reqlType]
  hasPassword := by simp [Doc.get_strings_cons, reqlType]

/-- Two users register, one logs in, and registers again with the same password. -/
def regulars : List Attempt :=
  [.register (fun _ => "a") (pair "ann" "one"), .register (fun _ => "b") (pair "bob" "two"),
    .login (pair "ann" "one"), .register (fun _ => "c") (pair "ann" "one")]

/-- Two registrations under one name with different passwords. -/
def rivals : List Attempt :=
  [.register (fun _ => "a") (pair "ann" "one"), .register (fun _ => "b") (pair "ann" "two")]

end PersonnelBackend.UserCredentials
