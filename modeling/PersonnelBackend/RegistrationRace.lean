import PersonnelBackend.DirectRoutes
import PersonnelBackend.GuardedRuns

/-! Concurrent registrations under one new username. Each one stores its record
and then counts the records of the username, so the count of a request also sees
the records of requests that will be refused. -/
namespace PersonnelBackend.RegistrationRace
open Document Database Express Resumption Router Direct Guarded

variable {ι : Type} {u : String}

/-- An object body with the string username `u` and without an identifier. -/
structure Signup (u : String) where
  doc : Doc
  hasUsername : doc.get "username" = some (.str u)
  noId : doc.get "id" = none

/-- The driver can build the body and the server takes it as it is. -/
def Signup.Taken (dash : Driver) (w : Signup u) : Prop :=
  dash.builds (.obj w.doc.fields) = true ∧ w.doc.plain = true

instance (dash : Driver) (w : Signup u) : Decidable (w.Taken dash) :=
  inferInstanceAs (Decidable (_ ∧ _))

/-- The identifiers the server generates are usable, new and differ from each other. -/
structure Fresh (uuid : ι → ℕ → String) (t : Table) : Prop where
  distinct : ∀ i j, i ≠ j → uuid i 0 ≠ uuid j 0
  unused : ∀ i, t.get (.str (uuid i 0)) = none
  usable : ∀ i, isPrimary (.str (uuid i 0)) = true

def Unknown (t : Table) (u : String) : Prop :=
  ∀ k d, t.get k = some d → d.get "username" ≠ some (.str u)

def signups (dash : Driver) (s : Store) (who : ι → Signup u) : RequestPool ι :=
  launch dash s fun i => .registerUser (.object (who i).doc)

def statusOf (c : RequestPool ι) (i : ι) : Option ℕ := (c.result i).bind Outcome.status

/-- One request is answered 200 and all the others 409. -/
def OneAccepted (c : RequestPool ι) : Prop :=
  ∃ i, statusOf c i = some 200 ∧ ∀ j, j ≠ i → statusOf c j = some 409

/-! ### The steps of a registration -/

/-- The query of a registration once its record has been sent. -/
def usernameQuery (u : String) : Query := .filter .user (.cons "username" (.str u) .nil)

/-- The count of the username, with the result of the insert to send. -/
def counting (u : String) (r : WriteResult) : Process :=
  .call (.read (usernameQuery u)) fun reply =>
    .pure (conclude reply fun rows => answered (registerAnswer (Multiset.card rows) r))

def connecting (u : String) (r : WriteResult) : Process := .call .connect fun _ => counting u r

def inserting (u : String) (d : Doc) : Process :=
  .call (.write (.insert .user (.object d))) fun reply => resume reply fun r => connecting u r

lemma process_signup {dash : Driver} (who : Signup u)
    (hb : dash.builds (.obj who.doc.fields) = true) :
    process dash (.registerUser (.object who.doc)) = inserting u who.doc := by
  rw [process_register, Body.json, if_pos hb]
  simp only [Body.field, who.hasUsername, Driver.object_str]
  rfl

lemma process_unbuilt {dash : Driver} (who : Signup u)
    (hb : dash.builds (.obj who.doc.fields) ≠ true) :
    process dash (.registerUser (.object who.doc)) = .pure (rejected .unencodable) := by
  rw [process_register, Body.json, if_neg hb]

def Stored (uuid : ι → ℕ → String) (who : ι → Signup u) (t : Table) (i : ι) : Prop :=
  t.get (.str (uuid i 0)) = some (maybeGenerateKey (uuid i 0) (who i).doc)

/-- Where a registration without an answer stands, with what the table holds of it. -/
inductive Standing (uuid : ι → ℕ → String) (who : ι → Signup u) (t : Table) (i : ι) : Process → Prop
  | waiting (ha : Admitted (uuid i) (who i).doc) (hfree : t.get (.str (uuid i 0)) = none) :
    Standing uuid who t i (inserting u (who i).doc)
  | connecting (r : WriteResult) (h : Stored uuid who t i) : Standing uuid who t i (connecting u r)
  | counting (r : WriteResult) (h : Stored uuid who t i) : Standing uuid who t i (counting u r)

section
variable {uuid : ι → ℕ → String} {who : ι → Signup u} {t t' : Table} {i j : ι}

lemma Standing.mono {p : Process} (h : Standing uuid who t i p)
    (hstored : Stored uuid who t i → Stored uuid who t' i)
    (hfree : t.get (.str (uuid i 0)) = none → t'.get (.str (uuid i 0)) = none) :
    Standing uuid who t' i p := by
  cases h with
  | waiting ha h => exact .waiting ha (hfree h)
  | connecting r h => exact .connecting r (hstored h)
  | counting r h => exact .counting r (hstored h)

lemma Standing.statusOf {c : RequestPool ι} (h : Standing uuid who t i (c.progs i)) :
    statusOf c i = none := by
  rw [RegistrationRace.statusOf, Pool.result]
  generalize c.progs i = p at h
  cases h <;> rfl

/-- The request stands at its insert or has ended without an answer. -/
def Doomed (who : ι → Signup u) (i : ι) (c : RequestPool ι) : Prop :=
  c.progs i = inserting u (who i).doc ∨ ∃ e, c.progs i = .pure (rejected e)

lemma Doomed.statusOf {c : RequestPool ι} (h : Doomed who i c) : statusOf c i = none := by
  rw [RegistrationRace.statusOf, Pool.result]
  rcases h with h | ⟨e, h⟩
  · rw [h]
    rfl
  · rw [h]
    rfl

lemma Standing.free (h : Standing uuid who t i (inserting u (who i).doc)) :
    Admitted (uuid i) (who i).doc ∧ t.get (.str (uuid i 0)) = none := by
  generalize hp : inserting u (who i).doc = p at h
  cases h with
  | waiting ha hfree => exact ⟨ha, hfree⟩
  | connecting r h => cases hp
  | counting r h => cases hp

lemma newKey_signup (ids : ℕ → String) (w : Signup u) : newKey ids w.doc = .str (ids 0) := by
  rw [newKey, w.noId, Option.getD_none]

lemma admitted_signup {ids : ℕ → String} (w : Signup u) (hplain : w.doc.plain = true)
    (hid : isPrimary (.str (ids 0)) = true) : Admitted ids w.doc := by
  refine ⟨hplain, ?_⟩
  rw [newKey_signup]
  exact hid

lemma insertable_signup {ids : ℕ → String} {w : Signup u} (ha : Admitted ids w.doc)
    (h : t.get (.str (ids 0)) = none) : Insertable ids t w.doc := by
  refine ⟨ha, ?_⟩
  rw [newKey_signup]
  exact h

lemma insert_signup_get {ids : ℕ → String} {w : Signup u} (ha : Admitted ids w.doc)
    (h : t.get (.str (ids 0)) = none) (k : Json) :
    (t.insert ids (.object w.doc)).1.get k =
      if k = .str (ids 0) then some (maybeGenerateKey (ids 0) w.doc) else t.get k := by
  rw [insert_of_insertable (insertable_signup ha h), Table.get_put]
  simp only [newRow, newKey_signup]

lemma signup_username (ids : ℕ → String) (w : Signup u) :
    (maybeGenerateKey (ids 0) w.doc).get "username" = some (.str u) :=
  (maybeGenerateKey_get _ _ (by decide)).trans w.hasUsername

lemma two_stored_refused {s : Store} (hij : uuid i 0 ≠ uuid j 0) (hi : Stored uuid who s.user i)
    (hj : Stored uuid who s.user j) (r : WriteResult) :
    (registerAnswer (Multiset.card ((usernameQuery u).answer s)) r).status = 409 := by
  set rows := (usernameQuery u).answer s with hrows
  have hmem : ∀ l, Stored uuid who s.user l → maybeGenerateKey (uuid l 0) (who l).doc ∈ rows := by
    intro l hl
    exact Table.mem_select.mpr ⟨⟨_, hl⟩,
      (Fields.matches_one rfl).mpr (signup_username (uuid l) (who l))⟩
  have hne : maybeGenerateKey (uuid i 0) (who i).doc ≠ maybeGenerateKey (uuid j 0) (who j).doc := by
    intro he
    have hid := congrArg (fun d : Doc => d.get "id") he
    simp only [Table.get_id hi, Table.get_id hj, Option.some.injEq, Json.str.injEq] at hid
    exact hij hid
  have hsub : {maybeGenerateKey (uuid i 0) (who i).doc,
      maybeGenerateKey (uuid j 0) (who j).doc} ⊆ rows := by
    intro d hd
    simp only [Multiset.insert_eq_cons, Multiset.mem_cons, Multiset.mem_singleton] at hd
    rcases hd with rfl | rfl
    · exact hmem i hi
    · exact hmem j hj
  have hpair : ({maybeGenerateKey (uuid i 0) (who i).doc, maybeGenerateKey (uuid j 0) (who j).doc} :
      Multiset Doc).Nodup := by simpa using hne
  have hcard := Multiset.card_le_card ((Multiset.le_iff_subset hpair).mpr hsub)
  simp only [Multiset.insert_eq_cons, Multiset.card_cons, Multiset.card_singleton] at hcard
  rw [registerAnswer, if_pos (by omega)]

lemma insert_frame (who : ι → Signup u) (hdistinct : ∀ i j, i ≠ j → uuid i 0 ≠ uuid j 0)
    (ha : Admitted (uuid j) (who j).doc) (hfree : t.get (.str (uuid j 0)) = none) :
    let t' := (t.insert (uuid j) (.object (who j).doc)).1
    Stored uuid who t' j ∧ (∀ i, Stored uuid who t i → Stored uuid who t' i) ∧
      ∀ i, i ≠ j → t.get (.str (uuid i 0)) = none → t'.get (.str (uuid i 0)) = none := by
  intro t'
  have hget := insert_signup_get ha hfree
  refine ⟨?_, fun i hi => Table.insert_get_some hi _ _, fun i hij hi => ?_⟩
  · rw [Stored, hget, if_pos rfl]
  · rw [hget, if_neg, hi]
    intro he
    exact hdistinct i j hij (Json.str.inj he)

/-- Nobody has been answered yet. -/
def AllStanding (uuid : ι → ℕ → String) (who : ι → Signup u) (c : RequestPool ι) : Prop :=
  ∀ i, Standing uuid who c.store.user i (c.progs i)

lemma start_standing {dash : Driver} {s : Store} (hfresh : Fresh uuid s.user)
    (htaken : ∀ i, (who i).Taken dash) : AllStanding uuid who (signups dash s who) := by
  intro i
  have hp : (signups dash s who).progs i = inserting u (who i).doc :=
    process_signup (who i) (htaken i).1
  rw [hp]
  exact .waiting (admitted_signup (who i) (htaken i).2 (hfresh.usable i)) (hfresh.unused i)

end

/-! ### What decides the answers -/

/-- The answers are settled: the winner, if there is one, has been answered 200,
and everybody else has been answered 409 or will count a record of another. -/
structure Decided [DecidableEq ι] (uuid : ι → ℕ → String) (who : ι → Signup u) (winner : Option ι)
    (c : RequestPool ι) : Prop where
  standing : ∀ i, (∃ a : Answer, c.progs i = .pure (answered a) ∧
      a.status = if winner = some i then 200 else 409) ∨
    (winner ≠ some i ∧ Standing uuid who c.store.user i (c.progs i))
  rival : ∀ i, winner ≠ some i → ∃ j, j ≠ i ∧ Stored uuid who c.store.user j

variable [DecidableEq ι] {uuid : ι → ℕ → String} {who : ι → Signup u} {c c' : RequestPool ι}
  {winner : Option ι}

lemma Decided.of_step (h : Decided uuid who winner c) {j : ι}
    (hprogs : ∀ i, i ≠ j → c'.progs i = c.progs i)
    (hstored : ∀ i, Stored uuid who c.store.user i → Stored uuid who c'.store.user i)
    (hfree : ∀ i, i ≠ j → c.store.user.get (.str (uuid i 0)) = none →
      c'.store.user.get (.str (uuid i 0)) = none)
    (hj : (∃ a : Answer, c'.progs j = .pure (answered a) ∧
        a.status = if winner = some j then 200 else 409) ∨
      (winner ≠ some j ∧ Standing uuid who c'.store.user j (c'.progs j))) :
    Decided uuid who winner c' := by
  -- a step of `j` that loses no record and takes no key of another keeps the answers settled
  -- if it leaves `j` well off
  refine ⟨fun i => ?_, fun i hi => ?_⟩
  · by_cases hij : i = j
    · subst hij
      exact hj
    · rw [hprogs i hij]
      rcases h.standing i with hans | ⟨hne, hstand⟩
      · exact Or.inl hans
      · exact Or.inr ⟨hne, hstand.mono (hstored i) (hfree i hij)⟩
  · obtain ⟨k, hk, hkstored⟩ := h.rival i hi
    exact ⟨k, hk, hstored k hkstored⟩

lemma Decided.of_read (h : Decided uuid who winner c) {j : ι}
    (hprogs : ∀ i, i ≠ j → c'.progs i = c.progs i) (hstore : c'.store = c.store)
    (hj : (∃ a : Answer, c'.progs j = .pure (answered a) ∧
        a.status = if winner = some j then 200 else 409) ∨
      (winner ≠ some j ∧ Standing uuid who c.store.user j (c'.progs j))) :
    Decided uuid who winner c' := by
  rw [← hstore] at hj
  refine h.of_step hprogs (fun i hi => ?_) (fun i _ hi => ?_) hj
  · rw [hstore]
    exact hi
  · rw [hstore]
    exact hi

lemma step_insert (uuid : ι → ℕ → String) {j : ι} (hplain : (who j).doc.plain = true)
    (hp : c.progs j = inserting u (who j).doc) :
    c.step (servers uuid) j =
      ⟨c.store.setTable .user (c.store.user.insert (uuid j) (.object (who j).doc)).1,
        Function.update c.progs j
          (connecting u (c.store.user.insert (uuid j) (.object (who j).doc)).2)⟩ := by
  rw [Pool.step_call hp]
  simp only [servers, serve, Mutation.table, onTable_insert (.object (who j).doc) hplain, resume_ok]
  rfl

lemma step_insert_refused (uuid : ι → ℕ → String) {j : ι} (hplain : (who j).doc.plain ≠ true)
    (hp : c.progs j = inserting u (who j).doc) :
    (c.step (servers uuid) j).progs j =
      .pure (rejected (.server (.pseudotype (.obj (who j).doc.fields)))) := by
  rw [Pool.step_call hp]
  simp only [servers, serve, Mutation.table, onTable_insert_refused (.object (who j).doc) hplain,
    resume_error, Function.update_self]
  rfl

lemma step_connect (uuid : ι → ℕ → String) {j : ι} {r : WriteResult}
    (hp : c.progs j = connecting u r) :
    c.step (servers uuid) j = ⟨c.store, Function.update c.progs j (counting u r)⟩ :=
  Pool.step_call hp

lemma step_count (uuid : ι → ℕ → String) {j : ι} {r : WriteResult} (hp : c.progs j = counting u r) :
    c.step (servers uuid) j = ⟨c.store, Function.update c.progs j
      (.pure (answered (registerAnswer (Multiset.card ((usernameQuery u).answer c.store))
        r)))⟩ := by
  have hplain : (Fields.cons "username" (.str u) .nil).plain = true :=
    Fields.plain_cons.mpr ⟨by decide, rfl, rfl⟩
  rw [Pool.step_call hp]
  simp only [servers, serve_read, usernameQuery, Query.reply_filter hplain, conclude_ok]

theorem Decided.step (hdistinct : ∀ i j, i ≠ j → uuid i 0 ≠ uuid j 0)
    (h : Decided uuid who winner c) (j : ι) :
    Decided uuid who winner (c.step (servers uuid) j) := by
  have hother : ∀ i, i ≠ j → (c.step (servers uuid) j).progs i = c.progs i :=
    fun i hij => Pool.step_progs_ne hij
  rcases h.standing j with ⟨a, ha, -⟩ | ⟨hne, hstand⟩
  · rw [Pool.step_pure ha]
    exact h
  · generalize hp : c.progs j = p at hstand
    cases hstand with
    | waiting ha hfree =>
      have hstep := step_insert uuid ha.1 hp
      obtain ⟨hstored, hkept, hfrees⟩ := insert_frame who hdistinct ha hfree
      refine h.of_step hother ?_ ?_ (Or.inr ⟨hne, ?_⟩)
      · rw [hstep]
        exact hkept
      · rw [hstep]
        exact hfrees
      · rw [hstep]
        simp only [Function.update_self]
        exact .connecting _ hstored
    | connecting r hstored =>
      have hstep := step_connect uuid hp
      refine h.of_read hother (by rw [hstep]) (Or.inr ⟨hne, ?_⟩)
      rw [hstep]
      simp only [Function.update_self]
      exact .counting r hstored
    | counting r hstored =>
      have hstep := step_count uuid hp
      obtain ⟨k, hk, hkstored⟩ := h.rival j hne
      refine h.of_read hother (by rw [hstep]) (Or.inl
        ⟨registerAnswer (Multiset.card ((usernameQuery u).answer c.store)) r, ?_, ?_⟩)
      · rw [hstep]
        simp only [Function.update_self]
      · rw [if_neg hne]
        exact two_stored_refused (hdistinct k j hk) hkstored hstored r

lemma Decided.status (h : Decided uuid who winner c) {i : ι} (hans : statusOf c i ≠ none) :
    statusOf c i = some (if winner = some i then 200 else 409) := by
  rcases h.standing i with ⟨a, ha, hstatus⟩ | ⟨-, hstand⟩
  · rw [statusOf, Pool.result, ha, ← hstatus]
    rfl
  · exact absurd hstand.statusOf hans

/-! ### The first steps -/

lemma AllStanding.insert (hdistinct : ∀ i j, i ≠ j → uuid i 0 ≠ uuid j 0)
    (h : AllStanding uuid who c) {j : ι} (hp : c.progs j = inserting u (who j).doc) :
    AllStanding uuid who (c.step (servers uuid) j) ∧
      Stored uuid who (c.step (servers uuid) j).store.user j ∧
      ∀ i, Stored uuid who c.store.user i →
      Stored uuid who (c.step (servers uuid) j).store.user i := by
  obtain ⟨ha, hfree⟩ := Standing.free (hp ▸ h j)
  obtain ⟨hstored, hkept, hfrees⟩ := insert_frame who hdistinct ha hfree
  rw [step_insert uuid ha.1 hp]
  refine ⟨fun i => ?_, hstored, hkept⟩
  by_cases hij : i = j
  · subst hij
    simp only [Function.update_self]
    exact .connecting _ hstored
  · simp only [Function.update_of_ne hij]
    exact (h i).mono (hkept i) (hfrees i hij)

lemma AllStanding.connect (h : AllStanding uuid who c) {j : ι} {r : WriteResult}
    (hp : c.progs j = connecting u r) (hstored : Stored uuid who c.store.user j) :
    AllStanding uuid who (c.step (servers uuid) j) := by
  rw [step_connect uuid hp]
  intro i
  by_cases hij : i = j
  · subst hij
    simp only [Function.update_self]
    exact .counting r hstored
  · simp only [Function.update_of_ne hij]
    exact h i

lemma AllStanding.crowded (hdistinct : ∀ i j, i ≠ j → uuid i 0 ≠ uuid j 0)
    (h : AllStanding uuid who c) {i j : ι} (hij : i ≠ j) (hi : Stored uuid who c.store.user i)
    (hp : c.progs j = inserting u (who j).doc) :
    Decided uuid who none (c.step (servers uuid) j) := by
  -- once a second record goes in before anybody has been answered, nobody will be answered
  -- 200
  obtain ⟨hstanding, hj, hkept⟩ := h.insert hdistinct hp
  refine ⟨fun l => Or.inr ⟨by simp, hstanding l⟩, fun l _ => ?_⟩
  by_cases hl : i = l
  · exact ⟨j, fun he => hij (hl.trans he.symm), hj⟩
  · exact ⟨i, hl, hkept i hi⟩

/-- Only request `i` has moved: its record is stored and it goes on with `p`. -/
structure Opening (uuid : ι → ℕ → String) (who : ι → Signup u) (s : Store) (i : ι)
    (p : Process) (c : RequestPool ι) : Prop where
  standing : AllStanding uuid who c
  own : c.progs i = p
  others : ∀ j, j ≠ i → c.progs j = inserting u (who j).doc
  stored : Stored uuid who c.store.user i
  store : c.store = s.setTable .user (s.user.insert (uuid i) (.object (who i).doc)).1

lemma opening_insert {dash : Driver} {s : Store} (hfresh : Fresh uuid s.user)
    (htaken : ∀ i, (who i).Taken dash) (i : ι) :
    Opening uuid who s i (connecting u (s.user.insert (uuid i) (.object (who i).doc)).2)
      ((signups dash s who).step (servers uuid) i) := by
  have hp : ∀ j, (signups dash s who).progs j = inserting u (who j).doc :=
    fun j => process_signup (who j) (htaken j).1
  obtain ⟨hstanding, hstored, -⟩ := (start_standing hfresh htaken).insert hfresh.distinct (hp i)
  refine ⟨hstanding, ?_, fun j hj => ?_, hstored, ?_⟩
  · rw [step_insert uuid (htaken i).2 (hp i)]
    exact Function.update_self _ _ _
  · rw [Pool.step_progs_ne hj, hp j]
  · rw [step_insert uuid (htaken i).2 (hp i)]
    rfl

lemma Opening.connect {s : Store} {i : ι} {r : WriteResult}
    (h : Opening uuid who s i (connecting u r) c) :
    Opening uuid who s i (counting u r) (c.step (servers uuid) i) := by
  have hstep := step_connect uuid h.own
  refine ⟨h.standing.connect h.own h.stored, ?_, fun j hj => ?_, ?_, ?_⟩
  · rw [hstep]
    exact Function.update_self _ _ _
  · rw [Pool.step_progs_ne hj, h.others j hj]
  · rw [hstep]
    exact h.stored
  · rw [hstep]
    exact h.store

lemma first_count {s : Store} {ids : ℕ → String} {w : Signup u} (hnone : Unknown s.user u)
    (ha : Admitted ids w.doc) (hfree : s.user.get (.str (ids 0)) = none) :
    Multiset.card ((usernameQuery u).answer
      (s.setTable .user (s.user.insert ids (.object w.doc)).1)) = 1 := by
  have hzero : (usernameQuery u).answer s = 0 := by
    refine Multiset.eq_zero_of_forall_notMem fun d hd => ?_
    obtain ⟨⟨k, hk⟩, hmatch⟩ := Table.mem_select.mp hd
    exact hnone k d hk ((Fields.matches_one rfl).mp hmatch)
  have hrows := register_rows w.hasUsername (insertable_signup ha hfree)
  rw [usernameQuery] at hzero ⊢
  rw [hrows, hzero, Multiset.card_cons, Multiset.card_zero]

lemma Opening.wins {s : Store} {i : ι} {r : WriteResult}
    (h : Opening uuid who s i (counting u r) c) (hnone : Unknown s.user u)
    (hfresh : Fresh uuid s.user) (hplain : (who i).doc.plain = true) :
    Decided uuid who (some i) (c.step (servers uuid) i) := by
  rw [step_count uuid h.own]
  refine ⟨fun j => ?_, fun j hj => ⟨i, fun he => hj (by rw [he]), h.stored⟩⟩
  by_cases hji : j = i
  · subst hji
    refine Or.inl ⟨_, Function.update_self _ _ _, ?_⟩
    have hadmitted := admitted_signup (who j) hplain (hfresh.usable j)
    rw [h.store, first_count hnone hadmitted (hfresh.unused j), if_pos rfl, registerAnswer,
      if_neg (by omega)]
  · refine Or.inr ⟨fun he => hji (Option.some.inj he).symm, ?_⟩
    simp only [Function.update_of_ne hji]
    exact h.standing j

/-! ### Whole runs -/

theorem Decided.exec (hdistinct : ∀ i j, i ≠ j → uuid i 0 ≠ uuid j 0)
    (h : Decided uuid who winner c) (schedule : List ι) :
    Decided uuid who winner (c.exec (servers uuid) schedule) :=
  Pool.exec_invariant (fun _ j hc => hc.step hdistinct j) h schedule

lemma Decided.not_oneAccepted (hdistinct : ∀ i j, i ≠ j → uuid i 0 ≠ uuid j 0)
    (h : Decided uuid who none c) (schedule : List ι) :
    ¬ OneAccepted (c.exec (servers uuid) schedule) := by
  rintro ⟨i, hi, -⟩
  have hans : statusOf (c.exec (servers uuid) schedule) i ≠ none := by simp [hi]
  have hstatus := (h.exec hdistinct schedule).status hans
  rw [hi] at hstatus
  simp at hstatus

lemma OneAccepted.answered (h : OneAccepted c) (i : ι) : statusOf c i ≠ none := by
  obtain ⟨w, hw, hothers⟩ := h
  by_cases hi : i = w
  · simp [hi, hw]
  · simp [hothers i hi]

lemma begins_of_oneAccepted {dash : Driver} {s : Store} (hfresh : Fresh uuid s.user)
    (htaken : ∀ i, (who i).Taken dash) {schedule : List ι}
    (h : OneAccepted ((signups dash s who).exec (servers uuid) schedule)) :
    ∃ i, [i, i, i] <+: schedule := by
  -- a run with a winner begins with three steps of one request
  have hanswered := h.answered
  have hopening := opening_insert hfresh htaken
  match schedule with
  | [] =>
    obtain ⟨w, -⟩ := h
    exact absurd (start_standing hfresh htaken w).statusOf (hanswered w)
  | [i] => exact absurd ((hopening i).standing i).statusOf (hanswered i)
  | [i, j] =>
    by_cases hij : i = j
    · subst hij
      exact absurd ((hopening i).connect.standing i).statusOf (hanswered i)
    · have hcrowded := (hopening i).standing.crowded hfresh.distinct hij (hopening i).stored
        ((hopening i).others j (Ne.symm hij))
      exact absurd h (hcrowded.not_oneAccepted hfresh.distinct [])
  | i :: j :: k :: rest =>
    by_cases hij : i = j
    · subst hij
      by_cases hik : i = k
      · subst hik
        exact ⟨i, rest, rfl⟩
      · have hsecond := (hopening i).connect
        have hcrowded := hsecond.standing.crowded hfresh.distinct hik hsecond.stored
          (hsecond.others k (Ne.symm hik))
        exact absurd h (hcrowded.not_oneAccepted hfresh.distinct rest)
    · have hcrowded := (hopening i).standing.crowded hfresh.distinct hij (hopening i).stored
        ((hopening i).others j (Ne.symm hij))
      exact absurd h (hcrowded.not_oneAccepted hfresh.distinct (k :: rest))

lemma Doomed.step {i : ι} (hplain : (who i).doc.plain ≠ true) (h : Doomed who i c) (j : ι) :
    Doomed who i (c.step (servers uuid) j) := by
  by_cases hij : i = j
  · subst hij
    rcases h with h | ⟨e, h⟩
    · exact Or.inr ⟨_, step_insert_refused uuid hplain h⟩
    · exact Or.inr ⟨e, by rw [Pool.step_pure h, h]⟩
  · rw [Doomed, Pool.step_progs_ne hij]
    exact h

lemma refused_unanswered {dash : Driver} (s : Store) {i : ι} (hplain : (who i).doc.plain ≠ true)
    (hb : dash.builds (.obj (who i).doc.fields) = true) (schedule : List ι) :
    statusOf ((signups dash s who).exec (servers uuid) schedule) i = none := by
  have hstart : Doomed who i (signups dash s who) := Or.inl (process_signup (who i) hb)
  exact (Pool.exec_invariant (fun _ j hc => hc.step hplain j) hstart schedule).statusOf

def anns : Fin 2 → Signup "ann"
  | 0 => ⟨Doc.strings [("username", "ann"), ("password", "one")], by decide, by decide⟩
  | 1 => ⟨Doc.strings [("username", "ann"), ("password", "two")], by decide, by decide⟩

lemma empty_unknown : Unknown Table.empty u := by
  intro k d hd
  rw [Table.get_empty] at hd
  cases hd

lemma postIds_fresh : Fresh postIds Table.empty :=
  ⟨by decide, fun i => Table.get_empty _, by decide⟩

end PersonnelBackend.RegistrationRace
