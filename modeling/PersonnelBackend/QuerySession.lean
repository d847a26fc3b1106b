import PersonnelBackend.DriverConnection

/-! The part of a connection that concerns one token: the driver's entry and
cursor, the messages under way and the entry of the server. Every action on the
connection is an action on the session of each token, or leaves it alone. -/
namespace PersonnelBackend.Connections
open Document Cursors QueryCache

structure Session where
  opened : Bool
  closing : Bool
  client : Client
  toServer : List Query
  entry : Option Entry
  jobs : List Query
  toClient : List Response

/-- The actions as one session sees them. -/
inductive Local
  | next (cb : ℕ)
  | closeCursor
  | chained
  | immediate
  | closing
  | shut
  | arrive
  | finish (interrupted : Bool)
  | deliver

namespace Session

def unborn (opened closing : Bool) : Session := ⟨opened, closing, .unborn, [], none, [], []⟩

def born (closing : Bool) (q : Client) (query : Query) : Session :=
  ⟨true, closing, q, [query], none, [], []⟩

def onClient (s : Session) (f : Client → Client) : Session :=
  { s with client := (f s.client).written, toServer := s.toServer ++ (f s.client).sent }

def reply (query : Query) (response : Option Response) : List Response :=
  if query = .start true then [] else response.toList

variable (plan : Plan) (token : ℕ)

def arrive (s : Session) : Session :=
  match s.toServer with
  | [] => s
  | query :: rest =>
    let a := arrival plan token s.entry query
    { s with
      toServer := rest
      entry := a.1
      jobs := s.jobs ++ if a.2.isSome then [] else [query]
      toClient := s.toClient ++ reply query a.2 }

def finish (s : Session) (interrupted : Bool) : Session :=
  match s.jobs with
  | [] => s
  | query :: rest =>
    match completion plan token interrupted s.entry query with
    | none => s
    | some (entry, response) =>
      { s with
        entry := entry
        jobs := rest
        toClient := s.toClient ++ reply query (some response) }

def deliver (s : Session) : Session :=
  match s.toClient with
  | [] => s
  | response :: rest =>
    if s.opened && s.client.accepts response then
      { s with toClient := rest }.onClient fun q =>
        q.processResponse (s.opened && !s.closing) s.opened response
    else s

def step (s : Session) : Local → Session
  | .next cb => s.onClient (Client.onCursor fun c => c.next (s.opened && !s.closing) cb)
  | .closeCursor => s.onClient (Client.onCursor fun c => c.close s.opened)
  | .chained =>
    s.onClient (Client.onCursor fun c =>
      if c.closeCb && c.closePromise ≠ some .pending then c.runCloseCb .fulfilled else c)
  | .immediate => s.onClient (Client.onCursor Cursor.immediate)
  | .closing => { s with closing := true }
  | .shut => { s with opened := false, closing := false, client := s.client.cancel }
  | .arrive => s.arrive plan token
  | .finish interrupted => s.finish plan token interrupted
  | .deliver => s.deliver

/-- The sessions that can come about; the flag says whether the token has been
given out. -/
inductive Reach : Bool → Session → Prop
  | unborn (opened closing : Bool) : Reach false (unborn opened closing)
  | run (closing noreply : Bool) : Reach true (born closing
      (if noreply then ⟨none, none, [.null]⟩ else ⟨some .callback, none, []⟩) (.start noreply))
  | wait (closing : Bool) : Reach true (born closing ⟨some .callback, none, []⟩ .noreplyWait)
  | step {begun : Bool} {s : Session} (a : Local) : Reach begun s →
    Reach begun (s.step plan token a)

end Session

/-! ### The session of a token -/

namespace System

def ofToken {α : Type} (token : ℕ) (wire : List (ℕ × α)) : List α :=
  (wire.filter fun message => message.1 = token).map Prod.snd

def view (s : System) (token : ℕ) : Session where
  opened := s.opened
  closing := s.closing
  client := s.client token
  toServer := ofToken token s.toServer
  entry := s.queries token
  jobs := ofToken token s.jobs
  toClient := ofToken token s.toClient

section ofToken

variable {α : Type} {token other : ℕ}

@[simp] lemma ofToken_nil : ofToken token ([] : List (ℕ × α)) = [] := rfl

lemma ofToken_append (l l' : List (ℕ × α)) :
    ofToken token (l ++ l') = ofToken token l ++ ofToken token l' := by
  simp [ofToken]

lemma ofToken_cons_same (x : α) (l : List (ℕ × α)) :
    ofToken token ((token, x) :: l) = x :: ofToken token l := by
  simp [ofToken]

lemma ofToken_cons_ne (h : other ≠ token) (x : α) (l : List (ℕ × α)) :
    ofToken token ((other, x) :: l) = ofToken token l := by
  simp [ofToken, h]

lemma ofToken_map_same (l : List α) : ofToken token (l.map (token, ·)) = l := by
  induction l with
  | nil => rfl
  | cons x l ih => rw [List.map_cons, ofToken_cons_same, ih]

lemma ofToken_map_ne (h : other ≠ token) (l : List α) : ofToken token (l.map (other, ·)) = [] := by
  induction l with
  | nil => rfl
  | cons x l ih => rw [List.map_cons, ofToken_cons_ne h, ih]

lemma ofToken_reply_same (query : Query) (response : Option Response) :
    ofToken token (reply token query response) = Session.reply query response := by
  rw [reply, Session.reply]
  split_ifs
  · rfl
  · cases response with
    | none => rfl
    | some r => exact ofToken_cons_same r []

lemma ofToken_reply_ne (h : other ≠ token) (query : Query) (response : Option Response) :
    ofToken token (reply other query response) = [] := by
  rw [reply]
  split_ifs
  · rfl
  · cases response with
    | none => rfl
    | some r => exact ofToken_cons_ne h r []

lemma ofToken_job_same (answered : Bool) (query : Query) :
    ofToken token (if answered then [] else [(token, query)]) =
      if answered then [] else [query] := by
  cases answered with
  | false => exact ofToken_cons_same query []
  | true => rfl

lemma ofToken_job_ne (h : other ≠ token) (answered : Bool) (query : Query) :
    ofToken token (if answered then [] else [(other, query)]) = [] := by
  cases answered with
  | false => exact ofToken_cons_ne h query []
  | true => rfl

lemma ofToken_dropJob_ne (h : other ≠ token) (jobs : List (ℕ × Query)) :
    ofToken token (dropJob other jobs) = ofToken token jobs := by
  induction jobs with
  | nil => rfl
  | cons job jobs ih =>
    obtain ⟨t, query⟩ := job
    by_cases ht : t = other
    · rw [dropJob, List.eraseP_cons_of_pos (by simp [ht]), ht, ofToken_cons_ne h]
    · have hd : dropJob other ((t, query) :: jobs) = (t, query) :: dropJob other jobs := by
        rw [dropJob, List.eraseP_cons_of_neg (by simp [ht])]
        rfl
      rw [hd]
      by_cases hs : t = token
      · rw [hs, ofToken_cons_same, ofToken_cons_same, ih]
      · rw [ofToken_cons_ne hs, ofToken_cons_ne hs, ih]

lemma find_job (token : ℕ) (jobs : List (ℕ × Query)) :
    (jobs.find? fun job => job.1 = token) = none ∧ ofToken token jobs = [] ∨
      ∃ query, (jobs.find? fun job => job.1 = token) = some (token, query) ∧
        ofToken token jobs = query :: ofToken token (dropJob token jobs) := by
  induction jobs with
  | nil => exact .inl ⟨rfl, rfl⟩
  | cons job jobs ih =>
    obtain ⟨t, query⟩ := job
    by_cases ht : t = token
    · subst ht
      refine .inr ⟨query, by simp, ?_⟩
      rw [ofToken_cons_same, dropJob, List.eraseP_cons_of_pos (by simp)]
    · have hd : dropJob token ((t, query) :: jobs) = (t, query) :: dropJob token jobs := by
        rw [dropJob, List.eraseP_cons_of_neg (by simp [ht])]
        rfl
      rw [hd, ofToken_cons_ne ht, ofToken_cons_ne ht, List.find?_cons_of_neg (by simp [ht])]
      exact ih

end ofToken

variable (plan : ℕ → Plan) (s : System) {token other : ℕ}

lemma view_onClient_same (f : Client → Client) :
    (s.onClient token f).view token = (s.view token).onClient f := by
  simp [view, onClient, Session.onClient, ofToken_append, ofToken_map_same]

lemma view_onClient_ne (h : other ≠ token) (f : Client → Client) :
    (s.onClient other f).view token = s.view token := by
  simp [view, onClient, ofToken_append, ofToken_map_ne h, Function.update_of_ne h.symm]

lemma view_send_ne (h : s.nextToken ≠ token) (q : Client) (query : Query) :
    (s.send q query).view token = s.view token := by
  simp [view, send, ofToken_append, Function.update_of_ne h.symm, ofToken_cons_ne h]

lemma view_send_same {opened closing : Bool} (h : s.view s.nextToken = .unborn opened closing)
    (q : Client) (query : Query) : (s.send q query).view s.nextToken =
      ⟨s.opened, s.closing, q, [query], none, [], []⟩ := by
  simp only [view, Session.unborn, Session.mk.injEq] at h
  obtain ⟨-, -, -, h4, h5, h6, h7⟩ := h
  simp [view, send, ofToken_append, h4, h5, h6, h7, ofToken_cons_same]

lemma view_arrive_same {query : Query} {rest : List (ℕ × Query)}
    (hs : s.toServer = (token, query) :: rest) :
    (s.arrive plan).view token = (s.view token).arrive (plan token) token := by
  have hv : (s.view token).toServer = query :: ofToken token rest := by
    rw [view, hs, ofToken_cons_same]
  rw [arrive, hs, Session.arrive, hv]
  simp only [view, ofToken_append, ofToken_reply_same, ofToken_job_same, Function.update_self]
  rfl

lemma view_arrive_ne {query : Query} {rest : List (ℕ × Query)}
    (hs : s.toServer = (other, query) :: rest) (h : other ≠ token) :
    (s.arrive plan).view token = s.view token := by
  rw [arrive, hs]
  simp only [view, ofToken_append, ofToken_reply_ne h, ofToken_job_ne h,
    Function.update_of_ne (Ne.symm h), hs, ofToken_cons_ne h, List.append_nil]

lemma view_arrive : (s.arrive plan).view token = s.view token ∨
    (s.arrive plan).view token = (s.view token).step (plan token) token .arrive := by
  cases hs : s.toServer with
  | nil => exact .inl (by rw [arrive, hs])
  | cons message rest =>
    by_cases ht : message.1 = token
    · subst ht
      exact .inr (view_arrive_same plan s hs)
    · exact .inl (view_arrive_ne plan s hs ht)

lemma view_finish_same {query : Query} {interrupted : Bool}
    (hf : (s.jobs.find? fun job => job.1 = token) = some (token, query))
    (hw : ¬ (query = .noreplyWait ∧ heldBefore s.jobs token = true)) :
    (s.finish plan token interrupted).view token =
      (s.view token).finish (plan token) token interrupted := by
  rcases find_job token s.jobs with ⟨h, -⟩ | ⟨query', h, ho⟩
  · exact absurd (hf.symm.trans h) (by simp)
  · obtain rfl : query = query' := by simpa using hf.symm.trans h
    have hv : (s.view token).jobs = query :: ofToken token (dropJob token s.jobs) := ho
    rw [finish, hf, Session.finish, hv]
    dsimp only
    rw [if_neg hw]
    have he : (s.view token).entry = s.queries token := rfl
    rw [he]
    cases completion (plan token) token interrupted (s.queries token) query with
    | none => rfl
    | some a => simp only [view, ofToken_append, ofToken_reply_same, Function.update_self]

lemma view_finish_ne (h : other ≠ token) (interrupted : Bool) :
    (s.finish plan other interrupted).view token = s.view token := by
  rw [finish]
  split
  · rfl
  · split_ifs
    · rfl
    · split
      · rfl
      · simp only [view, ofToken_append, ofToken_reply_ne h, Function.update_of_ne (Ne.symm h),
          ofToken_dropJob_ne h, List.append_nil]

lemma view_finish (interrupted : Bool) :
    (s.finish plan other interrupted).view token = s.view token ∨
    (s.finish plan other interrupted).view token =
      (s.view token).step (plan token) token (.finish interrupted) := by
  by_cases ht : other = token
  · subst ht
    rcases find_job other s.jobs with ⟨h, -⟩ | ⟨query, h, -⟩
    · exact .inl (by rw [finish, h])
    · by_cases hw : query = .noreplyWait ∧ heldBefore s.jobs other = true
      · exact .inl (by simp [finish, h, hw])
      · exact .inr (view_finish_same plan s h hw)
  · exact .inl (view_finish_ne plan s ht interrupted)

lemma view_deliver_same {response : Response} {rest : List (ℕ × Response)}
    (hs : s.toClient = (token, response) :: rest) :
    s.deliver.view token = (s.view token).deliver := by
  have hv : (s.view token).toClient = response :: ofToken token rest := by
    rw [view, hs, ofToken_cons_same]
  have hcond : ((s.view token).opened && (s.view token).client.accepts response) =
      (s.opened && (s.client token).accepts response) := rfl
  rw [deliver, hs, Session.deliver, hv]
  dsimp only
  rw [hcond]
  split_ifs
  · rw [view_onClient_same]
    rfl
  · rfl

lemma view_deliver_ne {response : Response} {rest : List (ℕ × Response)} (h : other ≠ token)
    (hs : s.toClient = (other, response) :: rest) : s.deliver.view token = s.view token := by
  rw [deliver, hs]
  dsimp only
  split_ifs
  · rw [view_onClient_ne _ h]
    simp only [view, hs, ofToken_cons_ne h]
  · rfl

lemma view_deliver : s.deliver.view token = s.view token ∨
    s.deliver.view token = (s.view token).step (plan token) token .deliver := by
  cases hs : s.toClient with
  | nil => exact .inl (by rw [deliver, hs])
  | cons message rest =>
    by_cases ht : message.1 = token
    · subst ht
      exact .inr (view_deliver_same s hs)
    · exact .inl (view_deliver_ne s ht hs)

/-- The actions that start no query act on every session. -/
def Quiet (s : System) : Action → Prop
  | .run _ => s.canSend = false
  | .noreplyWait => s.canSend = false
  | .closeConnection wait => s.closeCall.isSome = true ∨ (wait && s.canSend) = false
  | _ => True

lemma view_quiet (token : ℕ) {a : Action} (h : s.Quiet a) :
    (s.step plan a).view token = s.view token ∨
    ∃ l, (s.step plan a).view token = (s.view token).step (plan token) token l := by
  have onClient : ∀ {t : ℕ} {f : Client → Client} {l : Local},
      (∀ v : Session, v.opened = s.opened → v.closing = s.closing →
        v.step (plan token) token l = v.onClient f) →
      (s.onClient t f).view token = s.view token ∨
        ∃ l, (s.onClient t f).view token = (s.view token).step (plan token) token l := by
    intro t f l hl
    by_cases ht : t = token
    · subst ht
      exact .inr ⟨l, (view_onClient_same s f).trans (hl (s.view t) rfl rfl).symm⟩
    · exact .inl (view_onClient_ne s ht f)
  cases a with
  | run noreply =>
    have ho : s.canSend = false := h
    exact .inl (by simp [step, ho])
  | noreplyWait =>
    have ho : s.canSend = false := h
    exact .inl (by simp [step, ho])
  | next t cb =>
    exact onClient (l := .next cb) fun v ho hc => by simp [Session.step, isOpen, ho, hc]
  | closeCursor t => exact onClient (l := .closeCursor) fun v ho hc => by simp [Session.step, ho]
  | chained t => exact onClient (l := .chained) fun v _ _ => rfl
  | immediate t => exact onClient (l := .immediate) fun v _ _ => rfl
  | closeConnection wait =>
    rw [step, close]
    split_ifs with hc hw
    · exact .inl rfl
    · rcases h with h | h
      · exact absurd h hc
      · exact absurd hw (by simp [h])
    · exact .inr ⟨.shut, rfl⟩
  | shut =>
    rw [step]
    split
    · split_ifs
      · exact .inr ⟨.shut, rfl⟩
      · exact .inl rfl
    · exact .inl rfl
  | arrive => exact (view_arrive plan s).imp id fun h => ⟨_, h⟩
  | finish t interrupted => exact (view_finish plan s interrupted).imp id fun h => ⟨_, h⟩
  | deliver => exact (view_deliver plan s).imp id fun h => ⟨_, h⟩

lemma nextToken_quiet {a : Action} (h : s.Quiet a) : (s.step plan a).nextToken = s.nextToken := by
  cases a with
  | run noreply =>
    have ho : s.canSend = false := h
    simp [step, ho]
  | noreplyWait =>
    have ho : s.canSend = false := h
    simp [step, ho]
  | closeConnection wait =>
    rw [step, close]
    split_ifs with hc hw
    · rfl
    · rcases h with h | h
      · exact absurd h hc
      · exact absurd hw (by simp [h])
    · rfl
  | shut =>
    rw [step]
    split
    · split_ifs <;> rfl
    · rfl
  | arrive =>
    rw [step, arrive]
    split <;> rfl
  | finish t interrupted =>
    rw [step, finish]
    split
    · rfl
    · split_ifs
      · rfl
      · split <;> rfl
  | deliver =>
    rw [step, deliver]
    split
    · rfl
    · split_ifs <;> rfl
  | _ => rfl

lemma step_of_not_quiet {a : Action} (h : ¬ s.Quiet a) :
    s.opened = true ∧ ∃ (s' : System) (q : Client) (query : Query),
      s.step plan a = s'.send q query ∧ s'.nextToken = s.nextToken ∧ s'.opened = true ∧
      ((s' = s ∧ ∃ noreply,
          q = (if noreply then ⟨none, none, [.null]⟩ else ⟨some .callback, none, []⟩) ∧
          query = .start noreply) ∨
        q = ⟨some .callback, none, []⟩ ∧ query = .noreplyWait ∧
          ∀ t, s'.view t = s.view t ∨ s'.view t = (s.view t).step (plan t) t .closing) := by
  have opens : s.canSend = true → s.opened = true := fun h => (Bool.and_eq_true _ _ ▸ h).1
  cases a with
  | run noreply =>
    have hs : s.canSend = true := by simpa [Quiet] using h
    exact ⟨opens hs, s, _, _, by rw [step, if_pos hs], rfl, opens hs, .inl ⟨rfl, noreply, rfl, rfl⟩⟩
  | noreplyWait =>
    have hs : s.canSend = true := by simpa [Quiet] using h
    exact ⟨opens hs, s, _, _, by rw [step, if_pos hs], rfl, opens hs,
      .inr ⟨rfl, rfl, fun t => .inl rfl⟩⟩
  | closeConnection wait =>
    obtain ⟨hc, hw⟩ := not_or.mp h
    have hw' : (wait && s.canSend) = true := by simpa using hw
    have ho : s.opened = true := opens (Bool.and_eq_true _ _ ▸ hw').2
    refine ⟨ho, { s with closing := true, closeCall := some (some s.nextToken) }, _, _, ?_, rfl, ho,
      .inr ⟨rfl, rfl, fun t => .inr rfl⟩⟩
    rw [step, close, if_neg hc, if_pos hw']
  | _ => exact absurd trivial h

/-- The sessions of all tokens can come about, those given out as begun. -/
structure Tracked (s : System) : Prop where
  first : 0 < s.nextToken
  reach : ∀ t, Session.Reach (plan t) t (decide (0 < t ∧ t < s.nextToken)) (s.view t)

lemma unborn_step (p : Plan) (t : ℕ) (opened closing : Bool) (l : Local) :
    ∃ o c, (Session.unborn opened closing).step p t l = .unborn o c := by
  cases l <;> exact ⟨_, _, rfl⟩

lemma unborn_of_reach {p : Plan} {t : ℕ} {begun : Bool} {v : Session}
    (h : Session.Reach p t begun v) (hb : begun = false) : ∃ o c, v = .unborn o c := by
  induction h with
  | unborn opened closing => exact ⟨opened, closing, rfl⟩
  | run => cases hb
  | wait => cases hb
  | step l _ ih =>
    obtain ⟨o, c, rfl⟩ := ih hb
    exact unborn_step p t o c l

lemma Tracked.step {s : System} (h : Tracked plan s) (a : Action) :
    Tracked plan (s.step plan a) := by
  by_cases hq : s.Quiet a
  · refine ⟨nextToken_quiet plan s hq ▸ h.first, fun t => ?_⟩
    rw [nextToken_quiet plan s hq]
    rcases view_quiet plan s t hq with hv | ⟨l, hv⟩
    · rw [hv]
      exact h.reach t
    · rw [hv]
      exact .step l (h.reach t)
  · obtain ⟨ho, s', q, query, hs, hn, ho', hkind⟩ := step_of_not_quiet plan s hq
    -- the sessions before the first query is written
    have hreach : ∀ t, Session.Reach (plan t) t (decide (0 < t ∧ t < s.nextToken)) (s'.view t) := by
      intro t
      rcases hkind with ⟨rfl, -⟩ | ⟨-, -, hv⟩
      · exact h.reach t
      · rcases hv t with hv | hv
        · rw [hv]
          exact h.reach t
        · rw [hv]
          exact .step .closing (h.reach t)
    have hnext : (s.step plan a).nextToken = s.nextToken + 1 := by rw [hs, send, hn]
    refine ⟨by omega, fun t => ?_⟩
    rw [hnext]
    by_cases ht : t = s.nextToken
    · obtain ⟨o, c, hu⟩ := unborn_of_reach (hreach s.nextToken) (by simp)
      have hsame : (s.step plan a).view s.nextToken = .born s'.closing q query := by
        rw [← hn] at hu ⊢
        rw [hs, view_send_same s' hu, Session.born, ho']
      have hb : decide (0 < t ∧ t < s.nextToken + 1) = true := by
        simp only [ht, decide_eq_true_eq]
        exact ⟨h.first, by omega⟩
      rw [hb, ht, hsame]
      rcases hkind with ⟨-, noreply, rfl, rfl⟩ | ⟨rfl, rfl, -⟩
      · exact .run _ noreply
      · exact .wait _
    · have hb : decide (0 < t ∧ t < s.nextToken + 1) = decide (0 < t ∧ t < s.nextToken) := by
        rw [decide_eq_decide]
        omega
      rw [hb, hs, view_send_ne s' (hn.trans_ne (Ne.symm ht))]
      exact hreach t

lemma initial_tracked : Tracked plan initial := by
  refine ⟨by decide, fun t => ?_⟩
  have hn : initial.nextToken = 1 := rfl
  have hb : ¬ (0 < t ∧ t < initial.nextToken) := by omega
  rw [decide_eq_false hb]
  exact .unborn true false

lemma exec_tracked {s : System} (h : Tracked plan s) (actions : List Action) :
    Tracked plan (s.exec plan actions) := by
  induction actions generalizing s with
  | nil => exact h
  | cons a actions ih => exact ih (h.step plan a)

/-- Whatever the run of the connection, the session of each token is one that
the single-session machine reaches. -/
theorem view_reach (actions : List Action) (token : ℕ) :
    Session.Reach (plan token) token (decide (0 < token ∧
      token < (initial.exec plan actions).nextToken))
      ((initial.exec plan actions).view token) :=
  (exec_tracked plan (initial_tracked plan) actions).reach token

end System

end PersonnelBackend.Connections
