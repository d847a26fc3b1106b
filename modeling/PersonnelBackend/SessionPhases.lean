import PersonnelBackend.QuerySession

/-! The phases of a session whose cursor has not been closed. At most one request
is under way, and the replies handed out, buffered, under way and still in the
server's stream are together the replies of the plan. -/
namespace PersonnelBackend.Connections
open Document Cursors QueryCache

/-! ### The server's side -/

/-- A response together with what is left of the stream after it. -/
def Answer (r : Response) (next : Option Stream) (rest : List Reply) : Prop :=
  r.t = .successPartial ∧ (∃ s, next = some s ∧ rest = r.replies ++ s.replies) ∨
    r.t ≠ .successPartial ∧ next = none ∧ rest = r.replies

def planReplies : Plan → List Reply
  | .stream s => s.replies
  | plan => ((run false plan).map fun a => a.1.replies).getD []

lemma errorResponse_replies {t : ResponseType} (ht : t.isError = true) (m : String) :
    (errorResponse t m).replies = [.serverError t [.str m]] := by
  have hr : t.isRows = false := by cases t <;> first | rfl | cases ht
  simp [errorResponse, Response.replies, Response.failure, ht, hr]

lemma tail_replies {s : Stream} (h : s.batches ≠ [] ∨ s.ending = .exhausted) :
    s.replies = (s.batches.headD []).map .row ++ s.tail.replies := by
  obtain ⟨feedType, includesStates, batches, ending, regular⟩ := s
  cases batches with
  | nil =>
    obtain rfl : ending = .exhausted := h.resolve_left (fun hb => hb rfl)
    rfl
  | cons ds rest => simp [Stream.replies, Stream.tail]

lemma exhausted_replies {s : Stream} (h : s.isExhausted = true) : s.replies = [] := by
  simp only [Stream.isExhausted, Bool.and_eq_true, List.isEmpty_iff, decide_eq_true_eq] at h
  simp [Stream.replies, h.1, h.2]

lemma tail_exhausted {s : Stream} (h : s.batches ≠ [] ∨ s.ending = .exhausted)
    (hf : s.feedType = .notFeed) (he : s.batches.headD [] = []) : s.tail.isExhausted = true := by
  obtain ⟨-, hreg⟩ := s.regular hf
  cases hb : s.batches with
  | nil =>
    have hend := h.resolve_left (fun hne => hne hb)
    simp [Stream.isExhausted, Stream.tail, hb, hend]
  | cons ds rest =>
    obtain rfl : ds = [] := by simpa [hb] using he
    obtain ⟨h1, h2⟩ := hreg [] rest hb
    simp [Stream.isExhausted, Stream.tail, hb, h1, h2]

lemma serve_silent {s : Stream} {noreply : Bool} (h : serve noreply s = none) :
    s.batches = [] ∧ s.ending = .silence := by
  rw [serve] at h
  split at h
  · cases h
  · next hb he => exact ⟨hb, he⟩
  · dsimp only at h
    split_ifs at h

lemma serve_cases {s : Stream} {r : Response} {next : Option Stream}
    (h : serve false s = some (r, next)) :
    (s.batches = [] ∧ ∃ m, s.ending = .failure m ∧ r = errorResponse .runtimeError m ∧
      next = none) ∨
      (s.batches ≠ [] ∨ s.ending = .exhausted) ∧
        (s.tail.isExhausted = true ∧ r = ⟨.successSequence, s.batches.headD [], s.notes⟩ ∧
          next = none ∨
          s.tail.isExhausted = false ∧ r = ⟨.successPartial, s.batches.headD [], s.notes⟩ ∧
            next = some s.tail) := by
  rw [serve] at h
  split at h
  · next m hb hm =>
    obtain ⟨rfl, rfl⟩ : errorResponse .runtimeError m = r ∧ none = next := by simpa using h
    exact .inl ⟨hb, m, hm, rfl, rfl⟩
  · cases h
  · next hfailure hsilence =>
    have hne : s.batches ≠ [] ∨ s.ending = .exhausted := by
      by_cases hb : s.batches = []
      · refine .inr ?_
        cases he : s.ending with
        | exhausted => rfl
        | failure m => exact absurd he (hfailure m hb)
        | silence => exact absurd he (hsilence hb)
      · exact .inl hb
    refine .inr ⟨hne, ?_⟩
    dsimp only at h
    split_ifs at h with h1 h2
    · obtain ⟨rfl, rfl⟩ := Prod.mk.inj (Option.some.inj h)
      exact .inl ⟨by simpa using h1, rfl, rfl⟩
    · exact absurd (tail_exhausted hne h2.1 h2.2) (by simpa using h1)
    · obtain ⟨rfl, rfl⟩ := Prod.mk.inj (Option.some.inj h)
      exact .inr ⟨by simpa using h1, rfl, rfl⟩

lemma serve_answer {s : Stream} {r : Response} {next : Option Stream}
    (h : serve false s = some (r, next)) : Answer r next s.replies := by
  rcases serve_cases h with ⟨hb, m, hm, rfl, rfl⟩ | ⟨hne, ⟨he, rfl, rfl⟩ | ⟨-, rfl, rfl⟩⟩
  · refine .inr ⟨by simp [errorResponse], rfl, ?_⟩
    rw [errorResponse_replies rfl]
    simp [Stream.replies, hb, hm]
  · refine .inr ⟨by simp, rfl, ?_⟩
    rw [tail_replies hne, exhausted_replies he, List.append_nil]
    rfl
  · exact .inl ⟨rfl, _, rfl, tail_replies hne⟩

lemma serve_wellFormed {s : Stream} {r : Response} {next : Option Stream}
    (h : serve false s = some (r, next)) : r.WellFormed := by
  rcases serve_cases h with ⟨-, m, -, rfl, -⟩ | ⟨-, ⟨-, rfl, -⟩ | ⟨-, rfl, -⟩⟩
  · exact fun _ => by simp [errorResponse]
  · exact fun hr => by simp [ResponseType.isRows] at hr
  · exact fun hr => by simp [ResponseType.isRows] at hr

lemma run_answer {plan : Plan} {r : Response} {next : Option Stream}
    (h : run false plan = some (r, next)) : Answer r next (planReplies plan) ∧ r.WellFormed := by
  cases plan with
  | stream s => exact ⟨serve_answer h, serve_wellFormed h⟩
  | compileError m =>
    obtain ⟨rfl, rfl⟩ := Prod.mk.inj (Option.some.inj h)
    exact ⟨.inr ⟨by simp [errorResponse], rfl, rfl⟩, fun _ => by simp [errorResponse]⟩
  | runtimeError m =>
    obtain ⟨rfl, rfl⟩ := Prod.mk.inj (Option.some.inj h)
    exact ⟨.inr ⟨by simp [errorResponse], rfl, rfl⟩, fun _ => by simp [errorResponse]⟩
  | value v =>
    obtain ⟨rfl, rfl⟩ := Prod.mk.inj (Option.some.inj h)
    exact ⟨.inr ⟨by simp, rfl, rfl⟩, fun _ => by simp⟩

/-! ### Phases of a session whose cursor has not been closed -/

def starting : Entry := ⟨.start, false, false, false⟩

def reading (st : Stream) : Entry := ⟨.stream st, false, false, false⟩

structure Still (s : Session) : Prop where
  toServer : s.toServer = []
  jobs : s.jobs = []
  toClient : s.toClient = []

/-- The one request under way and the replies still to come; the flag says
whether it is the first one of its token. -/
inductive Flight (plan : Plan) (s : Session) : Bool → List Reply → Prop
  | startAsked : s.toServer = [.start false] → s.entry = none → s.jobs = [] → s.toClient = [] →
      Flight plan s true (planReplies plan)
  | startServed : s.toServer = [] → s.entry = some starting → s.jobs = [.start false] →
      s.toClient = [] → Flight plan s true (planReplies plan)
  | contAsked (st : Stream) : s.toServer = [.continue] → s.entry = some (reading st) → s.jobs = [] →
      s.toClient = [] → Flight plan s false st.replies
  | contServed (st : Stream) : s.toServer = [] → s.entry = some (reading st) →
    s.jobs = [.continue] →
      s.toClient = [] → Flight plan s false st.replies
  | answered (first : Bool) (r : Response) (next : Option Stream) (rest : List Reply) :
      s.toServer = [] → s.jobs = [] → s.toClient = [r] → r.WellFormed → s.entry = next.map reading →
      Answer r next rest → Flight plan s first rest

lemma Flight.congr {plan : Plan} {s s' : Session} {first : Bool} {rest : List Reply}
    (h : Flight plan s first rest) (hs : s'.toServer = s.toServer) (he : s'.entry = s.entry)
    (hj : s'.jobs = s.jobs) (ht : s'.toClient = s.toClient) : Flight plan s' first rest := by
  -- a flight is a matter of the wires and the entry
  cases h with
  | startAsked h1 h2 h3 h4 =>
    exact .startAsked (hs.trans h1) (he.trans h2) (hj.trans h3) (ht.trans h4)
  | startServed h1 h2 h3 h4 =>
    exact .startServed (hs.trans h1) (he.trans h2) (hj.trans h3) (ht.trans h4)
  | contAsked st h1 h2 h3 h4 =>
    exact .contAsked st (hs.trans h1) (he.trans h2) (hj.trans h3) (ht.trans h4)
  | contServed st h1 h2 h3 h4 =>
    exact .contServed st (hs.trans h1) (he.trans h2) (hj.trans h3) (ht.trans h4)
  | answered first r next rest h1 h2 h3 h4 h5 h6 =>
    exact .answered first r next rest (hs.trans h1) (hj.trans h2) (ht.trans h3) h4 (he.trans h5) h6

/-- A cursor that has not been closed and has written what it sent. -/
structure OpenCursor (c : Cursor) : Prop where
  valid : c.Valid
  closeCb : c.closeCb = false
  closeAsap : c.closeAsap = false
  closePromise : c.closePromise = none
  thrown : c.thrown = false
  sent : c.sent = []

/-- The cursor of a stream that has not ended. -/
structure Reading (plan : Plan) (s : Session) (c : Cursor) (rest : List Reply) : Prop where
  client : s.client = ⟨some .cursor, some c, [.cursor]⟩
  cursor : OpenCursor c
  endFlag : c.endFlag = false
  told : c.Told 0
  total : c.delivered ++ c.buffered ++ rest = planReplies plan
  flight : c.contFlag = false ∧ c.outstandingRequests = 0 ∧ Still s ∧
      (∃ st, s.entry = some (reading st) ∧ rest = st.replies) ∨
    c.contFlag = true ∧ c.outstandingRequests = 1 ∧ Flight plan s false rest
  waiting : c.cbQueue ≠ [] → c.responses = [] ∧ (c.contFlag = true ∨ s.closing = true)

/-- The cursor of a stream that has ended. -/
structure Ended (plan : Plan) (s : Session) (c : Cursor) : Prop where
  client : s.client = ⟨none, some c, [.cursor]⟩
  cursor : OpenCursor c
  endFlag : c.endFlag = true
  idle : c.contFlag = false ∧ c.outstandingRequests = 0
  total : c.delivered ++ c.buffered = planReplies plan
  told : ∃ k, c.Told k ∧ (k = 0 ∨ c.responses = [])
  waiting : c.cbQueue ≠ [] → c.responses = []
  still : Still s
  entry : s.entry = none

/-- Where a query stands that wants no reply. -/
structure Unanswered (s : Session) : Prop where
  client : s.client = ⟨none, none, [.null]⟩
  toClient : s.toClient = []
  place : s.toServer = [.start true] ∧ s.jobs = [] ∧ s.entry = none ∨
    s.toServer = [] ∧ s.jobs = [.start true] ∧ s.entry = some ⟨.start, true, false, false⟩ ∨
    s.toServer = [] ∧ s.jobs = [] ∧ s.entry = none

/-- Where a `noreplyWait` stands. -/
structure Awaiting (s : Session) : Prop where
  client : s.client = ⟨some .callback, none, []⟩
  entry : s.entry = none
  place : s.toServer = [.noreplyWait] ∧ s.jobs = [] ∧ s.toClient = [] ∨
    s.toServer = [] ∧ s.jobs = [.noreplyWait] ∧ s.toClient = [] ∨
    s.toServer = [] ∧ s.jobs = [] ∧ s.toClient = [⟨.waitComplete, [], []⟩]

inductive Live (plan : Plan) (s : Session) : Prop
  | noreply : Unanswered s → Live plan s
  | awaiting : Awaiting s → Live plan s
  | asking : s.client = ⟨some .callback, none, []⟩ → Flight plan s true (planReplies plan) →
    Live plan s
  | reading (c : Cursor) (rest : List Reply) : Reading plan s c rest → Live plan s
  | answered (result : RunResult) : s.client = ⟨none, none, [result]⟩ → Still s → s.entry = none →
      Live plan s
  | ended (c : Cursor) : Ended plan s c → Live plan s

/-! ### The server's steps -/

section server

variable {plan : Plan} {token : ℕ} {s : Session}

lemma arrive_of_nil (h : s.toServer = []) : s.arrive plan token = s := by
  rw [Session.arrive, h]

lemma arrive_of_cons {query : Query} {rest : List Query} (h : s.toServer = query :: rest) :
    s.arrive plan token =
      { s with
        toServer := rest
        entry := (arrival plan token s.entry query).1
        jobs := s.jobs ++ if (arrival plan token s.entry query).2.isSome then [] else [query]
        toClient := s.toClient ++ Session.reply query (arrival plan token s.entry query).2 } := by
  rw [Session.arrive, h]

lemma finish_of_nil (h : s.jobs = []) (interrupted : Bool) :
    s.finish plan token interrupted = s := by
  rw [Session.finish, h]

lemma finish_of_none {query : Query} {rest : List Query} {interrupted : Bool}
    (h : s.jobs = query :: rest) (hc : completion plan token interrupted s.entry query = none) :
    s.finish plan token interrupted = s := by
  rw [Session.finish, h]
  simp only [hc]

lemma finish_of_some {query : Query} {rest : List Query} {interrupted : Bool} {entry : Option Entry}
    {response : Response} (h : s.jobs = query :: rest)
    (hc : completion plan token interrupted s.entry query = some (entry, response)) :
    s.finish plan token interrupted =
      { s with
        entry := entry
        jobs := rest
        toClient := s.toClient ++ Session.reply query (some response) } := by
  rw [Session.finish, h]
  simp only [hc]

lemma release_unpulsed {e : Entry} (h : e.pulsed = false) (next : Option Stream) :
    release e next = next.map fun st => { e with state := .stream st } := by
  cases next with
  | none => rfl
  | some st => simp [release, h]

lemma completion_unpulsed {e : Entry} (h : e.pulsed = false) (interrupted : Bool) {query : Query}
    (hq : query = .continue ∨ ∃ noreply, query = .start noreply) :
    completion plan token interrupted (some e) query =
      (fill plan e).map fun a => (a.2.map fun st => { e with state := .stream st }, a.1) := by
  rcases hq with rfl | ⟨noreply, rfl⟩ <;> simp [completion, h, release_unpulsed h]

lemma Flight.arrive {first : Bool} {rest : List Reply} (h : Flight plan s first rest) :
    Flight plan (s.arrive plan token) first rest := by
  cases h with
  | startAsked h1 h2 h3 h4 =>
    rw [arrive_of_cons h1, h2, h3, h4]
    cases plan with
    | compileError m =>
      have hrun : run false (.compileError m) = some (errorResponse .compileError m, none) := rfl
      obtain ⟨ha, hw⟩ := run_answer hrun
      exact .answered true _ none _ rfl rfl rfl hw rfl ha
    | runtimeError m => exact .startServed rfl rfl rfl rfl
    | value v => exact .startServed rfl rfl rfl rfl
    | stream st => exact .startServed rfl rfl rfl rfl
  | startServed h1 h2 h3 h4 =>
    rw [arrive_of_nil h1]
    exact .startServed h1 h2 h3 h4
  | contAsked st h1 h2 h3 h4 =>
    rw [arrive_of_cons h1, h2, h3, h4]
    exact .contServed st rfl rfl rfl rfl
  | contServed st h1 h2 h3 h4 =>
    rw [arrive_of_nil h1]
    exact .contServed st h1 h2 h3 h4
  | answered first r next rest h1 h2 h3 h4 h5 h6 =>
    rw [arrive_of_nil h1]
    exact .answered first r next rest h1 h2 h3 h4 h5 h6

lemma Flight.finish {first : Bool} {rest : List Reply} (h : Flight plan s first rest)
    (interrupted : Bool) : Flight plan (s.finish plan token interrupted) first rest := by
  cases h with
  | startAsked h1 h2 h3 h4 =>
    rw [finish_of_nil h3]
    exact .startAsked h1 h2 h3 h4
  | startServed h1 h2 h3 h4 =>
    have hc : completion plan token interrupted s.entry (.start false) =
        (run false plan).map fun a => (a.2.map reading, a.1) := by
      rw [h2]
      exact completion_unpulsed rfl interrupted (.inr ⟨false, rfl⟩)
    cases hrun : run false plan with
    | none =>
      rw [finish_of_none h3 (by rw [hc, hrun]; rfl)]
      exact .startServed h1 h2 h3 h4
    | some a =>
      obtain ⟨r, next⟩ := a
      rw [hrun, Option.map_some] at hc
      obtain ⟨ha, hw⟩ := run_answer hrun
      rw [finish_of_some h3 hc, h1, h4]
      exact .answered true r next _ rfl rfl rfl hw rfl ha
  | contAsked st h1 h2 h3 h4 =>
    rw [finish_of_nil h3]
    exact .contAsked st h1 h2 h3 h4
  | contServed st h1 h2 h3 h4 =>
    have hc : completion plan token interrupted s.entry .continue =
        (serve false st).map fun a => (a.2.map reading, a.1) := by
      rw [h2]
      exact completion_unpulsed rfl interrupted (.inl rfl)
    cases hserve : serve false st with
    | none =>
      rw [finish_of_none h3 (by rw [hc, hserve]; rfl)]
      exact .contServed st h1 h2 h3 h4
    | some a =>
      obtain ⟨r, next⟩ := a
      rw [hserve, Option.map_some] at hc
      rw [finish_of_some h3 hc, h1, h4]
      exact .answered false r next _ rfl rfl rfl (serve_wellFormed hserve) rfl (serve_answer hserve)
  | answered first r next rest h1 h2 h3 h4 h5 h6 =>
    rw [finish_of_nil h2]
    exact .answered first r next rest h1 h2 h3 h4 h5 h6

lemma Still.arrive (h : Still s) : s.arrive plan token = s := arrive_of_nil h.toServer

lemma Still.finish (h : Still s) (interrupted : Bool) : s.finish plan token interrupted = s :=
  finish_of_nil h.jobs interrupted

lemma arrive_client (plan : Plan) (token : ℕ) (s : Session) :
    (s.arrive plan token).client = s.client ∧
    (s.arrive plan token).opened = s.opened ∧ (s.arrive plan token).closing = s.closing := by
  rw [Session.arrive]
  split <;> exact ⟨rfl, rfl, rfl⟩

lemma finish_client (plan : Plan) (token : ℕ) (s : Session) (interrupted : Bool) :
    (s.finish plan token interrupted).client = s.client ∧
    (s.finish plan token interrupted).opened = s.opened ∧
      (s.finish plan token interrupted).closing = s.closing := by
  rw [Session.finish]
  split
  · exact ⟨rfl, rfl, rfl⟩
  · split <;> exact ⟨rfl, rfl, rfl⟩

lemma Unanswered.arrive (h : Unanswered s) : Live plan (s.arrive plan token) := by
  rcases h.place with ⟨h1, h2, h3⟩ | ⟨h1, h2, h3⟩ | ⟨h1, h2, h3⟩
  · rw [arrive_of_cons h1, h2, h3, h.toClient]
    cases plan with
    | compileError m => exact .noreply ⟨h.client, rfl, .inr (.inr ⟨rfl, rfl, rfl⟩)⟩
    | runtimeError m => exact .noreply ⟨h.client, rfl, .inr (.inl ⟨rfl, rfl, rfl⟩)⟩
    | value v => exact .noreply ⟨h.client, rfl, .inr (.inl ⟨rfl, rfl, rfl⟩)⟩
    | stream st => exact .noreply ⟨h.client, rfl, .inr (.inl ⟨rfl, rfl, rfl⟩)⟩
  · rw [arrive_of_nil h1]
    exact .noreply h
  · rw [arrive_of_nil h1]
    exact .noreply h

lemma run_noreply {plan : Plan} {r : Response} {next : Option Stream}
    (h : run true plan = some (r, next)) : next = none := by
  cases plan with
  | stream st =>
    rw [run, serve] at h
    split at h
    · exact (Prod.mk.inj (Option.some.inj h)).2.symm
    · cases h
    · simp only [Bool.or_true, if_true] at h
      exact (Prod.mk.inj (Option.some.inj h)).2.symm
  | _ => exact (Prod.mk.inj (Option.some.inj h)).2.symm

lemma Unanswered.finish (h : Unanswered s) (interrupted : Bool) :
    Live plan (s.finish plan token interrupted) := by
  rcases h.place with ⟨h1, h2, h3⟩ | ⟨h1, h2, h3⟩ | ⟨h1, h2, h3⟩
  · rw [finish_of_nil h2]
    exact .noreply h
  · have hc : completion plan token interrupted s.entry (.start true) =
        (run true plan).map fun a => (a.2.map fun st => ⟨.stream st, true, false, false⟩, a.1) := by
      rw [h3]
      exact completion_unpulsed rfl interrupted (.inr ⟨true, rfl⟩)
    cases hrun : run true plan with
    | none =>
      rw [finish_of_none h2 (by rw [hc, hrun]; rfl)]
      exact .noreply h
    | some a =>
      obtain ⟨r, next⟩ := a
      obtain rfl := run_noreply hrun
      rw [hrun, Option.map_some] at hc
      rw [finish_of_some h2 hc, h1, h.toClient]
      exact .noreply ⟨h.client, rfl, .inr (.inr ⟨rfl, rfl, rfl⟩)⟩
  · rw [finish_of_nil h2]
    exact .noreply h

lemma Awaiting.arrive (h : Awaiting s) : Awaiting (s.arrive plan token) := by
  rcases h.place with ⟨h1, h2, h3⟩ | ⟨h1, h2, h3⟩ | ⟨h1, h2, h3⟩
  · rw [arrive_of_cons h1, h.entry, h2, h3]
    exact ⟨h.client, rfl, .inr (.inl ⟨rfl, rfl, rfl⟩)⟩
  · rwa [arrive_of_nil h1]
  · rwa [arrive_of_nil h1]

lemma Awaiting.finish (h : Awaiting s) (interrupted : Bool) :
    Awaiting (s.finish plan token interrupted) := by
  rcases h.place with ⟨h1, h2, h3⟩ | ⟨h1, h2, h3⟩ | ⟨h1, h2, h3⟩
  · rwa [finish_of_nil h2]
  · have hc : completion plan token interrupted s.entry .noreplyWait =
        some (s.entry, ⟨.waitComplete, [], []⟩) := rfl
    rw [finish_of_some h2 hc, h1, h3]
    exact ⟨h.client, h.entry, .inr (.inr ⟨rfl, rfl, rfl⟩)⟩
  · rwa [finish_of_nil h2]

lemma Reading.serverStep {s' : Session} {c : Cursor} {rest : List Reply} (h : Reading plan s c rest)
    (hc : s'.client = s.client) (hcl : s'.closing = s.closing) (hs : Still s → s' = s)
    (hf : Flight plan s false rest → Flight plan s' false rest) : Reading plan s' c rest := by
  refine ⟨hc.trans h.client, h.cursor, h.endFlag, h.told, h.total, ?_, ?_⟩
  · rcases h.flight with ⟨h1, h2, h3, h4⟩ | ⟨h1, h2, h3⟩
    · exact .inl ⟨h1, h2, hs h3 ▸ h3, hs h3 ▸ h4⟩
    · exact .inr ⟨h1, h2, hf h3⟩
  · rw [hcl]
    exact h.waiting

lemma Live.arrive (h : Live plan s) : Live plan (s.arrive plan token) := by
  obtain ⟨hc, ho, hcl⟩ := arrive_client plan token s
  cases h with
  | noreply h => exact h.arrive
  | awaiting h => exact .awaiting h.arrive
  | asking h1 h2 => exact .asking (hc.trans h1) h2.arrive
  | reading c rest h => exact .reading c rest (h.serverStep hc hcl Still.arrive Flight.arrive)
  | answered result h1 h2 h3 =>
    rw [h2.arrive]
    exact .answered result h1 h2 h3
  | ended c h =>
    rw [h.still.arrive]
    exact .ended c h

lemma Live.finish (h : Live plan s) (interrupted : Bool) :
    Live plan (s.finish plan token interrupted) := by
  obtain ⟨hc, ho, hcl⟩ := finish_client plan token s interrupted
  cases h with
  | noreply h => exact h.finish interrupted
  | awaiting h => exact .awaiting (h.finish interrupted)
  | asking h1 h2 => exact .asking (hc.trans h1) (h2.finish interrupted)
  | reading c rest h =>
    exact .reading c rest (h.serverStep hc hcl (fun h => h.finish interrupted) fun h =>
      h.finish interrupted)
  | answered result h1 h2 h3 =>
    rw [h2.finish]
    exact .answered result h1 h2 h3
  | ended c h =>
    rw [h.still.finish]
    exact .ended c h

end server

/-! ### The driver's steps on a cursor that has not been closed -/

section driver

variable {plan : Plan} {token : ℕ} {s : Session}

/-- What an open cursor comes to by a response or by `next`: `more` are the
replies taken in, `asked` says whether a request is outstanding afterwards. -/
structure Advanced (isOpen : Bool) (c : Cursor) (more : List Reply) (asked : Bool) (c' : Cursor) :
    Prop where
  cursor : OpenCursor { c' with sent := [] }
  replies : c'.delivered ++ c'.buffered = c.delivered ++ c.buffered ++ more
  contFlag : c'.contFlag = asked
  outstandingRequests : c'.outstandingRequests = if asked then 1 else 0
  waiting : c'.cbQueue ≠ [] →
    c'.responses = [] ∧ (c'.endFlag = true ∨ c'.contFlag = true ∨ isOpen = false)
  told : c.Told 0 → ∃ k, c'.Told k ∧ (k = 0 ∨ c'.endFlag = true ∧ c'.responses = [])

lemma OpenCursor.of_prompted {isOpen : Bool} {c c' : Cursor} (h : OpenCursor c)
    (hp : c.Prompted isOpen c') : OpenCursor { c' with sent := [] } := by
  obtain ⟨-, ha, hcb, hpr, ht⟩ := hp.flags
  exact ⟨hp.valid.of_eq rfl rfl, hcb.trans h.closeCb, ha.trans h.closeAsap,
    hpr.trans h.closePromise, ht.trans h.thrown, rfl⟩

lemma OpenCursor.addResponse {c : Cursor} {r : Response} (h : OpenCursor c) (hw : r.WellFormed)
    (hout : c.outstandingRequests = 1) (isOpen connOpen : Bool) :
    (c.addResponse isOpen connOpen r).endFlag =
        (if r.t = .successPartial then c.endFlag else true) ∧
      ∃ asked, Advanced isOpen c r.replies asked (c.addResponse isOpen connOpen r) ∧
        (c.addResponse isOpen connOpen r).sent = (if asked then [.continue] else []) ∧
        (asked = true → r.t = .successPartial) := by
  obtain ⟨hr, hp⟩ :=
    Cursor.addResponse_open isOpen connOpen h.valid hw h.closeCb h.closeAsap h.closePromise
  set c₁ := c.received r
  set c' := c.addResponse isOpen connOpen r
  have hopen : OpenCursor c₁ :=
    ⟨hr.valid, hr.closeCb.trans h.closeCb, hr.closeAsap.trans h.closeAsap,
      hr.closePromise.trans h.closePromise, hr.thrown.trans h.thrown, hr.sent.trans h.sent⟩
  have hout₁ : c₁.outstandingRequests = 0 := by rw [hr.outstandingRequests, hout]; rfl
  have hrep : c'.delivered ++ c'.buffered = c.delivered ++ c.buffered ++ r.replies := by
    rw [hp.replies, hr.buffered, Cursor.delivered, hr.calls, List.append_assoc]
    rfl
  have hend : c.Told 0 → ∃ k, c'.Told k ∧ (k = 0 ∨ c'.endFlag = true ∧ c'.responses = []) :=
    fun ht => hp.told hopen.closePromise 0 (ht.of_eq hr.calls) (.inl rfl)
  refine ⟨hp.flags.1.trans hr.endFlag, ?_⟩
  rcases hp.asked with ⟨h1, h2, h3⟩ | ⟨-, he, -, h1, h2, h3⟩
  · exact ⟨false, ⟨hopen.of_prompted hp, hrep, h1.trans hr.contFlag, h2.trans hout₁,
      hp.waiting, hend⟩, h3.trans hopen.sent, fun h => by cases h⟩
  · refine ⟨true, ⟨hopen.of_prompted hp, hrep, h1, ?_, hp.waiting, hend⟩, ?_, fun _ => ?_⟩
    · rw [h2, hout₁]
      rfl
    · rw [h3, hopen.sent]
      rfl
    · by_contra ht
      rw [hr.endFlag, if_neg ht] at he
      cases he

lemma OpenCursor.next {c : Cursor} (h : OpenCursor c) (isOpen : Bool) (cb : ℕ)
    (hout : c.outstandingRequests = if c.contFlag then 1 else 0) :
    (c.next isOpen cb).endFlag = c.endFlag ∧
      ∃ asked, Advanced isOpen c [] asked (c.next isOpen cb) ∧
        (asked = c.contFlag ∧ (c.next isOpen cb).sent = [] ∨
          c.endFlag = false ∧ c.contFlag = false ∧ asked = true ∧
          (c.next isOpen cb).sent = [.continue]) := by
  have hp := Cursor.next_prompted isOpen cb h.valid
  refine ⟨hp.flags.1, ?_⟩
  have hrep : (c.next isOpen cb).delivered ++ (c.next isOpen cb).buffered =
      c.delivered ++ c.buffered ++ [] := by rw [hp.replies, List.append_nil]
  have htold := fun ht : c.Told 0 => hp.told h.closePromise 0 ht (.inl rfl)
  rcases hp.asked with ⟨h1, h2, h3⟩ | ⟨hc, he, -, h1, h2, h3⟩
  · exact ⟨c.contFlag, ⟨h.of_prompted hp, hrep, h1, h2.trans hout, hp.waiting, htold⟩,
      .inl ⟨rfl, h3.trans h.sent⟩⟩
  · refine ⟨true, ⟨h.of_prompted hp, hrep, h1, ?_, hp.waiting, htold⟩,
      .inr ⟨he, hc, rfl, by rw [h3, h.sent]; rfl⟩⟩
    rw [h2, hout, hc]
    rfl

lemma deliver_of_nil (h : s.toClient = []) : s.deliver = s := by
  rw [Session.deliver, h]

lemma deliver_of_cons {r : Response} {rest : List Response} (ho : s.opened = true)
    (ha : s.client.accepts r = true) (h : s.toClient = r :: rest) : s.deliver =
      { s with toClient := rest }.onClient fun q => q.processResponse (!s.closing) true r := by
  rw [Session.deliver, h]
  simp [ho, ha]

lemma deliver_of_refused {r : Response} {rest : List Response} (ha : s.client.accepts r = false)
    (h : s.toClient = r :: rest) : s.deliver = s := by
  rw [Session.deliver, h]
  simp [ha]

lemma accepts_of_outstanding {q : Client} (h : q.outstanding ≠ some .callback) (r : Response) :
    q.accepts r = true := by
  simp [Client.accepts, h]

lemma accepts_of_type {r : Response} (h : r.t ≠ .successPartial) (q : Client) :
    q.accepts r = true := by
  simp [Client.accepts, h]

lemma reading_of_advanced {isOpen : Bool} {c c' : Cursor} {more rest : List Reply} {asked : Bool}
    {st : Stream} {s' : Session} (h : Advanced isOpen c more asked c')
    (hend : c'.endFlag = false) (ht0 : c.Told 0)
    (htot : c.delivered ++ c.buffered ++ (more ++ rest) = planReplies plan)
    (hst : rest = st.replies)
    (hcl : s'.client = ⟨some .cursor, some { c' with sent := [] }, [.cursor]⟩)
    (hs : s'.toServer = if asked then [.continue] else []) (hj : s'.jobs = [])
    (ht : s'.toClient = []) (he : s'.entry = some (reading st)) (hopen : isOpen = !s'.closing) :
    Reading plan s' { c' with sent := [] } rest := by
  refine ⟨hcl, h.cursor, hend, ?_, ?_, ?_, fun hq => ?_⟩
  · obtain ⟨k, hk, rfl | ⟨he, -⟩⟩ := h.told ht0
    · exact hk
    · exact absurd (hend.symm.trans he) (by simp)
  · rw [← htot, ← List.append_assoc, ← h.replies]
    rfl
  · cases asked with
    | false => exact .inl ⟨h.contFlag, h.outstandingRequests, ⟨hs, hj, ht⟩, st, he, hst⟩
    | true =>
      refine .inr ⟨h.contFlag, h.outstandingRequests, ?_⟩
      rw [hst]
      exact .contAsked st hs he hj ht
  · obtain ⟨h1, h2⟩ := h.waiting hq
    refine ⟨h1, ?_⟩
    rcases h2 with h2 | h2 | h2
    · exact absurd (hend.symm.trans h2) (by simp)
    · exact .inl h2
    · rw [hopen] at h2
      exact .inr (by simpa using h2)

lemma ended_of_advanced {isOpen : Bool} {c c' : Cursor} {more : List Reply}
    {s' : Session} (h : Advanced isOpen c more false c')
    (hend : c'.endFlag = true) (htold : ∃ k, c'.Told k ∧ (k = 0 ∨ c'.responses = []))
    (htot : c.delivered ++ c.buffered ++ more = planReplies plan)
    (hcl : s'.client = ⟨none, some { c' with sent := [] }, [.cursor]⟩) (hs : Still s')
    (he : s'.entry = none) : Ended plan s' { c' with sent := [] } := by
  refine ⟨hcl, h.cursor, hend, ⟨h.contFlag, h.outstandingRequests⟩, ?_, htold,
    fun hq => (h.waiting hq).1, hs, he⟩
  rw [← htot, ← h.replies]
  rfl

lemma Advanced.told_end {isOpen asked : Bool} {c c' : Cursor} {more : List Reply}
    (h : Advanced isOpen c more asked c') (ht : c.Told 0) :
    ∃ k, c'.Told k ∧ (k = 0 ∨ c'.responses = []) := by
  obtain ⟨k, hk, he⟩ := h.told ht
  exact ⟨k, hk, he.imp id And.right⟩

lemma new_told : Cursor.new.Told 0 := rfl

lemma new_openCursor : OpenCursor Cursor.new :=
  ⟨⟨fun _ h => by simp [Cursor.new] at h, fun _ h => by simp [Cursor.new] at h, fun _ => rfl⟩,
    rfl, rfl, rfl, rfl, rfl⟩

lemma deliver_cursor {c : Cursor} {r : Response} (ho : s.opened = true) (ht : s.toClient = [r])
    (hs : s.toServer = []) (hcl : s.client = ⟨some .cursor, some c, [.cursor]⟩)
    (hc : OpenCursor c) (hout : c.outstandingRequests = 1) (hw : r.WellFormed) :
    ∃ c' asked, Advanced (!s.closing) c r.replies asked c' ∧
      c'.endFlag = (if r.t = .successPartial then c.endFlag else true) ∧
      (asked = true → r.t = .successPartial) ∧
      s.deliver = { s with
        toClient := []
        client :=
          ⟨if c'.endFlag && !asked then none else some .cursor,
            some { c' with sent := [] }, [.cursor]⟩
        toServer := if asked then [.continue] else [] } := by
  obtain ⟨hend, asked, hadv, hsent, hlast⟩ := hc.addResponse hw hout (!s.closing) true
  refine ⟨_, asked, hadv, hend, hlast, ?_⟩
  have hz : decide ((c.addResponse (!s.closing) true r).outstandingRequests = 0) = !asked := by
    rw [hadv.outstandingRequests]
    cases asked <;> rfl
  have hok : s.client.accepts r = true := accepts_of_outstanding (by simp [hcl]) r
  rw [deliver_of_cons ho hok ht, Session.onClient, hcl, hs]
  simp only [Client.processResponse, Client.written, Client.onCursor, Client.sent, Option.map_some,
    Option.getD_some, hsent, List.nil_append, hz]

lemma deliver_first {r : Response} (ho : s.opened = true) (hok : s.client.accepts r = true)
    (ht : s.toClient = [r]) (hs : s.toServer = []) (hcl : s.client = ⟨some .callback, none, []⟩) :
    s.deliver = { s with
      toClient := []
      client := Client.written
        ⟨if r.t = .successPartial then some .cursor else none,
          if r.t.isRows then some (Cursor.new.addResponse (!s.closing) true r)
          else none, [runResult r]⟩
      toServer :=
        if r.t.isRows then (Cursor.new.addResponse (!s.closing) true r).sent else [] } := by
  rw [deliver_of_cons ho hok ht, Session.onClient, hcl, hs]
  simp only [Client.processResponse, Client.sent, List.nil_append]
  split_ifs <;> rfl

lemma runResult_rows {r : Response} (h : r.t.isRows = true) : runResult r = .cursor := by
  rw [runResult]
  cases ht : r.t <;> first | rfl | simp [ht, ResponseType.isRows] at h

lemma Answer.partial_stream {r : Response} {next : Option Stream} {rest : List Reply}
    (h : Answer r next rest) (ht : r.t = .successPartial) :
    ∃ st, next = some st ∧ rest = r.replies ++ st.replies := by
  rcases h with ⟨-, h⟩ | ⟨h, -⟩
  · exact h
  · exact absurd ht h

lemma Answer.last {r : Response} {next : Option Stream} {rest : List Reply} (h : Answer r next rest)
    (ht : r.t ≠ .successPartial) : next = none ∧ rest = r.replies := by
  rcases h with ⟨h, -⟩ | ⟨-, h⟩
  · exact absurd h ht
  · exact h

lemma deliver_asking {r : Response} {next : Option Stream} (ho : s.opened = true)
    (hok : s.client.accepts r = true) (hcl : s.client = ⟨some .callback, none, []⟩)
    (hs : s.toServer = []) (hj : s.jobs = []) (ht : s.toClient = [r]) (hw : r.WellFormed)
    (he : s.entry = next.map reading) (ha : Answer r next (planReplies plan)) :
    Live plan s.deliver := by
  rw [deliver_first ho hok ht hs hcl]
  by_cases hrows : r.t.isRows = true
  · obtain ⟨hend, asked, hadv, hsent, hlast⟩ := new_openCursor.addResponse hw rfl (!s.closing) true
    by_cases hp : r.t = .successPartial
    · obtain ⟨st, rfl, hrest⟩ := ha.partial_stream hp
      refine .reading _ st.replies (reading_of_advanced hadv ?_ new_told hrest.symm rfl ?_ ?_ hj
        rfl he rfl)
      · rw [hend, if_pos hp]
        rfl
      · simp only [hp, if_true, runResult_rows hrows]
        rfl
      · simp only [hrows, if_true, hsent]
    · obtain ⟨rfl, hrest⟩ := ha.last hp
      obtain rfl : asked = false := by
        cases asked with
        | false => rfl
        | true => exact absurd (hlast rfl) hp
      refine .ended _ (ended_of_advanced hadv ?_ (hadv.told_end new_told) hrest.symm ?_ ⟨?_,
        hj, rfl⟩ he)
      · rw [hend, if_neg hp]
      · simp only [hrows, hp, if_true, if_false, runResult_rows hrows]
        rfl
      · simp only [hrows, if_true, hsent]
        rfl
  · have hp : r.t ≠ .successPartial := fun h => hrows (by rw [h]; rfl)
    obtain ⟨rfl, -⟩ := ha.last hp
    refine .answered (runResult r) ?_ ⟨by simp [hrows], hj, rfl⟩ he
    simp only [hrows, hp, if_false]
    rfl

lemma deliver_reading {c : Cursor} {rest : List Reply} (ho : s.opened = true)
    (h : Reading plan s c rest) : Live plan s.deliver := by
  rcases h.flight with ⟨-, -, hst, -⟩ | ⟨hcont, hout, hf⟩
  · rw [deliver_of_nil hst.toClient]
    exact .reading c rest h
  · cases hf with
    | contAsked st h1 h2 h3 h4 =>
      rw [deliver_of_nil h4]
      exact .reading c _ h
    | contServed st h1 h2 h3 h4 =>
      rw [deliver_of_nil h4]
      exact .reading c _ h
    | answered first r next rest h1 h2 h3 h4 h5 h6 =>
      obtain ⟨c', asked, hadv, hend, hlast, hs'⟩ :=
        deliver_cursor ho h3 h1 h.client h.cursor hout h4
      rw [hs']
      by_cases hp : r.t = .successPartial
      · obtain ⟨st, rfl, rfl⟩ := h6.partial_stream hp
        have hend' : c'.endFlag = false := by rw [hend, if_pos hp, h.endFlag]
        refine .reading _ _ (reading_of_advanced hadv hend' h.told h.total rfl ?_ rfl h2 rfl h5 rfl)
        simp [hend']
      · obtain ⟨rfl, rfl⟩ := h6.last hp
        have hend' : c'.endFlag = true := by rw [hend, if_neg hp]
        obtain rfl : asked = false := by
          cases asked with
          | false => rfl
          | true => exact absurd (hlast rfl) hp
        refine .ended _ (ended_of_advanced hadv hend' (hadv.told_end h.told) h.total ?_ ⟨?_,
          h2, rfl⟩ h5)
        · simp [hend']
        · rfl

lemma Live.deliver (ho : s.opened = true) (h : Live plan s) : Live plan s.deliver := by
  cases h with
  | noreply h =>
    rw [deliver_of_nil h.toClient]
    exact .noreply h
  | awaiting h =>
    rcases h.place with ⟨-, -, h3⟩ | ⟨-, -, h3⟩ | ⟨h1, h2, h3⟩
    · rw [deliver_of_nil h3]
      exact .awaiting h
    · rw [deliver_of_nil h3]
      exact .awaiting h
    · rw [deliver_first ho (accepts_of_type (by simp) _) h3 h1 h.client]
      exact .answered .null rfl ⟨rfl, h2, rfl⟩ h.entry
  | asking hcl hf =>
    cases hf with
    | startAsked h1 h2 h3 h4 =>
      rw [deliver_of_nil h4]
      exact .asking hcl (.startAsked h1 h2 h3 h4)
    | startServed h1 h2 h3 h4 =>
      rw [deliver_of_nil h4]
      exact .asking hcl (.startServed h1 h2 h3 h4)
    | answered _ r next _ h1 h2 h3 h4 h5 h6 =>
      cases hok : s.client.accepts r with
      | false =>
        rw [deliver_of_refused hok h3]
        exact .asking hcl (.answered true r next _ h1 h2 h3 h4 h5 h6)
      | true => exact deliver_asking ho hok hcl h1 h2 h3 h4 h5 h6
  | reading c rest h => exact deliver_reading ho h
  | answered result h1 h2 h3 =>
    rw [deliver_of_nil h2.toClient]
    exact .answered result h1 h2 h3
  | ended c h =>
    rw [deliver_of_nil h.still.toClient]
    exact .ended c h

lemma onClient_of_no_cursor (h : s.client.cursor = none) (f : Cursor → Cursor) :
    s.onClient (Client.onCursor f) = s := by
  obtain ⟨opened, closing, ⟨outstanding, cursor, results⟩, toServer, entry, jobs, toClient⟩ := s
  obtain rfl : cursor = none := h
  simp [Session.onClient, Client.onCursor, Client.written, Client.sent]

lemma onClient_cursor {c : Cursor} {outstanding : Option Outstanding} {results : List RunResult}
    (h : s.client = ⟨outstanding, some c, results⟩) (f : Cursor → Cursor) :
    s.onClient (Client.onCursor f) = { s with
      client := ⟨outstanding, some { f c with sent := [] }, results⟩
      toServer := s.toServer ++ (f c).sent } := by
  rw [Session.onClient, h]
  rfl

lemma onClient_of_eq {c : Cursor} {outstanding : Option Outstanding} {results : List RunResult}
    (h : s.client = ⟨outstanding, some c, results⟩) {f : Cursor → Cursor} (hf : f c = c)
    (hc : c.sent = []) :
    s.onClient (Client.onCursor f) = s := by
  rw [onClient_cursor h, hf, hc, List.append_nil]
  obtain ⟨opened, closing, client, toServer, entry, jobs, toClient⟩ := s
  obtain rfl : client = _ := h
  simp [← hc]

end driver

end PersonnelBackend.Connections
