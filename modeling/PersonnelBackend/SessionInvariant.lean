import PersonnelBackend.SessionPhases

/-! What every session of a connection keeps, whatever the application does.
Once a cursor is closed its rows are only a prefix of the plan's, and a `STOP`
or its answer is under way until the driver forgets the token. -/
namespace PersonnelBackend.Connections
open Document Cursors QueryCache

/-! ### Closed cursors -/

def rowsOf (replies : List Reply) : List Json :=
  replies.filterMap fun
    | .row value => some value
    | _ => none

@[simp] lemma rowsOf_nil : rowsOf [] = [] := rfl

lemma rowsOf_append (l l' : List Reply) : rowsOf (l ++ l') = rowsOf l ++ rowsOf l' :=
  List.filterMap_append

def entryRows : Option Entry → List Json
  | some ⟨.stream st, _, _, _⟩ => rowsOf st.replies
  | _ => []

/-- An entry whose cursor is being closed: its `STOP` is on the way to the server
or has pulsed the interruptor and waits for the entry. -/
structure Stopping (s : Session) (e : Entry) : Prop where
  state : ∃ st, e.state = .stream st
  noreply : e.noreply = false
  partials : ∀ r ∈ s.toClient, r.t = .successPartial
  stop : e.pulsed = true ∧ e.stopped = true ∧ .stop ∈ s.jobs ∨
    e.pulsed = false ∧ .stop ∉ s.jobs ∧ .stop ∈ s.toServer

/-- A cursor closed before its end, until the driver learns that it is over. -/
structure Shutting (plan : Plan) (s : Session) (c : Cursor) : Prop where
  client : s.client = ⟨some .cursor, some c, [.cursor]⟩
  valid : c.Valid
  closing : c.Closing
  pending : c.closePromise = some .pending
  endFlag : c.endFlag = false
  thrown : c.thrown = false
  sent : c.sent = []
  rows : rowsOf (c.delivered ++ c.buffered ++ s.toClient.flatMap Response.replies) ++
    entryRows s.entry <+:
    rowsOf (planReplies plan)
  toServer : ∀ q ∈ s.toServer, q = .continue ∨ q = .stop
  jobs : ∀ q ∈ s.jobs, q = .continue ∨ q = .stop
  wellFormed : ∀ r ∈ s.toClient, r.WellFormed
  entry : ∀ e, s.entry = some e → Stopping s e
  ends : .stop ∈ s.toServer ∨ .stop ∈ s.jobs ∨ ∃ r ∈ s.toClient, r.t ≠ .successPartial

/-- A cursor whose token the driver has forgotten. -/
structure Forgotten (plan : Plan) (c : Cursor) : Prop where
  valid : c.Valid
  endFlag : c.endFlag = true
  thrown : c.thrown = false
  sent : c.sent = []
  settled : c.closePromise ≠ some .pending
  rows : rowsOf (c.delivered ++ c.buffered) <+: rowsOf (planReplies plan)

/-- The driver is done with the token, because its cursor has been closed or the
connection has. -/
structure Over (plan : Plan) (s : Session) : Prop where
  outstanding : s.client.outstanding = none
  results : s.client.results.length = 1
  cursor : ∀ c, s.client.cursor = some c → Forgotten plan c
  closed : s.opened = true → ∀ c, s.client.cursor = some c → c.closePromise.isSome = true
  server : s.opened = true → s.entry = none ∧ (∀ q ∈ s.toServer, q = .continue ∨ q = .stop) ∧
    ∀ q ∈ s.jobs, q = .continue ∨ q = .stop

/-- The invariant of a session whose token has been given out. -/
inductive Inv (plan : Plan) (s : Session) : Prop
  | live : s.opened = true → Live plan s → Inv plan s
  | shutting (c : Cursor) : s.opened = true → Shutting plan s c → Inv plan s
  | finished : Over plan s → Inv plan s

section rows

variable {plan : Plan} {s : Session}

@[simp] lemma entryRows_reading (st : Stream) : entryRows (some (reading st)) = rowsOf st.replies :=
  rfl

@[simp] lemma entryRows_none : entryRows none = [] := rfl

lemma entryRows_of_stream {e : Entry} {st : Stream} (h : e.state = .stream st) :
    entryRows (some e) = rowsOf st.replies := by
  obtain ⟨state, noreply, pulsed, stopped⟩ := e
  obtain rfl : state = .stream st := h
  rfl

lemma Flight.rows {rest : List Reply} (h : Flight plan s false rest) :
    rowsOf (s.toClient.flatMap Response.replies) ++ entryRows s.entry = rowsOf rest := by
  cases h with
  | contAsked st h1 h2 h3 h4 => simp [h2, h4]
  | contServed st h1 h2 h3 h4 => simp [h2, h4]
  | answered _ r next _ h1 h2 h3 h4 h5 h6 =>
    rcases h6 with ⟨-, st, rfl, rfl⟩ | ⟨-, rfl, rfl⟩
    · simp [h3, h5, rowsOf_append]
    · simp [h3, h5]

lemma Reading.rows {c : Cursor} {rest : List Reply} (h : Reading plan s c rest) :
    rowsOf (c.delivered ++ c.buffered ++ s.toClient.flatMap Response.replies) ++ entryRows s.entry =
      rowsOf (planReplies plan) := by
  have hrest : rowsOf (s.toClient.flatMap Response.replies) ++ entryRows s.entry = rowsOf rest := by
    rcases h.flight with ⟨-, -, hst, st, he, rfl⟩ | ⟨-, -, hf⟩
    · simp [hst.toClient, he]
    · exact hf.rows
  rw [rowsOf_append, List.append_assoc, hrest, ← rowsOf_append, h.total]

lemma rowsOf_prefix_left {l l' : List Reply} {rows : List Json} (h : rowsOf (l ++ l') <+: rows) :
    rowsOf l <+: rows := by
  rw [rowsOf_append] at h
  exact (List.prefix_append _ _).trans h

end rows

/-! ### Forgotten tokens -/

section finished

variable {plan : Plan} {token : ℕ} {s : Session} {c : Cursor}

lemma Forgotten.of_eq {c' : Cursor} (h : Forgotten plan c) (hr : c'.responses = c.responses)
    (hi : c'.responseIndex = c.responseIndex) (hc : c'.calls = c.calls)
    (he : c'.endFlag = c.endFlag) (ht : c'.thrown = c.thrown) (hs : c'.sent = c.sent)
    (hp : c'.closePromise ≠ some .pending) :
    Forgotten plan c' := by
  refine ⟨h.valid.of_eq hr hi, he.trans h.endFlag, ht.trans h.thrown, hs.trans h.sent, hp, ?_⟩
  rw [Cursor.buffered_of_eq hr hi, Cursor.delivered, hc]
  exact h.rows

lemma Forgotten.cleared {c' : Cursor} (h : Forgotten plan c) (hr : c'.responses = [])
    (hi : c'.responseIndex = 0) (hc : c'.calls = c.calls) (he : c'.endFlag = c.endFlag)
    (ht : c'.thrown = c.thrown) (hs : c'.sent = c.sent) (hp : c'.closePromise ≠ some .pending) :
    Forgotten plan c' := by
  have hb : c'.buffered = [] := by rw [Cursor.buffered, hr]
  refine ⟨⟨fun x hx => by simp [hr] at hx, fun x hx => by simp [hr] at hx, fun _ => hi⟩,
    he.trans h.endFlag, ht.trans h.thrown, hs.trans h.sent, hp, ?_⟩
  rw [hb, List.append_nil, Cursor.delivered, hc]
  exact rowsOf_prefix_left h.rows

lemma Forgotten.next (h : Forgotten plan c) (isOpen : Bool) (cb : ℕ) :
    Forgotten plan (c.next isOpen cb) := by
  have hp := Cursor.next_prompted isOpen cb h.valid
  refine ⟨hp.valid, hp.flags.1.trans h.endFlag, hp.flags.2.2.2.2.trans h.thrown, ?_,
    hp.flags.2.2.2.1.trans_ne h.settled, hp.replies ▸ h.rows⟩
  rcases hp.asked with ⟨-, -, h3⟩ | ⟨-, he, -⟩
  · exact h3.trans h.sent
  · exact absurd (he.symm.trans h.endFlag) (by simp)

lemma Forgotten.close (h : Forgotten plan c) (connOpen : Bool) :
    Forgotten plan (c.close connOpen) := by
  rw [Cursor.close]
  split
  · exact h
  · exact h.of_eq rfl rfl rfl rfl rfl rfl (by simp)
  · rw [if_pos h.endFlag]
    exact h.cleared rfl rfl rfl rfl rfl rfl (by simp)

lemma Forgotten.chained (h : Forgotten plan c) : Forgotten plan
    (if c.closeCb && c.closePromise ≠ some .pending then c.runCloseCb .fulfilled else c) := by
  split_ifs
  · refine h.cleared rfl rfl rfl rfl rfl rfl ?_
    rw [Cursor.runCloseCb, if_neg h.settled]
    exact h.settled
  · exact h

lemma Forgotten.immediate (h : Forgotten plan c) : Forgotten plan c.immediate :=
  h.of_eq rfl rfl rfl rfl rfl rfl h.settled

lemma Forgotten.next_promised (h : Forgotten plan c) (isOpen : Bool) (cb : ℕ)
    (hp : c.closePromise.isSome = true) : (c.next isOpen cb).closePromise.isSome = true :=
  (Cursor.next_prompted isOpen cb h.valid).flags.2.2.2.1 ▸ hp

lemma Forgotten.close_promised (h : Forgotten plan c) (connOpen : Bool) :
    (c.close connOpen).closePromise.isSome = true := by
  rw [Cursor.close]
  split
  · next hp => simp [hp]
  · rfl
  · rw [if_pos h.endFlag]
    rfl

lemma chained_promised (hp : c.closePromise.isSome = true) :
    (if c.closeCb && c.closePromise ≠ some .pending then c.runCloseCb .fulfilled
      else c).closePromise.isSome = true := by
  split_ifs
  · rw [Cursor.runCloseCb]
    split_ifs
    · rfl
    · exact hp
  · exact hp

lemma Over.onCursor (h : Over plan s) {f : Cursor → Cursor}
    (hf : ∀ c, Forgotten plan c → Forgotten plan (f c) ∧
      (c.closePromise.isSome = true → (f c).closePromise.isSome = true)) :
    Over plan (s.onClient (Client.onCursor f)) := by
  obtain ⟨opened, closing, ⟨outstanding, cursor, results⟩, toServer, entry, jobs, toClient⟩ := s
  cases cursor with
  | none =>
    rw [onClient_of_no_cursor rfl]
    exact h
  | some c =>
    obtain ⟨hc, hp⟩ := hf c (h.cursor c rfl)
    rw [onClient_cursor rfl]
    refine ⟨h.outstanding, h.results, fun c' hc' => ?_, fun ho c' hc' => ?_, ?_⟩
    · obtain rfl : { f c with sent := [] } = c' := Option.some.inj hc'
      exact hc.of_eq rfl rfl rfl rfl rfl hc.sent.symm hc.settled
    · obtain rfl : { f c with sent := [] } = c' := Option.some.inj hc'
      exact hp (h.closed ho c rfl)
    · simp only [hc.sent, List.append_nil]
      exact h.server

lemma Over.arrive (h : Over plan s) : Over plan (s.arrive plan token) := by
  cases hs : s.toServer with
  | nil =>
    rw [arrive_of_nil hs]
    exact h
  | cons query rest =>
    rw [arrive_of_cons hs]
    refine ⟨h.outstanding, h.results, h.cursor, h.closed, fun ho => ?_⟩
    obtain ⟨he, hq, hj⟩ := h.server ho
    rw [hs] at hq
    have ha : arrival plan token s.entry query = (none, some (notInCache token)) := by
      rw [he]
      rcases hq query List.mem_cons_self with rfl | rfl <;> rfl
    exact ⟨by rw [ha], fun q hmem => hq q (List.mem_cons_of_mem _ hmem), by simpa [ha] using hj⟩

lemma completion_none (plan : Plan) (token : ℕ) (interrupted : Bool) (query : Query) :
    ∃ response, completion plan token interrupted none query = some (none, response) := by
  cases query <;> exact ⟨_, rfl⟩

lemma Over.finish (h : Over plan s) (interrupted : Bool) :
    Over plan (s.finish plan token interrupted) := by
  cases hj : s.jobs with
  | nil =>
    rw [finish_of_nil hj]
    exact h
  | cons query rest =>
    cases hc : completion plan token interrupted s.entry query with
    | none =>
      rw [finish_of_none hj hc]
      exact h
    | some a =>
      rw [finish_of_some hj hc]
      refine ⟨h.outstanding, h.results, h.cursor, h.closed, fun ho => ?_⟩
      obtain ⟨he, hq, hj'⟩ := h.server ho
      obtain ⟨response, hnone⟩ := completion_none plan token interrupted query
      rw [he, hnone] at hc
      exact ⟨(congrArg Prod.fst (Option.some.inj hc)).symm, hq,
        fun q hmem => hj' q (hj ▸ List.mem_cons_of_mem _ hmem)⟩

lemma Over.deliver (h : Over plan s) : Over plan s.deliver := by
  rw [Session.deliver]
  split
  · exact h
  · next r rest hr =>
    split_ifs with ho
    · obtain ⟨opened, closing, ⟨outstanding, cursor, results⟩, toServer, entry, jobs, toClient⟩ := s
      obtain rfl : outstanding = none := h.outstanding
      have hid :=
        Over.onCursor (f := id) (s := ⟨opened, closing, ⟨none, cursor, results⟩, toServer, entry,
          jobs, rest⟩) ⟨h.outstanding, h.results, h.cursor, h.closed, h.server⟩ fun _ hc => ⟨hc, id⟩
      simpa [Session.onClient, Client.processResponse, Client.onCursor] using hid
    · exact h

lemma Over.of_cut (ho : s.opened = false) (h1 : s.client.outstanding = none)
    (h2 : s.client.results.length = 1) (h3 : ∀ c, s.client.cursor = some c → Forgotten plan c) :
    Over plan s :=
  ⟨h1, h2, h3, fun h => absurd (ho.symm.trans h) (by simp),
    fun h => absurd (ho.symm.trans h) (by simp)⟩

lemma Over.step (h : Over plan s) (l : Local) : Over plan (s.step plan token l) := by
  cases l with
  | next cb => exact h.onCursor fun _ hc => ⟨hc.next _ cb, hc.next_promised _ cb⟩
  | closeCursor => exact h.onCursor fun _ hc => ⟨hc.close _, fun _ => hc.close_promised _⟩
  | chained => exact h.onCursor fun _ hc => ⟨hc.chained, chained_promised⟩
  | immediate => exact h.onCursor fun _ hc => ⟨hc.immediate, id⟩
  | closing => exact ⟨h.outstanding, h.results, h.cursor, h.closed, h.server⟩
  | shut =>
    have hq : s.client.cancel = s.client := by rw [Client.cancel, h.outstanding]
    rw [Session.step, hq]
    exact .of_cut rfl h.outstanding h.results h.cursor
  | arrive => exact h.arrive
  | finish interrupted => exact h.finish interrupted
  | deliver => exact h.deliver

end finished

/-! ### Calls of the application on a cursor that has not been closed -/

section live

variable {plan : Plan} {token : ℕ} {s : Session} {c : Cursor} {rest : List Reply}

lemma Reading.outstanding (h : Reading plan s c rest) :
    c.outstandingRequests = if c.contFlag then 1 else 0 := by
  rcases h.flight with ⟨h1, h2, -⟩ | ⟨h1, h2, -⟩ <;> simp [h1, h2]

lemma step_next {outstanding : Option Outstanding} {results : List RunResult} (ho : s.opened = true)
    (h : s.client = ⟨outstanding, some c, results⟩) (cb : ℕ) :
    s.step plan token (.next cb) = { s with
      client := ⟨outstanding, some { c.next (!s.closing) cb with sent := [] }, results⟩
      toServer := s.toServer ++ (c.next (!s.closing) cb).sent } := by
  rw [Session.step, onClient_cursor h, ho]
  simp

lemma Reading.next (ho : s.opened = true) (h : Reading plan s c rest) (cb : ℕ) :
    Live plan (s.step plan token (.next cb)) := by
  obtain ⟨hend, asked, hadv, hcases⟩ := h.cursor.next (!s.closing) cb h.outstanding
  rw [step_next ho h.client]
  have hend' : (c.next (!s.closing) cb).endFlag = false := hend.trans h.endFlag
  rcases hcases with ⟨rfl, hsent⟩ | ⟨-, hc, rfl, hsent⟩
  · -- nothing is sent: the flight is the one from before
    refine .reading _ rest ⟨rfl, hadv.cursor, hend', ?_, ?_, ?_, fun hq => ?_⟩
    · obtain ⟨k, hk, rfl | ⟨he, -⟩⟩ := hadv.told h.told
      · exact hk
      · exact absurd (hend'.symm.trans he) (by simp)
    · rw [← h.total]
      exact congrArg (· ++ rest) (hadv.replies.trans (List.append_nil _))
    · simp only [hsent, List.append_nil]
      rcases h.flight with ⟨h1, h2, h3, h4⟩ | ⟨h1, h2, h3⟩
      · exact .inl ⟨hadv.contFlag.trans h1, by simp [hadv.outstandingRequests, h1],
          ⟨h3.toServer, h3.jobs, h3.toClient⟩, h4⟩
      · exact .inr ⟨hadv.contFlag.trans h1, by simp [hadv.outstandingRequests, h1],
          h3.congr rfl rfl rfl rfl⟩
    · obtain ⟨h1, h2⟩ := hadv.waiting hq
      refine ⟨h1, ?_⟩
      rcases h2 with h2 | h2 | h2
      · exact absurd (hend'.symm.trans h2) (by simp)
      · exact .inl h2
      · exact .inr (by simpa using h2)
  · rcases h.flight with ⟨-, -, h3, st, he, hst⟩ | ⟨hc', -⟩
    · refine .reading _ rest (reading_of_advanced hadv hend' h.told ?_ hst rfl ?_ h3.jobs
        h3.toClient he rfl)
      · rw [List.nil_append, h.total]
      · simp [h3.toServer, hsent]
    · exact absurd (hc.symm.trans hc') (by simp)

lemma Ended.next (ho : s.opened = true) (h : Ended plan s c) (cb : ℕ) :
    Live plan (s.step plan token (.next cb)) := by
  have hout : c.outstandingRequests = if c.contFlag then 1 else 0 := by simp [h.idle.1, h.idle.2]
  obtain ⟨hend, asked, hadv, hcases⟩ := h.cursor.next (!s.closing) cb hout
  rw [step_next ho h.client]
  rcases hcases with ⟨rfl, hsent⟩ | ⟨he, -⟩
  · rw [h.idle.1] at hadv
    have hp := Cursor.next_prompted (!s.closing) cb h.cursor.valid
    have htold : ∃ k, (c.next (!s.closing) cb).Told k ∧
        (k = 0 ∨ (c.next (!s.closing) cb).responses = []) := by
      obtain ⟨k, hk, hempty⟩ := h.told
      obtain ⟨k', hk', rfl | ⟨-, hr⟩⟩ := hp.told h.cursor.closePromise k hk hempty
      · exact ⟨k', hk', hempty.imp id hp.empty⟩
      · exact ⟨k', hk', .inr hr⟩
    refine .ended _ (ended_of_advanced hadv (hend.trans h.endFlag) htold ?_ rfl
      ⟨by simp [hsent, h.still.toServer], h.still.jobs, h.still.toClient⟩ h.entry)
    rw [List.append_nil, h.total]
  · exact absurd (he.symm.trans h.endFlag) (by simp)

lemma Reading.places (h : Reading plan s c rest) :
    (∀ q ∈ s.toServer, q = .continue) ∧ (∀ q ∈ s.jobs, q = .continue) ∧
      (∀ r ∈ s.toClient, r.WellFormed) ∧
      ∀ e, s.entry = some e → (∃ st, e = reading st) ∧ ∀ r ∈ s.toClient, r.t = .successPartial := by
  have single : ∀ {x : List Query}, x = [] ∨ x = [.continue] → ∀ q ∈ x, q = .continue := by
    rintro x (rfl | rfl) q hq
    · cases hq
    · exact List.mem_singleton.mp hq
  rcases h.flight with ⟨-, -, h3, st, he, -⟩ | ⟨-, -, hf⟩
  · refine ⟨single (.inl h3.toServer), single (.inl h3.jobs), by simp [h3.toClient],
      fun e hs => ⟨⟨st, ?_⟩, ?_⟩⟩
    · exact Option.some.inj (hs.symm.trans he)
    · simp [h3.toClient]
  · cases hf with
    | contAsked st h1 h2 h3 h4 =>
      exact ⟨single (.inr h1), single (.inl h3), by simp [h4], fun e hs =>
        ⟨⟨st, Option.some.inj (hs.symm.trans h2)⟩, by simp [h4]⟩⟩
    | contServed st h1 h2 h3 h4 =>
      exact ⟨single (.inl h1), single (.inr h3), by simp [h4], fun e hs =>
        ⟨⟨st, Option.some.inj (hs.symm.trans h2)⟩, by simp [h4]⟩⟩
    | answered _ r next _ h1 h2 h3 h4 h5 h6 =>
      refine ⟨single (.inl h1), single (.inl h2), by simpa [h3] using h4, fun e hs => ?_⟩
      rw [h5] at hs
      obtain ⟨st, hst, rfl⟩ := Option.map_eq_some_iff.mp hs
      refine ⟨⟨st, rfl⟩, ?_⟩
      by_cases hp : r.t = .successPartial
      · simpa [h3] using hp
      · exact absurd ((h6.last hp).1.symm.trans hst) (by simp)

lemma Reading.closeCursor (ho : s.opened = true) (h : Reading plan s c rest) :
    ∃ c', Shutting plan (s.step plan token .closeCursor) c' := by
  obtain ⟨hS, hJ, hC, hE⟩ := h.places
  have hclose : c.close true = { c with
      closeCb := true
      closeAsap := true
      outstandingRequests := c.outstandingRequests + 1
      closePromise := some .pending
      sent := [.stop] } := by
    simp [Cursor.close, h.cursor.closePromise, h.endFlag, h.cursor.sent]
  rw [Session.step, onClient_cursor h.client, ho, hclose]
  refine ⟨_, rfl, h.cursor.valid.of_eq rfl rfl, ⟨rfl, rfl, rfl⟩, rfl, h.endFlag, h.cursor.thrown,
    rfl, ?_, ?_, fun q hq => .inl (hJ q hq), hC, fun e he => ?_, .inl (by simp)⟩
  · exact h.rows ▸ List.prefix_rfl
  · intro q hq
    rcases List.mem_append.mp hq with hq | hq
    · exact .inl (hS q hq)
    · exact .inr (List.mem_singleton.mp hq)
  · obtain ⟨⟨st, rfl⟩, hpart⟩ := hE e he
    have hjobs : Query.stop ∉ s.jobs := fun hs => Query.noConfusion (hJ _ hs)
    have hserver : Query.stop ∈ s.toServer ++ [.stop] := by simp
    exact ⟨⟨st, rfl⟩, rfl, hpart, .inr ⟨rfl, hjobs, hserver⟩⟩

lemma Ended.forgotten (h : Ended plan s c) : Forgotten plan c :=
  ⟨h.cursor.valid, h.endFlag, h.cursor.thrown, h.cursor.sent, by simp [h.cursor.closePromise],
    h.total ▸ List.prefix_rfl⟩

lemma Ended.closeCursor (h : Ended plan s c) : Over plan (s.step plan token .closeCursor) := by
  have hf := h.forgotten.close s.opened
  rw [Session.step, onClient_cursor h.client]
  refine ⟨rfl, rfl, fun c' hc' => ?_, fun _ c' hc' => ?_, fun _ => ⟨h.entry, ?_, ?_⟩⟩
  · obtain rfl := Option.some.inj hc'
    exact hf.of_eq rfl rfl rfl rfl rfl hf.sent.symm hf.settled
  · obtain rfl := Option.some.inj hc'
    exact h.forgotten.close_promised s.opened
  · simp [hf.sent, h.still.toServer]
  · simp [h.still.jobs]

lemma Ended.shut (h : Ended plan s c) : Over plan (s.step plan token .shut) := by
  rw [Session.step, h.client]
  refine .of_cut rfl rfl rfl fun c' hc' => ?_
  obtain rfl := Option.some.inj hc'
  exact h.forgotten

lemma OpenCursor.cut (h : OpenCursor c)
    (hrows : rowsOf (c.delivered ++ c.buffered) <+: rowsOf (planReplies plan)) :
    Forgotten plan (c.addResponse false false connectionClosed) := by
  have hw : connectionClosed.WellFormed := fun _ => by simp [connectionClosed, errorResponse]
  obtain ⟨hr, hp⟩ :=
    Cursor.addResponse_open false false h.valid hw h.closeCb h.closeAsap h.closePromise
  have hend : (c.received connectionClosed).endFlag = true := hr.endFlag
  refine ⟨hp.valid, hp.flags.1.trans hend, hp.flags.2.2.2.2.trans (hr.thrown.trans h.thrown),
    ?_, ?_, ?_⟩
  · rcases hp.asked with ⟨-, -, h3⟩ | ⟨-, he, -⟩
    · exact h3.trans (hr.sent.trans h.sent)
    · exact absurd (he.symm.trans hend) (by simp)
  · simp [hp.flags.2.2.2.1, hr.closePromise, h.closePromise]
  · rw [hp.replies, hr.buffered, Cursor.delivered, hr.calls, ← List.append_assoc, rowsOf_append]
    have hno : rowsOf connectionClosed.replies = [] := by
      rw [connectionClosed, errorResponse_replies rfl]
      rfl
    rw [hno, List.append_nil]
    exact hrows

lemma Reading.shut (h : Reading plan s c rest) : Over plan (s.step plan token .shut) := by
  have hrows : rowsOf (c.delivered ++ c.buffered) <+: rowsOf (planReplies plan) := by
    rw [← h.total]
    exact rowsOf_prefix_left List.prefix_rfl
  refine .of_cut rfl ?_ ?_ fun c' hc' => ?_
  · rw [Session.step, h.client]
    rfl
  · rw [Session.step, h.client]
    rfl
  · rw [Session.step, h.client] at hc'
    exact Option.some.inj hc' ▸ h.cursor.cut hrows

lemma Live.shut (h : Live plan s) : Over plan (s.step plan token .shut) := by
  cases h with
  | noreply h =>
    rw [Session.step, h.client]
    exact .of_cut rfl rfl rfl fun _ hc => by cases hc
  | awaiting h =>
    rw [Session.step, h.client]
    exact .of_cut rfl rfl rfl fun _ hc => by cases hc
  | asking h1 h2 =>
    rw [Session.step, h1]
    exact .of_cut rfl rfl rfl fun _ hc => by cases hc
  | reading c rest h => exact h.shut
  | answered result h1 h2 h3 =>
    rw [Session.step, h1]
    exact .of_cut rfl rfl rfl fun _ hc => by cases hc
  | ended c h => exact h.shut

lemma Live.closing (h : Live plan s) : Live plan (s.step plan token .closing) := by
  cases h with
  | noreply h => exact .noreply ⟨h.client, h.toClient, h.place⟩
  | awaiting h => exact .awaiting ⟨h.client, h.entry, h.place⟩
  | asking h1 h2 => exact .asking h1 (h2.congr rfl rfl rfl rfl)
  | reading c rest h =>
    refine .reading c rest ⟨h.client, h.cursor, h.endFlag, h.told, h.total, ?_,
      fun hq => ⟨(h.waiting hq).1, .inr rfl⟩⟩
    rcases h.flight with ⟨h1, h2, h3, h4⟩ | ⟨h1, h2, h3⟩
    · exact .inl ⟨h1, h2, ⟨h3.toServer, h3.jobs, h3.toClient⟩, h4⟩
    · exact .inr ⟨h1, h2, h3.congr rfl rfl rfl rfl⟩
  | answered result h1 h2 h3 => exact .answered result h1 ⟨h2.toServer, h2.jobs, h2.toClient⟩ h3
  | ended c h =>
    exact .ended c ⟨h.client, h.cursor, h.endFlag, h.idle, h.total, h.told, h.waiting,
      ⟨h.still.toServer, h.still.jobs, h.still.toClient⟩, h.entry⟩

lemma onClient_immediate {outstanding : Option Outstanding} {results : List RunResult}
    (h : s.client = ⟨outstanding, some c, results⟩) (hs : c.sent = []) :
    s.onClient (Client.onCursor Cursor.immediate) =
      { s with client := ⟨outstanding, some c.immediate, results⟩ } := by
  have hsent : c.immediate.sent = [] := hs
  have hsame : { c.immediate with sent := [] } = c.immediate := by rw [← hsent]
  rw [onClient_cursor h, hsame, hsent, List.append_nil]

lemma OpenCursor.immediate (h : OpenCursor c) : OpenCursor c.immediate :=
  ⟨h.valid.of_eq rfl rfl, h.closeCb, h.closeAsap, h.closePromise, h.thrown, h.sent⟩

lemma Reading.immediate (h : Reading plan s c rest) : Live plan (s.step plan token .immediate) := by
  rw [Session.step, onClient_immediate h.client h.cursor.sent]
  refine .reading c.immediate rest ⟨rfl, h.cursor.immediate, h.endFlag, h.told.of_eq rfl,
    h.total, ?_, h.waiting⟩
  rcases h.flight with ⟨h1, h2, h3, h4⟩ | ⟨h1, h2, h3⟩
  · exact .inl ⟨h1, h2, ⟨h3.toServer, h3.jobs, h3.toClient⟩, h4⟩
  · exact .inr ⟨h1, h2, h3.congr rfl rfl rfl rfl⟩

lemma Ended.immediate (h : Ended plan s c) : Live plan (s.step plan token .immediate) := by
  obtain ⟨k, hk, hempty⟩ := h.told
  rw [Session.step, onClient_immediate h.client h.cursor.sent]
  exact .ended c.immediate ⟨rfl, h.cursor.immediate, h.endFlag, h.idle, h.total,
    ⟨k, hk.of_eq rfl, hempty⟩, h.waiting,
    ⟨h.still.toServer, h.still.jobs, h.still.toClient⟩, h.entry⟩

end live

/-! ### Closing cursors -/

section shutting

variable {plan : Plan} {token : ℕ} {s : Session} {c : Cursor}

lemma Shutting.next (ho : s.opened = true) (h : Shutting plan s c) (cb : ℕ) :
    ∃ c', Shutting plan (s.step plan token (.next cb)) c' := by
  have hp := Cursor.next_prompted (!s.closing) cb h.valid
  obtain ⟨he, ha, hcb, hpr, ht⟩ := hp.flags
  rw [step_next ho h.client]
  -- after its `STOP` the cursor may still ask for a batch
  have hsent : ∀ q ∈ (c.next (!s.closing) cb).sent, q = .continue := by
    rcases hp.asked with ⟨-, -, h3⟩ | ⟨-, -, -, -, -, h3⟩
    · rw [h3, h.sent]
      simp
    · rw [h3, h.sent]
      simp
  refine ⟨_, rfl, hp.valid.of_eq rfl rfl,
    ⟨hcb.trans h.closing.closeCb, ha.trans h.closing.closeAsap, ?_⟩, hpr.trans h.pending,
    he.trans h.endFlag, ht.trans h.thrown, rfl, ?_, fun q hq => ?_, h.jobs, h.wellFormed,
    fun e hs => ?_, h.ends.imp (List.mem_append_left _) id⟩
  · exact hpr ▸ h.closing.promised
  · have hrep : ({ c.next (!s.closing) cb with sent := [] } : Cursor).delivered ++
        ({ c.next (!s.closing) cb with sent := [] } : Cursor).buffered =
          c.delivered ++ c.buffered := hp.replies
    rw [hrep]
    exact h.rows
  · rcases List.mem_append.mp hq with hq | hq
    · exact h.toServer q hq
    · exact .inl (hsent q hq)
  · obtain ⟨h1, h2, h3, h4⟩ := h.entry e hs
    exact ⟨h1, h2, h3, h4.imp id fun h => ⟨h.1, h.2.1, List.mem_append_left _ h.2.2⟩⟩

lemma Shutting.cleared {r : Response} (h : Shutting plan s c) (isOpen connOpen : Bool)
    (hr : r.t ≠ .successPartial) : Forgotten plan (c.addResponse isOpen connOpen r) := by
  have hcl := Cursor.addResponse_closing_end isOpen connOpen h.closing hr
  have hb : (c.addResponse isOpen connOpen r).buffered = [] := by
    rw [Cursor.buffered, hcl.responses]
  refine ⟨hcl.valid, hcl.endFlag, hcl.thrown.trans h.thrown, hcl.sent.trans h.sent, hcl.settled, ?_⟩
  have hrows := (List.prefix_append _ _).trans h.rows
  rw [hb, List.append_nil, Cursor.delivered, hcl.calls]
  exact rowsOf_prefix_left (rowsOf_prefix_left hrows)

lemma Shutting.shut (h : Shutting plan s c) : Over plan (s.step plan token .shut) := by
  refine .of_cut rfl ?_ ?_ fun c' hc' => ?_
  · rw [Session.step, h.client]
    rfl
  · rw [Session.step, h.client]
    rfl
  · rw [Session.step, h.client] at hc'
    exact Option.some.inj hc' ▸ h.cleared false false (by simp [connectionClosed, errorResponse])

lemma arrival_closing (plan : Plan) (token : ℕ) {query : Query}
    (h : query = .continue ∨ query = .stop) (entry : Option Entry) :
    entry = none ∧ arrival plan token entry query = (none, some (notInCache token)) ∨
      ∃ e, entry = some e ∧ (query = .continue ∧ arrival plan token entry query = (some e, none) ∨
        query = .stop ∧
          arrival plan token entry query =
            (some { e with pulsed := true, stopped := true }, none)) := by
  cases entry with
  | none => exact .inl ⟨rfl, by rcases h with rfl | rfl <;> rfl⟩
  | some e => exact .inr ⟨e, rfl, h.imp (fun h => ⟨h, by rw [h]; rfl⟩) fun h => ⟨h, by rw [h]; rfl⟩⟩

lemma reply_closing {query : Query} (h : query = .continue ∨ query = .stop)
    (response : Option Response) :
    Session.reply query response = response.toList := by
  rcases h with rfl | rfl <;> rfl

lemma rowsOf_error {t : ResponseType} (ht : t.isError = true) (m : String) :
    rowsOf (errorResponse t m).replies = [] := by
  rw [errorResponse_replies ht]
  rfl

lemma Shutting.responded {s' : Session} {r : Response} (h : Shutting plan s c)
    (hrows : rowsOf r.replies ++ entryRows s'.entry <+: entryRows s.entry) (hw : r.WellFormed)
    (hc : s'.client = s.client) (hs : ∀ q ∈ s'.toServer, q ∈ s.toServer)
    (hj : ∀ q ∈ s'.jobs, q ∈ s.jobs) (htc : s'.toClient = s.toClient ++ [r])
    (he : ∀ e, s'.entry = some e → Stopping s' e)
    (hends : .stop ∈ s'.toServer ∨ .stop ∈ s'.jobs ∨ ∃ r ∈ s'.toClient, r.t ≠ .successPartial) :
    Shutting plan s' c := by
  refine ⟨hc.trans h.client, h.valid, h.closing, h.pending, h.endFlag, h.thrown, h.sent, ?_,
    fun q hq => h.toServer q (hs q hq), fun q hq => h.jobs q (hj q hq), fun x hx => ?_, he, hends⟩
  · rw [htc, List.flatMap_append, ← List.append_assoc, rowsOf_append, List.append_assoc]
    simp only [List.flatMap_cons, List.flatMap_nil, List.append_nil]
    exact ((List.prefix_append_right_inj _).mpr hrows).trans h.rows
  · rw [htc] at hx
    rcases List.mem_append.mp hx with hx | hx
    · exact h.wellFormed x hx
    · exact List.mem_singleton.mp hx ▸ hw

lemma Shutting.refused {s' : Session} {r : Response} (h : Shutting plan s c)
    (hr : rowsOf r.replies = []) (hw : r.WellFormed) (ht : r.t ≠ .successPartial)
    (hc : s'.client = s.client) (he : s'.entry = none) (hs : ∀ q ∈ s'.toServer, q ∈ s.toServer)
    (hj : ∀ q ∈ s'.jobs, q ∈ s.jobs) (htc : s'.toClient = s.toClient ++ [r]) :
    Shutting plan s' c := by
  -- the response to a query whose entry is gone ends the session and has no rows
  refine h.responded ?_ hw hc hs hj htc (fun e he' => by simp [he] at he')
    (.inr (.inr ⟨r, by simp [htc], ht⟩))
  rw [hr, he]
  exact List.nil_prefix

lemma Shutting.queued {s' : Session} {query : Query} (h : Shutting plan s c)
    (hq : query = .continue ∨ query = .stop) (hrows : entryRows s'.entry = entryRows s.entry)
    (hc : s'.client = s.client) (hs : s.toServer = query :: s'.toServer)
    (hj : s'.jobs = s.jobs ++ [query]) (htc : s'.toClient = s.toClient)
    (he : ∀ e, s'.entry = some e → Stopping s' e) : Shutting plan s' c := by
  refine ⟨hc.trans h.client, h.valid, h.closing, h.pending, h.endFlag, h.thrown, h.sent, ?_,
    fun q hq => h.toServer q (hs ▸ List.mem_cons_of_mem _ hq), fun q hq' => ?_,
    htc ▸ h.wellFormed, he, ?_⟩
  · rw [htc, hrows]
    exact h.rows
  · rw [hj] at hq'
    rcases List.mem_append.mp hq' with hq' | hq'
    · exact h.jobs q hq'
    · exact List.mem_singleton.mp hq' ▸ hq
  · rw [htc, hj]
    rcases h.ends with hstop | hstop | hstop
    · rw [hs] at hstop
      rcases List.mem_cons.mp hstop with rfl | hstop
      · exact .inr (.inl (by simp))
      · exact .inl hstop
    · exact .inr (.inl (List.mem_append_left _ hstop))
    · exact .inr (.inr hstop)

lemma Shutting.arrive (h : Shutting plan s c) : Shutting plan (s.arrive plan token) c := by
  cases hs : s.toServer with
  | nil =>
    rw [arrive_of_nil hs]
    exact h
  | cons query rest =>
    have hq := h.toServer query (by simp [hs])
    rw [arrive_of_cons hs, reply_closing hq]
    rcases arrival_closing plan token hq s.entry with ⟨he, ha⟩ | ⟨e, he, ⟨rfl, ha⟩ | ⟨rfl, ha⟩⟩
    · rw [ha]
      exact h.refused (rowsOf_error rfl _) (fun _ => by simp [errorResponse])
        (by simp [errorResponse]) rfl rfl (fun q hq => hs ▸ List.mem_cons_of_mem _ hq) (by simp) rfl
    · -- a batch is asked for after the `STOP`, or before it
      obtain ⟨h1, h2, h3, h4⟩ := h.entry e he
      rw [ha]
      refine h.queued hq (by rw [he]) rfl hs rfl (by simp) fun e' he' => ?_
      obtain rfl : e = e' := Option.some.inj he'
      refine ⟨h1, h2, by simpa using h3, ?_⟩
      rcases h4 with ⟨h4, h5, h6⟩ | ⟨h4, h5, h6⟩
      · exact .inl ⟨h4, h5, List.mem_append_left _ h6⟩
      · exact .inr ⟨h4, by simpa using h5, by simpa [hs] using h6⟩
    · obtain ⟨⟨st, h1⟩, h2, h3, -⟩ := h.entry e he
      rw [ha]
      have hrows : entryRows (some { e with pulsed := true, stopped := true }) =
          entryRows s.entry := by
        rw [he, entryRows_of_stream h1]
        exact entryRows_of_stream h1
      refine h.queued hq hrows rfl hs rfl (by simp) fun e' he' => ?_
      obtain rfl := Option.some.inj he'
      exact ⟨⟨st, h1⟩, h2, by simpa using h3, .inl ⟨rfl, rfl, by simp⟩⟩

lemma stopResponse_wellFormed : stopResponse.WellFormed := fun h => by
  simp [stopResponse, ResponseType.isRows] at h

lemma interruption_cases (e : Entry) :
    rowsOf (interruption e).replies = [] ∧ (interruption e).WellFormed ∧
    (interruption e).t ≠ .successPartial := by
  rw [interruption]
  split_ifs
  · exact ⟨rfl, stopResponse_wellFormed, by simp [stopResponse]⟩
  · exact ⟨rowsOf_error rfl _, fun _ => by simp [errorResponse], by simp [errorResponse]⟩

lemma Shutting.serve {s' : Session} {e : Entry} {st : Stream} {jobs : List Query} {r : Response}
    {next : Option Stream} (h : Shutting plan s c) (he : s.entry = some e)
    (hst : e.state = .stream st) (hserve : serve false st = some (r, next))
    (hj : s.jobs = .continue :: jobs) (hc : s'.client = s.client) (hs : s'.toServer = s.toServer)
    (hj' : s'.jobs = jobs) (he' : s'.entry = release e next)
    (htc : s'.toClient = s.toClient ++ [r]) : Shutting plan s' c := by
  have hrows : entryRows s.entry = rowsOf st.replies := by rw [he, entryRows_of_stream hst]
  obtain ⟨h1, h2, h3, h4⟩ := h.entry e he
  have hmem : Query.stop ∈ s.jobs → Query.stop ∈ s'.jobs :=
    fun hm => by rw [hj'] ; simpa [hj] using hm
  have hsub : ∀ q ∈ s'.jobs, q ∈ s.jobs :=
    fun q hq => by rw [hj, ← hj']; exact List.mem_cons_of_mem _ hq
  have hends : (∃ r ∈ s'.toClient, r.t ≠ .successPartial) ∨ .stop ∈ s'.toServer ∨
      .stop ∈ s'.jobs := by
    rcases h4 with ⟨-, -, h6⟩ | ⟨-, -, h6⟩
    · exact .inr (.inr (hmem h6))
    · exact .inr (.inl (hs ▸ h6))
  refine h.responded ?_ (serve_wellFormed hserve) hc (by simp [hs]) hsub htc (fun e'' he'' => ?_)
    (by tauto)
  · rw [hrows, he']
    rcases serve_answer hserve with ⟨-, st', hn, hrep⟩ | ⟨-, hn, hrep⟩
    · rw [hn, hrep, rowsOf_append, release]
      split_ifs
      · simp
      · exact List.prefix_rfl
    · simp [hn, hrep, release, entryRows_none]
  · rw [he''] at he'
    rcases serve_answer hserve with ⟨hp, st', hn, -⟩ | ⟨-, hn, -⟩
    · rw [hn, release] at he'
      split_ifs at he' with hpulsed
      obtain rfl := Option.some.inj he'
      refine ⟨⟨st', rfl⟩, h2, fun x hx => ?_, .inr ⟨by simpa using hpulsed, ?_⟩⟩
      · rw [htc] at hx
        rcases List.mem_append.mp hx with hx | hx
        · exact h3 x hx
        · exact List.mem_singleton.mp hx ▸ hp
      · rcases h4 with ⟨h4, -⟩ | ⟨-, h5, h6⟩
        · exact absurd h4 hpulsed
        · exact ⟨fun hm => h5 (hsub _ hm), hs ▸ h6⟩
    · rw [hn, release] at he'
      cases he'

lemma Shutting.finish_continue {jobs : List Query} (h : Shutting plan s c) (interrupted : Bool)
    (hj : s.jobs = .continue :: jobs) : Shutting plan (s.finish plan token interrupted) c := by
  have hrest : ∀ q ∈ jobs, q ∈ s.jobs := fun q hq => hj ▸ List.mem_cons_of_mem _ hq
  cases he : s.entry with
  | none =>
    have hc : completion plan token interrupted s.entry .continue =
        some (none, duplicateToken token) := by
      rw [he]
      rfl
    rw [finish_of_some hj hc]
    exact h.refused (rowsOf_error rfl _) (fun _ => by simp [errorResponse])
      (by simp [errorResponse]) rfl rfl
      (fun _ hq => hq) hrest rfl
  | some e =>
    obtain ⟨⟨st, hst⟩, hn, -, -⟩ := h.entry e he
    by_cases hi : (interrupted && e.pulsed) = true
    · obtain ⟨h1, h2, h3⟩ := interruption_cases e
      have hc : completion plan token interrupted s.entry .continue =
          some (none, interruption e) := by
        simp only [he, completion, hi, if_true]
      rw [finish_of_some hj hc]
      exact h.refused h1 h2 h3 rfl rfl (fun _ hq => hq) hrest rfl
    · have hc : completion plan token interrupted s.entry .continue =
          (QueryCache.serve false st).map fun a => (release e a.2, a.1) := by
        simp [he, completion, hi, fill, hst, hn]
      cases hserve : QueryCache.serve false st with
      | none =>
        rw [finish_of_none hj (by rw [hc, hserve]; rfl)]
        exact h
      | some a =>
        obtain ⟨r, next⟩ := a
        rw [hserve, Option.map_some] at hc
        rw [finish_of_some hj hc]
        exact h.serve he hst hserve hj rfl rfl rfl rfl rfl

lemma Shutting.finish (h : Shutting plan s c) (interrupted : Bool) :
    Shutting plan (s.finish plan token interrupted) c := by
  cases hj : s.jobs with
  | nil =>
    rw [finish_of_nil hj]
    exact h
  | cons query rest =>
    rcases h.jobs query (by simp [hj]) with rfl | rfl
    · exact h.finish_continue interrupted hj
    · have hnone : s.entry.filter (fun e => !e.pulsed) = none := by
        cases he : s.entry with
        | none => rfl
        | some e =>
          rcases (h.entry e he).stop with ⟨h4, -⟩ | ⟨-, h5, -⟩
          · simp [Option.filter, h4]
          · exact absurd (by simp [hj]) h5
      have hc : completion plan token interrupted s.entry .stop = some (none, stopResponse) := by
        rw [completion, hnone]
      rw [finish_of_some hj hc]
      exact h.refused rfl stopResponse_wellFormed (by simp [stopResponse]) rfl rfl (fun _ hq => hq)
        (fun q hq => hj ▸ List.mem_cons_of_mem _ hq) rfl

section deliver

variable {r : Response} {rest : List Response}

lemma Shutting.deliver_eq (ho : s.opened = true) (h : Shutting plan s c)
    (ht : s.toClient = r :: rest) :
    s.deliver = { s with
      toClient := rest
      client := ⟨if (c.addResponse (!s.closing) true r).endFlag &&
          decide ((c.addResponse (!s.closing) true r).outstandingRequests = 0) then
            none else some .cursor,
        some { c.addResponse (!s.closing) true r with sent := [] }, [.cursor]⟩
      toServer := s.toServer ++ (c.addResponse (!s.closing) true r).sent } := by
  have hok : s.client.accepts r = true := accepts_of_outstanding (by simp [h.client]) r
  rw [deliver_of_cons ho hok ht, Session.onClient, h.client]
  rfl

lemma Shutting.deliver_partial (ho : s.opened = true) (h : Shutting plan s c)
    (ht : s.toClient = r :: rest) (hr : r.t = .successPartial) :
    ∃ c', Shutting plan s.deliver c' := by
  have hw := h.wellFormed r (by simp [ht])
  obtain ⟨hcl, c', hrec, hc' | ⟨-, hne⟩⟩ :=
    Cursor.addResponse_closing_partial (!s.closing) true h.valid hw h.closing hr
  · rw [h.deliver_eq ho ht]
    rw [hc'] at hcl ⊢
    have hend : c'.endFlag = false := by rw [hrec.endFlag, if_pos hr, h.endFlag]
    have hsent : c'.sent = [] := hrec.sent.trans h.sent
    refine ⟨{ c' with sent := [] }, by simp [hend], hrec.valid.of_eq rfl rfl,
      ⟨hcl.closeCb, hcl.closeAsap, hcl.promised⟩, hrec.closePromise.trans h.pending, hend,
      hrec.thrown.trans h.thrown, rfl, ?_, by simpa [hsent] using h.toServer, h.jobs,
      fun x hx => h.wellFormed x (by simp [ht, hx]), fun e he => ?_, ?_⟩
    · have hrows := h.rows
      have hrep : ({ c' with sent := [] } : Cursor).delivered ++
          ({ c' with sent := [] } : Cursor).buffered =
            c.delivered ++ c.buffered ++ r.replies := by
        rw [List.append_assoc, ← hrec.buffered, Cursor.delivered, Cursor.delivered, hrec.calls]
        rfl
      rw [hrep]
      simpa [ht] using hrows
    · obtain ⟨h1, h2, h3, h4⟩ := h.entry e he
      exact ⟨h1, h2, fun x hx => h3 x (by simp [ht, hx]), by simpa [hsent] using h4⟩
    · rcases h.ends with h5 | h5 | ⟨x, hx, hxt⟩
      · exact .inl (List.mem_append_left _ h5)
      · exact .inr (.inl h5)
      · refine .inr (.inr ⟨x, ?_, hxt⟩)
        rw [ht] at hx
        exact (List.mem_cons.mp hx).resolve_left fun hx => hxt (hx ▸ hr)
  · exact absurd h.pending hne

lemma Shutting.deliver_last (ho : s.opened = true) (h : Shutting plan s c)
    (ht : s.toClient = r :: rest) (hr : r.t ≠ .successPartial) : Over plan s.deliver := by
  have hcl := Cursor.addResponse_closing_end (!s.closing) true h.closing hr
  have hf := h.cleared (!s.closing) true hr
  rw [h.deliver_eq ho ht]
  refine ⟨by simp [hcl.endFlag, hcl.outstandingRequests], rfl, fun c' hc' => ?_,
    fun _ c' hc' => ?_, fun _ => ⟨?_, ?_, h.jobs⟩⟩
  · obtain rfl := Option.some.inj hc'
    exact hf.of_eq rfl rfl rfl rfl rfl hf.sent.symm hf.settled
  · obtain rfl := Option.some.inj hc'
    exact hcl.closing.promised
  · cases he : s.entry with
    | none => rfl
    | some e => exact absurd ((h.entry e he).partials r (by simp [ht])) hr
  · simpa [hf.sent] using h.toServer

end deliver

lemma Shutting.deliver (ho : s.opened = true) (h : Shutting plan s c) :
    (∃ c', Shutting plan s.deliver c') ∨ Over plan s.deliver := by
  cases ht : s.toClient with
  | nil =>
    rw [deliver_of_nil ht]
    exact .inl ⟨c, h⟩
  | cons r rest =>
    by_cases hr : r.t = .successPartial
    · exact .inl (h.deliver_partial ho ht hr)
    · exact .inr (h.deliver_last ho ht hr)

end shutting

/-! ### The invariant -/

section inv

variable {plan : Plan} {token : ℕ} {s : Session}

lemma step_opened (ho : s.opened = true) {l : Local} (hl : l ≠ .shut) :
    (s.step plan token l).opened = true := by
  cases l with
  | shut => exact absurd rfl hl
  | arrive => exact (arrive_client plan token s).2.1.trans ho
  | finish interrupted => exact (finish_client plan token s interrupted).2.1.trans ho
  | deliver =>
    rw [Session.step, Session.deliver]
    split
    · exact ho
    · split_ifs <;> exact ho
  | _ => exact ho

lemma Live.of_no_cursor (h : Live plan s) (hc : s.client.cursor = none) (f : Cursor → Cursor) :
    Live plan (s.onClient (Client.onCursor f)) := by
  rwa [onClient_of_no_cursor hc]

lemma Live.next (ho : s.opened = true) (h : Live plan s) (cb : ℕ) :
    Live plan (s.step plan token (.next cb)) := by
  cases h with
  | reading c rest h => exact h.next ho cb
  | ended c h => exact h.next ho cb
  | noreply h => exact (Live.noreply h).of_no_cursor (by rw [h.client]) _
  | awaiting h => exact (Live.awaiting h).of_no_cursor (by rw [h.client]) _
  | asking h1 h2 => exact (Live.asking h1 h2).of_no_cursor (by rw [h1]) _
  | answered result h1 h2 h3 => exact (Live.answered result h1 h2 h3).of_no_cursor (by rw [h1]) _

lemma Live.closeCursor (ho : s.opened = true) (h : Live plan s) :
    Inv plan (s.step plan token .closeCursor) := by
  have ho' : (s.step plan token .closeCursor).opened = true := step_opened ho (by simp)
  cases h with
  | reading c rest h =>
    obtain ⟨c', h'⟩ := h.closeCursor ho
    exact .shutting c' ho' h'
  | ended c h => exact .finished h.closeCursor
  | noreply h => exact .live ho' ((Live.noreply h).of_no_cursor (by rw [h.client]) _)
  | awaiting h => exact .live ho' ((Live.awaiting h).of_no_cursor (by rw [h.client]) _)
  | asking h1 h2 => exact .live ho' ((Live.asking h1 h2).of_no_cursor (by rw [h1]) _)
  | answered result h1 h2 h3 =>
    exact .live ho' ((Live.answered result h1 h2 h3).of_no_cursor (by rw [h1]) _)

lemma Live.chained (h : Live plan s) : Live plan (s.step plan token .chained) := by
  cases h with
  | reading c rest h =>
    rw [Session.step, onClient_of_eq h.client (by simp [h.cursor.closeCb]) h.cursor.sent]
    exact .reading c rest h
  | ended c h =>
    rw [Session.step, onClient_of_eq h.client (by simp [h.cursor.closeCb]) h.cursor.sent]
    exact .ended c h
  | noreply h => exact (Live.noreply h).of_no_cursor (by rw [h.client]) _
  | awaiting h => exact (Live.awaiting h).of_no_cursor (by rw [h.client]) _
  | asking h1 h2 => exact (Live.asking h1 h2).of_no_cursor (by rw [h1]) _
  | answered result h1 h2 h3 => exact (Live.answered result h1 h2 h3).of_no_cursor (by rw [h1]) _

lemma Live.immediate (h : Live plan s) : Live plan (s.step plan token .immediate) := by
  cases h with
  | reading c rest h => exact h.immediate
  | ended c h => exact h.immediate
  | noreply h => exact (Live.noreply h).of_no_cursor (by rw [h.client]) _
  | awaiting h => exact (Live.awaiting h).of_no_cursor (by rw [h.client]) _
  | asking h1 h2 => exact (Live.asking h1 h2).of_no_cursor (by rw [h1]) _
  | answered result h1 h2 h3 => exact (Live.answered result h1 h2 h3).of_no_cursor (by rw [h1]) _

lemma Shutting.step {c : Cursor} (ho : s.opened = true) (h : Shutting plan s c) (l : Local) :
    Inv plan (s.step plan token l) := by
  cases l with
  | next cb =>
    obtain ⟨c', h'⟩ := h.next ho cb
    exact .shutting c' (step_opened ho (by simp)) h'
  | closeCursor =>
    rw [Session.step, onClient_of_eq h.client (by simp [Cursor.close, h.pending]) h.sent]
    exact .shutting c ho h
  | chained =>
    rw [Session.step, onClient_of_eq h.client (by simp [h.pending]) h.sent]
    exact .shutting c ho h
  | immediate =>
    rw [Session.step, onClient_immediate h.client h.sent]
    exact .shutting c.immediate ho ⟨rfl, h.valid.of_eq rfl rfl,
      ⟨h.closing.closeCb, h.closing.closeAsap, h.closing.promised⟩, h.pending, h.endFlag, h.thrown,
      h.sent, h.rows, h.toServer, h.jobs, h.wellFormed,
      fun e he => ⟨(h.entry e he).state, (h.entry e he).noreply, (h.entry e he).partials,
        (h.entry e he).stop⟩, h.ends⟩
  | closing =>
    exact .shutting c ho ⟨h.client, h.valid, h.closing, h.pending, h.endFlag, h.thrown,
      h.sent, h.rows, h.toServer, h.jobs, h.wellFormed,
      fun e he => ⟨(h.entry e he).state, (h.entry e he).noreply, (h.entry e he).partials,
          (h.entry e he).stop⟩, h.ends⟩
  | shut => exact .finished h.shut
  | arrive => exact .shutting c (step_opened (l := .arrive) ho (by simp)) h.arrive
  | finish interrupted =>
    exact .shutting c (step_opened (l := .finish interrupted) ho (by simp)) (h.finish interrupted)
  | deliver =>
    rcases h.deliver ho with ⟨c', h'⟩ | h'
    · exact .shutting c' (step_opened (l := .deliver) ho (by simp)) h'
    · exact .finished h'

lemma Live.step (ho : s.opened = true) (h : Live plan s) (l : Local) :
    Inv plan (s.step plan token l) := by
  cases l with
  | next cb => exact .live (step_opened ho (by simp)) (h.next ho cb)
  | closeCursor => exact h.closeCursor ho
  | chained => exact .live (step_opened ho (by simp)) h.chained
  | immediate => exact .live (step_opened ho (by simp)) h.immediate
  | closing => exact .live ho h.closing
  | shut => exact .finished h.shut
  | arrive => exact .live (step_opened (l := .arrive) ho (by simp)) h.arrive
  | finish interrupted =>
    exact .live (step_opened (l := .finish interrupted) ho (by simp)) (h.finish interrupted)
  | deliver => exact .live (step_opened (l := .deliver) ho (by simp)) (h.deliver ho)

lemma Inv.step (h : Inv plan s) (l : Local) : Inv plan (s.step plan token l) := by
  cases h with
  | live ho h => exact h.step ho l
  | shutting c ho h => exact h.step ho l
  | finished h => exact .finished (h.step l)

theorem inv_of_reach {begun : Bool} (h : Session.Reach plan token begun s) (hb : begun = true) :
    Inv plan s := by
  induction h with
  | unborn => cases hb
  | run closing noreply =>
    refine .live rfl ?_
    cases noreply with
    | false => exact .asking rfl (.startAsked rfl rfl rfl rfl)
    | true => exact .noreply ⟨rfl, rfl, .inl ⟨rfl, rfl, rfl⟩⟩
  | wait closing => exact .live rfl (.awaiting ⟨rfl, rfl, .inl ⟨rfl, rfl, rfl⟩⟩)
  | step l _ ih => exact (ih hb).step l

end inv

end PersonnelBackend.Connections
