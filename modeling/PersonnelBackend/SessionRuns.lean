import PersonnelBackend.CursorCalls
import PersonnelBackend.SessionInvariant

/-! What the application sees of a connection, over every run: rows come in order
and none is lost or repeated, the end is announced only after the last one, a
callback that waits is never forgotten by the protocol, and nothing is left
behind at either end. -/
namespace PersonnelBackend.Connections
open Document Cursors QueryCache

/-! ### The rows a cursor hands out -/

/-- The rows given to the callbacks of `next` so far, in the order of the callbacks. -/
def rowsGiven (c : Cursor) : List Json := rowsOf (c.calls.map Prod.snd)

lemma rowsOf_filter (l : List Reply) :
    rowsOf (l.filter fun reply => reply ≠ noMoreRows ∧ reply ≠ cursorClosed) = rowsOf l := by
  induction l with
  | nil => rfl
  | cons reply l ih =>
    cases reply with
    | row value =>
      rw [List.filter_cons_of_pos (by simp [noMoreRows, cursorClosed])]
      simpa [rowsOf] using ih
    | serverError t r =>
      rw [List.filter_cons_of_pos (by simp [noMoreRows, cursorClosed])]
      simpa [rowsOf] using ih
    | driverError message =>
      by_cases h : Reply.driverError message ≠ noMoreRows ∧ Reply.driverError message ≠ cursorClosed
      · rw [List.filter_cons_of_pos (by simpa using h)]
        simpa [rowsOf] using ih
      · rw [List.filter_cons_of_neg (by simpa using h), ih]
        rfl

lemma rowsGiven_eq (c : Cursor) : rowsGiven c = rowsOf c.delivered := (rowsOf_filter _).symm

def planRows : Plan → List Json
  | .stream st => st.batches.flatten
  | _ => []

lemma rowsOf_map_row (l : List Json) : rowsOf (l.map .row) = l := by
  rw [rowsOf, List.filterMap_map]
  exact List.filterMap_some

lemma rowsOf_planReplies (plan : Plan) : rowsOf (planReplies plan) = planRows plan := by
  cases plan with
  | stream st =>
    rw [planReplies, Stream.replies, rowsOf_append, rowsOf_map_row, planRows]
    cases st.ending <;> simp [rowsOf]
  | compileError m => exact rowsOf_error (t := .compileError) rfl m
  | runtimeError m => exact rowsOf_error (t := .runtimeError) rfl m
  | value v => rfl

section session

variable {plan : Plan} {token : ℕ} {s : Session} {c : Cursor}

lemma Inv.cursor_cases (h : Inv plan s) (hc : s.client.cursor = some c) :
    s.opened = true ∧ ((∃ rest, Reading plan s c rest) ∨ Ended plan s c ∨ Shutting plan s c) ∨
      Over plan s ∧ Forgotten plan c := by
  cases h with
  | live ho h =>
    cases h with
    | noreply h => simp [h.client] at hc
    | awaiting h => simp [h.client] at hc
    | asking h => simp [h] at hc
    | answered _ h => simp [h] at hc
    | reading c' rest h =>
      obtain rfl : c' = c := by simpa [h.client] using hc
      exact .inl ⟨ho, .inl ⟨rest, h⟩⟩
    | ended c' h =>
      obtain rfl : c' = c := by simpa [h.client] using hc
      exact .inl ⟨ho, .inr (.inl h)⟩
  | shutting c' ho h =>
    obtain rfl : c' = c := by simpa [h.client] using hc
    exact .inl ⟨ho, .inr (.inr h)⟩
  | finished h => exact .inr ⟨h, h.cursor c hc⟩

lemma Inv.open_cursor (h : Inv plan s) (ho : s.opened = true) (hc : s.client.cursor = some c)
    (hp : c.closePromise = none) : (∃ rest, Reading plan s c rest) ∨ Ended plan s c := by
  rcases h.cursor_cases hc with ⟨-, h | h | h⟩ | ⟨h, -⟩
  · exact .inl h
  · exact .inr h
  · exact absurd (h.pending.symm.trans hp) (by simp)
  · have hs := h.closed ho c hc
    simp [hp] at hs

lemma Inv.rows (h : Inv plan s) (hc : s.client.cursor = some c) :
    rowsGiven c <+: planRows plan := by
  rw [rowsGiven_eq, ← rowsOf_planReplies]
  rcases h.cursor_cases hc with ⟨-, ⟨rest, h⟩ | h | h⟩ | ⟨-, h⟩
  · rw [← h.total]
    exact rowsOf_prefix_left (rowsOf_prefix_left List.prefix_rfl)
  · exact rowsOf_prefix_left h.forgotten.rows
  · exact rowsOf_prefix_left (rowsOf_prefix_left ((List.prefix_append _ _).trans h.rows))
  · exact rowsOf_prefix_left h.rows

lemma Inv.thrown (h : Inv plan s) (hc : s.client.cursor = some c) : c.thrown = false := by
  rcases h.cursor_cases hc with ⟨-, ⟨rest, h⟩ | h | h⟩ | ⟨-, h⟩
  · exact h.cursor.thrown
  · exact h.cursor.thrown
  · exact h.thrown
  · exact h.thrown

lemma Client.tallied_onCursor {q : Client} {f : Cursor → Cursor}
    (h : ∀ c, q.cursor = some c → c.Tallied) (hf : ∀ c : Cursor, c.Tallied → (f c).Tallied)
    {c : Cursor} (hc : (q.onCursor f).written.cursor = some c) : c.Tallied := by
  obtain ⟨c₀, hc₀, rfl⟩ : ∃ c₀, q.cursor = some c₀ ∧ { f c₀ with sent := [] } = c := by
    simpa [Client.written, Client.onCursor] using hc
  exact (hf c₀ (h c₀ hc₀)).of_eq rfl rfl rfl rfl rfl

lemma Client.tallied_processResponse {q : Client} {isOpen connOpen : Bool} {r : Response}
    (h : ∀ c, q.cursor = some c → c.Tallied) {c : Cursor}
    (hc : (q.processResponse isOpen connOpen r).cursor = some c) : c.Tallied := by
  obtain ⟨outstanding, cursor, results⟩ := q
  cases outstanding with
  | none => exact h c hc
  | some o =>
    cases o with
    | cursor =>
      cases cursor with
      | none => cases hc
      | some c₀ =>
        obtain rfl := Option.some.inj hc
        exact (Cursor.addResponse_serves c₀ isOpen connOpen r).tallied (h c₀ rfl)
    | callback =>
      simp only [Client.processResponse] at hc
      split_ifs at hc
      · obtain rfl := Option.some.inj hc
        exact (Cursor.addResponse_serves _ isOpen connOpen r).tallied Cursor.new_tallied
      · exact h c hc

lemma Client.tallied_cancel {q : Client} (h : ∀ c, q.cursor = some c → c.Tallied) {c : Cursor}
    (hc : q.cancel.cursor = some c) : c.Tallied := by
  obtain ⟨outstanding, cursor, results⟩ := q
  cases outstanding with
  | none => exact h c hc
  | some o =>
    cases o with
    | cursor =>
      obtain ⟨c₀, hc₀, rfl⟩ : ∃ c₀, cursor = some c₀ ∧
          c₀.addResponse false false connectionClosed = c := by simpa [Client.cancel] using hc
      exact (Cursor.addResponse_serves c₀ false false connectionClosed).tallied (h c₀ hc₀)
    | callback => exact h c hc

lemma Session.tallied_step {l : Local} (h : ∀ c, s.client.cursor = some c → c.Tallied)
    (hc : (s.step plan token l).client.cursor = some c) : c.Tallied := by
  cases l with
  | next cb => exact Client.tallied_onCursor h (fun _ ht => ht.next _ cb) hc
  | closeCursor => exact Client.tallied_onCursor h (fun c ht => (c.close_serves _).tallied ht) hc
  | chained =>
    refine Client.tallied_onCursor h (fun c ht => ?_) hc
    split_ifs
    · exact (c.runCloseCb_serves _).tallied ht
    · exact ht
  | immediate => exact Client.tallied_onCursor h (fun _ ht => ht.immediate) hc
  | closing => exact h c hc
  | shut => exact Client.tallied_cancel h hc
  | arrive => exact h c ((arrive_client plan token s).1 ▸ hc)
  | finish interrupted => exact h c ((finish_client plan token s interrupted).1 ▸ hc)
  | deliver =>
    rw [Session.step, Session.deliver] at hc
    split at hc
    · exact h c hc
    · next r rest hr =>
      split_ifs at hc
      · obtain ⟨c₀, hc₀, rfl⟩ : ∃ c₀, (s.client.processResponse (s.opened && !s.closing) s.opened
          r).cursor =
            some c₀ ∧ { c₀ with sent := [] } = c := by
          simpa [Session.onClient, Client.written, Client.onCursor] using hc
        exact (Client.tallied_processResponse h hc₀).of_eq rfl rfl rfl rfl rfl
      · exact h c hc

lemma Session.Reach.tallied {begun : Bool} (h : Session.Reach plan token begun s) :
    ∀ c, s.client.cursor = some c → c.Tallied := by
  induction h with
  | unborn => exact fun c hc => by cases hc
  | run closing noreply => cases noreply <;> exact fun c hc => by cases hc
  | wait => exact fun c hc => by cases hc
  | step l _ ih => exact fun c hc => Session.tallied_step ih hc

lemma Inv.client_sent (h : Inv plan s) : s.client.sent = [] := by
  rw [Client.sent]
  cases hc : s.client.cursor with
  | none => rfl
  | some c =>
    rcases h.cursor_cases hc with ⟨-, ⟨rest, h⟩ | h | h⟩ | ⟨-, h⟩
    · exact h.cursor.sent
    · exact h.cursor.sent
    · exact h.sent
    · exact h.sent

lemma Inv.called (h : Inv plan s) :
    s.client.results.length = if s.client.outstanding = some .callback then 0 else 1 := by
  cases h with
  | live ho h =>
    cases h with
    | noreply h => simp [h.client]
    | awaiting h => simp [h.client]
    | asking h => simp [h]
    | answered _ h => simp [h]
    | reading c' rest h => simp [h.client]
    | ended c' h => simp [h.client]
  | shutting c' ho h => simp [h.client]
  | finished h => simp [h.results, h.outstanding]

/-- How many requests and responses of the session are under way. -/
def Session.underWay (s : Session) : ℕ := s.toServer.length + s.jobs.length + s.toClient.length

lemma Flight.underWay {first : Bool} {rest : List Reply} (h : Flight plan s first rest) :
    s.underWay = 1 := by
  rw [Session.underWay]
  cases h with
  | startAsked h1 h2 h3 h4 => simp [h1, h3, h4]
  | startServed h1 h2 h3 h4 => simp [h1, h3, h4]
  | contAsked st h1 h2 h3 h4 => simp [h1, h3, h4]
  | contServed st h1 h2 h3 h4 => simp [h1, h3, h4]
  | answered _ r next _ h1 h2 h3 => simp [h1, h2, h3]

lemma Still.underWay (h : Still s) : s.underWay = 0 := by
  simp [Session.underWay, h.toServer, h.jobs, h.toClient]

lemma Inv.waiting (h : Inv plan s) (ho : s.opened = true) (hcl : s.closing = false)
    (hc : s.client.cursor = some c) (hp : c.closePromise = none) (hq : c.cbQueue ≠ []) :
    c.endFlag = true ∨ s.underWay = 1 := by
  -- whoever waits on an open connection waits for the message under way
  rcases h.open_cursor ho hc hp with ⟨rest, h⟩ | h
  · right
    rcases h.flight with ⟨hcont, -⟩ | ⟨-, -, hf⟩
    · rcases (h.waiting hq).2 with hw | hw
      · exact absurd (hcont.symm.trans hw) (by simp)
      · exact absurd (hcl.symm.trans hw) (by simp)
    · exact hf.underWay
  · exact .inl h.endFlag

/-- The cursor of a token that has neither ended nor been closed. -/
def Client.Reads (q : Client) : Prop :=
  ∃ c, q.cursor = some c ∧ c.endFlag = false ∧ c.closePromise = none

lemma Inv.left_behind (h : Inv plan s) (ho : s.opened = true) (hs : Still s) :
    (s.entry.isSome = true ↔ s.client.Reads) ∧
    (s.client.outstanding.isSome = true ↔ s.client.Reads) ∧
      ∀ c, s.client.cursor = some c → c.closePromise ≠ some .pending := by
  have noFlight : ∀ {first rest}, ¬ Flight plan s first rest := fun hf =>
    absurd (hf.underWay.symm.trans hs.underWay) (by decide)
  cases h with
  | live _ h =>
    cases h with
    | noreply h =>
      rcases h.place with ⟨h1, -⟩ | ⟨-, h2, -⟩ | ⟨-, -, h3⟩
      · simp [hs.toServer] at h1
      · simp [hs.jobs] at h2
      · simp [Client.Reads, h.client, h3]
    | awaiting h =>
      rcases h.place with ⟨h1, -⟩ | ⟨-, h2, -⟩ | ⟨-, -, h3⟩
      · simp [hs.toServer] at h1
      · simp [hs.jobs] at h2
      · simp [hs.toClient] at h3
    | asking _ hf => exact absurd hf noFlight
    | answered _ h1 _ h3 => simp [Client.Reads, h1, h3]
    | reading c rest h =>
      rcases h.flight with ⟨-, -, -, st, he, -⟩ | ⟨-, -, hf⟩
      · simp [Client.Reads, h.client, he, h.endFlag, h.cursor.closePromise]
      · exact absurd hf noFlight
    | ended c h => simp [Client.Reads, h.client, h.entry, h.endFlag, h.cursor.closePromise]
  | shutting c _ h =>
    rcases h.ends with h1 | h1 | ⟨r, h1, -⟩
    · simp [hs.toServer] at h1
    · simp [hs.jobs] at h1
    · simp [hs.toClient] at h1
  | finished h =>
    have he := (h.server ho).1
    have hno : ¬ s.client.Reads := fun ⟨c, hc, hend, _⟩ => by simp [(h.cursor c hc).endFlag] at hend
    exact ⟨by simp [he, hno], by simp [h.outstanding, hno], fun c hc => (h.cursor c hc).settled⟩

end session

/-! ### Over every run -/

section runs

variable (plan : ℕ → Plan) (actions : List Action) (token : ℕ)

lemma view_cases :
    (token = 0 ∨ (System.initial.exec plan actions).nextToken ≤ token) ∧
        (∃ opened closing, (System.initial.exec plan actions).view token = .unborn opened closing) ∨
      0 < token ∧ token < (System.initial.exec plan actions).nextToken ∧
        Inv (plan token) ((System.initial.exec plan actions).view token) := by
  have h := System.view_reach plan actions token
  by_cases ht : 0 < token ∧ token < (System.initial.exec plan actions).nextToken
  · exact .inr ⟨ht.1, ht.2, inv_of_reach h (decide_eq_true ht)⟩
  · exact .inl ⟨by omega, System.unborn_of_reach h (decide_eq_false ht)⟩

lemma view_inv {c : Cursor}
    (hc : ((System.initial.exec plan actions).client token).cursor = some c) :
    Inv (plan token) ((System.initial.exec plan actions).view token) := by
  rcases view_cases plan actions token with ⟨-, o, cl, h⟩ | ⟨-, -, h⟩
  · have hcl : (System.initial.exec plan actions).client token = .unborn :=
      congrArg Session.client h
    rw [hcl] at hc
    cases hc
  · exact h

lemma tallied {c : Cursor}
    (hc : ((System.initial.exec plan actions).client token).cursor = some c) :
    c.Accounted :=
  (System.view_reach plan actions token).tallied c hc ((view_inv plan actions token hc).thrown hc)

def twoBatches : Plan :=
  .stream
    { feedType := .notFeed
      includesStates := false
      batches := [[.str "ann"], [.str "bob"]]
      ending := .exhausted
      regular := by
        refine fun _ => ⟨by decide, fun earlier later h => ?_⟩
        have hmem : ([] : List Json) ∈ [[.str "ann"], [.str "bob"]] := h ▸ by simp
        simp at hmem }

/-- The first batch has arrived and two callbacks have asked for a row. -/
def twoAsk : List Action := [.run false, .arrive, .finish 1 false, .deliver, .next 1 7, .next 1 8]

/-- Whatever the application and the server do, and whether or not the cursor or
the connection is closed, the callbacks get the first rows of the result, in their
order, each once. Each is called once: at once, or by `setImmediate`. -/
theorem rows_in_order {c : Cursor}
    (hc : ((System.initial.exec plan actions).client token).cursor = some c) :
    rowsGiven c <+: planRows (plan token) ∧ c.Accounted :=
  ⟨(view_inv plan actions token hc).rows hc, tallied plan actions token hc⟩

def longBatch : Plan :=
  .stream
    { feedType := .notFeed
      includesStates := false
      batches := [List.replicate 99 (.str "ann")]
      ending := .exhausted
      regular := by
        refine fun _ => ⟨by decide, fun earlier later h => ?_⟩
        have hmem : ([] : List Json) ∈ [List.replicate 99 (.str "ann")] := h ▸ by simp
        simp at hmem }

/-- The batch has arrived and a hundred callbacks have asked for a row. -/
def hundredAsk : List Action :=
  [.run false, .arrive, .finish 1 false, .deliver] ++ (List.range 100).map (.next 1)

theorem rows_in_order_hundredAsk : ∃ c,
    ((System.initial.exec (fun _ => longBatch) hundredAsk).client 1).cursor = some c ∧
    c.immediates = [(98, .row (.str "ann"))] ∧ rowsGiven c <+: List.replicate 99 (.str "ann") ∧
    c.Accounted := by
  have hsome : ((System.initial.exec (fun _ => longBatch) hundredAsk).client 1).cursor.map
      Cursor.immediates = some [(98, .row (.str "ann"))] := by decide +kernel
  obtain ⟨c, hc, hi⟩ := Option.map_eq_some_iff.mp hsome
  exact ⟨c, hc, hi, rows_in_order (fun _ => longBatch) hundredAsk 1 hc⟩

lemma not_told_zero {c : Cursor} {cb : ℕ} (h : (cb, noMoreRows) ∈ c.calls) : ¬ c.Told 0 := by
  intro ht
  have ht' : c.calls.map Prod.snd = c.delivered ++ List.replicate 0 noMoreRows := ht
  have hmem : noMoreRows ∈ c.calls.map Prod.snd := List.mem_map.mpr ⟨_, h, rfl⟩
  rw [ht'] at hmem
  simp [Cursor.delivered] at hmem

/-- A callback that waits on an open connection waits for a response: exactly
one message of the token is under way, unless the result has ended. -/
theorem waiting_is_answered {c : Cursor}
    (hc : ((System.initial.exec plan actions).client token).cursor = some c)
    (ho : (System.initial.exec plan actions).isOpen = true) (hp : c.closePromise = none)
    (hq : c.cbQueue ≠ []) :
    c.endFlag = true ∨ ((System.initial.exec plan actions).view token).underWay = 1 := by
  obtain ⟨hopen, hclosing⟩ : (System.initial.exec plan actions).opened = true ∧
      (System.initial.exec plan actions).closing = false := by simpa [System.isOpen] using ho
  exact (view_inv plan actions token hc).waiting hopen hclosing hc hp hq

theorem waiting_is_answered_second : ∃ c,
    ((System.initial.exec (fun _ => twoBatches) twoAsk).client 1).cursor = some c ∧
    c.cbQueue = [8] ∧
    (c.endFlag = true ∨ ((System.initial.exec (fun _ => twoBatches) twoAsk).view 1).underWay = 1) :=
  ⟨_, rfl, rfl, waiting_is_answered (fun _ => twoBatches) twoAsk 1 rfl rfl rfl (by decide)⟩

/-- The driver never calls the head of an empty queue. -/
theorem never_throws {c : Cursor}
    (hc : ((System.initial.exec plan actions).client token).cursor = some c) : c.thrown = false :=
  (view_inv plan actions token hc).thrown hc

theorem never_throws_twoAsk : ∃ c,
    ((System.initial.exec (fun _ => twoBatches) twoAsk).client 1).cursor = some c ∧
    c.thrown = false :=
  ⟨_, rfl, never_throws (fun _ => twoBatches) twoAsk 1 rfl⟩

/-- The callback of each `run` and `noreplyWait` is called at most once, and the
driver forgets a callback only by calling it. -/
theorem called_once (ht : 0 < token) (hn : token < (System.initial.exec plan actions).nextToken) :
    ((System.initial.exec plan actions).client token).results.length =
      if ((System.initial.exec plan actions).client token).outstanding = some .callback then 0
      else 1 := by
  rcases view_cases plan actions token with ⟨h, -⟩ | ⟨-, -, h⟩
  · omega
  · exact h.called

theorem called_once_twoAsk :
    ((System.initial.exec (fun _ => twoBatches) twoAsk).client 1).results.length = 1 :=
  called_once (fun _ => twoBatches) twoAsk 1 (by decide) (by decide)

structure System.Settled (s : System) : Prop where
  toServer : s.toServer = []
  jobs : s.jobs = []
  toClient : s.toClient = []

end runs

/-! ### Callbacks that wait when the result ends -/

section stuck

variable (plan : ℕ → Plan) {token : ℕ} {s : System} {m : ℕ}

/-- A cursor that has ended with `m` callbacks waiting. -/
structure Stuck (m : ℕ) (q : Client) (c : Cursor) : Prop where
  client : q = ⟨none, some c, [.cursor]⟩
  endFlag : c.endFlag = true
  closePromise : c.closePromise = none
  closeCb : c.closeCb = false
  responses : c.responses = []
  sent : c.sent = []
  waiting : c.cbQueue.length = m

lemma Stuck.next {q : Client} {c : Cursor} (h : Stuck m q c) (isOpen : Bool) (cb : ℕ) {oldest : ℕ}
    {others : List ℕ} (hq : c.cbQueue ++ [cb] = oldest :: others) :
    ∃ c', Stuck m (q.onCursor fun c => c.next isOpen cb).written c' ∧ c'.cbQueue = others ∧
      c'.calls = c.calls ++ [(oldest, noMoreRows)] := by
  have hlen : others.length = m := by
    have hl := congrArg List.length hq
    rw [List.length_append, List.length_singleton, List.length_cons, h.waiting] at hl
    omega
  have hnext : c.next isOpen cb = ({ c with cbQueue := c.cbQueue ++ [cb] } : Cursor).call
      noMoreRows := by
    simp [Cursor.next, Cursor.promptNext, h.closePromise, hq, Cursor.promptLoop, h.responses,
      h.endFlag]
  have ht := Cursor.call_taken (c := { c with cbQueue := c.cbQueue ++ [cb] }) hq noMoreRows
  rw [← hnext] at ht
  refine ⟨{ c.next isOpen cb with sent := [] }, ⟨?_, ht.flags.1.trans h.endFlag,
    ht.flags.2.2.2.1.trans h.closePromise, ht.flags.2.2.1.trans h.closeCb,
    ht.responses.trans h.responses, rfl, ?_⟩, ht.cbQueue, ht.calls⟩
  · rw [h.client]
    rfl
  · rw [← hlen]
    exact congrArg List.length ht.cbQueue

lemma Stuck.written {q : Client} {c : Cursor} (h : Stuck m q c) : q.written = q := by
  rw [h.client]
  simp only [Client.written, Client.onCursor, Option.map_some, ← h.sent]

lemma Stuck.chained {q : Client} {c : Cursor} (h : Stuck m q c) :
    q.onCursor (fun c => if c.closeCb && c.closePromise ≠ some .pending then
      c.runCloseCb .fulfilled else c) = q := by
  rw [h.client]
  simp [Client.onCursor, h.closeCb]

lemma Stuck.immediate {q : Client} {c : Cursor} (h : Stuck m q c) :
    Stuck m (q.onCursor Cursor.immediate).written c.immediate := by
  have hsent : c.immediate.sent = [] := h.sent
  refine ⟨?_, h.endFlag, h.closePromise, h.closeCb, h.responses, h.sent, h.waiting⟩
  rw [h.client]
  simp only [Client.onCursor, Client.written, Option.map_some, ← hsent]

/-- The cursor of a token that has been given out is stuck. -/
def StuckAt (token m : ℕ) (s : System) : Prop :=
  token < s.nextToken ∧ ∃ c, Stuck m (s.client token) c

section steps

variable {s' : System} (h : StuckAt token m s)
include h

lemma StuckAt.same (hc : s'.client token = s.client token) (hn : s.nextToken ≤ s'.nextToken) :
    StuckAt token m s' :=
  ⟨h.1.trans_le hn, hc ▸ h.2⟩

lemma StuckAt.send (hc : s'.client = s.client) (hn : s'.nextToken = s.nextToken) (q : Client)
    (query : Query) : StuckAt token m (s'.send q query) := by
  have hne : token ≠ s'.nextToken := (h.1.trans_eq hn.symm).ne
  refine h.same ?_ (by simp [System.send, hn])
  simp [System.send, Function.update_of_ne hne, hc]

lemma StuckAt.onClient {t : ℕ} {f : Client → Client}
    (hf : t = token → ∀ c, Stuck m (s.client token) c →
      ∃ c', Stuck m (f (s.client token)).written c') : StuckAt token m (s.onClient t f) := by
  obtain ⟨hn, c, hc⟩ := h
  refine ⟨hn, ?_⟩
  by_cases ht : t = token
  · subst ht
    simpa [System.onClient] using hf rfl c hc
  · exact ⟨c, by simpa [System.onClient, Function.update_of_ne (Ne.symm ht)] using hc⟩

lemma StuckAt.cancel : StuckAt token m s.cancel := by
  obtain ⟨-, c, hc⟩ := id h
  exact h.same (by simp [System.cancel, Client.cancel, hc.client]) le_rfl

lemma StuckAt.deliver : StuckAt token m s.deliver := by
  rw [System.deliver]
  split
  · exact h
  · next t response rest hs =>
    split_ifs
    · refine StuckAt.onClient (s := { s with toClient := rest }) h fun ht c hc => ⟨c, ?_⟩
      have hq : (s.client token).processResponse s.isOpen s.opened response = s.client token := by
        rw [hc.client]
        rfl
      simpa [hq, hc.written] using hc
    · exact h

lemma StuckAt.step {a : Action} (ha : a ≠ .closeCursor token) :
    StuckAt token m (s.step plan a) := by
  -- no action but `close` on the cursor itself changes how many callbacks wait
  cases a with
  | run noreply =>
    rw [System.step]
    split_ifs
    · exact h.send rfl rfl _ _
    · exact h.send rfl rfl _ _
    · exact h
  | noreplyWait =>
    rw [System.step]
    split_ifs
    · exact h.send rfl rfl _ _
    · exact h
  | next t cb =>
    refine h.onClient fun _ c hc => ?_
    obtain ⟨oldest, others, hq⟩ : ∃ oldest others, c.cbQueue ++ [cb] = oldest :: others :=
      List.exists_cons_of_ne_nil (by simp)
    exact (hc.next s.isOpen cb hq).imp fun _ hc => hc.1
  | closeCursor t => exact h.onClient fun ht => absurd (by rw [ht]) ha
  | chained t => exact h.onClient fun _ c hc => ⟨c, by rwa [hc.chained, hc.written]⟩
  | immediate t => exact h.onClient fun _ c hc => ⟨c.immediate, hc.immediate⟩
  | closeConnection wait =>
    rw [System.step, System.close]
    split_ifs
    · exact h
    · exact h.send rfl rfl ⟨some .callback, none, []⟩ .noreplyWait
    · exact StuckAt.cancel (s := { s with closeCall := some none }) h
  | shut =>
    rw [System.step]
    split
    · split_ifs
      · exact h.cancel
      · exact h
    · exact h
  | arrive =>
    rw [System.step, System.arrive]
    split
    · exact h
    · exact h.same rfl le_rfl
  | finish t interrupted =>
    rw [System.step, System.finish]
    split
    · exact h
    · split_ifs
      · exact h
      · split <;> exact h.same rfl le_rfl
  | deliver => exact h.deliver

end steps

lemma StuckAt.exec (h : StuckAt token m s) (more : List Action)
    (hm : ∀ a ∈ more, a ≠ .closeCursor token) : StuckAt token m (s.exec plan more) := by
  induction more generalizing s with
  | nil => exact h
  | cons a more ih =>
    exact ih (h.step plan (hm a List.mem_cons_self)) fun b hb => hm b (List.mem_cons_of_mem _ hb)

/-- The callbacks that wait when the result ends are told one at a time, and only
by later calls of `next`, each of which then waits itself: as long as the cursor
is not closed, as many callbacks wait as did before, whatever else happens. -/
theorem waiting_forever (plan : ℕ → Plan) (actions more : List Action) (token : ℕ) {c : Cursor}
    (hc : ((System.initial.exec plan actions).client token).cursor = some c)
    (ho : (System.initial.exec plan actions).opened = true) (hp : c.closePromise = none)
    (he : c.endFlag = true) (hq : c.cbQueue ≠ []) (hm : ∀ a ∈ more, a ≠ .closeCursor token) :
    ∃ c', ((System.initial.exec plan (actions ++ more)).client token).cursor = some c' ∧
      c'.cbQueue.length = c.cbQueue.length ∧
      ∀ cb, ∃ oldest others c'', c'.cbQueue = oldest :: others ∧
        ((System.initial.exec plan (actions ++ more ++ [.next token cb])).client token).cursor =
          some c'' ∧
        c''.cbQueue = others ++ [cb] ∧ c''.calls = c'.calls ++ [(oldest, noMoreRows)] := by
  rcases (view_inv plan actions token hc).open_cursor ho hc hp with ⟨rest, h⟩ | h
  · exact absurd (h.endFlag.symm.trans he) (by simp)
  · have hstuck : Stuck c.cbQueue.length ((System.initial.exec plan actions).client token) c :=
      ⟨h.client, he, hp, h.cursor.closeCb, h.waiting hq, h.cursor.sent, rfl⟩
    have hn : token < (System.initial.exec plan actions).nextToken := by
      rcases view_cases plan actions token with ⟨-, o, cl, hv⟩ | ⟨-, hn, -⟩
      · have hcl : (System.initial.exec plan actions).client token = .unborn :=
          congrArg Session.client hv
        rw [hcl] at hc
        cases hc
      · exact hn
    obtain ⟨-, c', h'⟩ := StuckAt.exec plan ⟨hn, c, hstuck⟩ more hm
    rw [← System.exec_append] at h'
    refine ⟨c', congrArg Client.cursor h'.client, h'.waiting, fun cb => ?_⟩
    obtain ⟨oldest, others, hqueue⟩ : ∃ oldest others, c'.cbQueue = oldest :: others := by
      refine List.exists_cons_of_ne_nil fun hnil => hq ?_
      rw [← List.length_eq_zero_iff, ← h'.waiting, hnil, List.length_nil]
    obtain ⟨c'', h'', hothers, hcalls⟩ :=
      h'.next (System.initial.exec plan (actions ++ more)).isOpen cb
      (show c'.cbQueue ++ [cb] = oldest :: (others ++ [cb]) by rw [hqueue]; rfl)
    refine ⟨oldest, others, c'', hqueue, ?_, hothers, hcalls⟩
    have hstep : (System.initial.exec plan (actions ++ more ++ [.next token cb])).client token =
        (((System.initial.exec plan (actions ++ more)).client token).onCursor fun c =>
          c.next (System.initial.exec plan (actions ++ more)).isOpen cb).written := by
      rw [System.exec_append]
      exact Function.update_self _ _ _
    rw [hstep]
    exact congrArg Client.cursor h''.client

/-- Four callbacks ask for the two rows; one is told the end and one waits on. -/
def fourAsk : List Action :=
  twoAsk ++ [.next 1 9, .next 1 10, .arrive, .finish 1 false, .deliver]

theorem waiting_forever_fourth : ∃ c',
    ((System.initial.exec (fun _ => twoBatches) (fourAsk ++ [.next 1 11, .run false])).client
      1).cursor =
      some c' ∧ c'.cbQueue.length = 1 ∧
    ∀ cb, ∃ oldest others c'', c'.cbQueue = oldest :: others ∧
      ((System.initial.exec (fun _ => twoBatches)
        (fourAsk ++ [.next 1 11, .run false] ++ [.next 1 cb])).client 1).cursor = some c'' ∧
      c''.cbQueue = others ++ [cb] ∧ c''.calls = c'.calls ++ [(oldest, noMoreRows)] :=
  waiting_forever (fun _ => twoBatches) fourAsk [.next 1 11,
    .run false] 1 rfl rfl rfl rfl (by decide)
    (by simp)

end stuck

end PersonnelBackend.Connections
