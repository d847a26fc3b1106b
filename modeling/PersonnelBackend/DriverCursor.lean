import Mathlib.Data.List.GetD
import PersonnelBackend.DocumentJson

/-! The cursors of the JavaScript driver (`cursor.coffee`). A cursor keeps the
responses the server has sent, hands their rows to the callbacks given to `next`,
and asks for the next batch while the last one is being read. What a method sends
and which callbacks it calls is recorded in the cursor itself. -/
namespace PersonnelBackend.Cursors
open Document

inductive ResponseType
  | successAtom
  | successSequence
  | successPartial
  | waitComplete
  | serverInfo
  | clientError
  | compileError
  | runtimeError
  deriving DecidableEq, Repr

inductive ResponseNote
  | sequenceFeed
  | atomFeed
  | orderByLimitFeed
  | unionedFeed
  | includesStates
  deriving DecidableEq, Repr

/-- A response of the server: its type `t`, its data `r` and its notes `n`. -/
structure Response where
  t : ResponseType
  r : List Json
  n : List ResponseNote
  deriving DecidableEq, Repr

/-- The queries of a connection. The term of a `start` is given by its token. -/
inductive Query
  | start (noreply : Bool)
  | continue
  | stop
  | noreplyWait
  deriving DecidableEq, Repr

/-- What a callback of `next` is called with. -/
inductive Reply
  | row (value : Json)
  | serverError (t : ResponseType) (r : List Json)
  | driverError (message : String)
  deriving DecidableEq, Repr

def noMoreRows : Reply := .driverError "No more rows in the cursor."

def cursorClosed : Reply := .driverError "Cursor is closed."

inductive Promise
  | pending
  | fulfilled
  | rejected
  deriving DecidableEq, Repr

namespace ResponseType

def isError : ResponseType → Bool
  | .clientError => true
  | .compileError => true
  | .runtimeError => true
  | _ => false

def isRows : ResponseType → Bool
  | .successPartial => true
  | .successSequence => true
  | _ => false

end ResponseType

/-- The single reply a response gives that does not carry rows. -/
def Response.failure (response : Response) : Reply :=
  if response.t.isError then .serverError response.t response.r
  else .driverError "Unknown response type for cursor"

/-- The replies a response stands for, one for each callback. -/
def Response.replies (response : Response) : List Reply :=
  if response.t.isRows then response.r.map .row else [response.failure]

/-- Everything but rows carries data: an error its message. -/
def Response.WellFormed (response : Response) : Prop := response.t.isRows = false → response.r ≠ []

def stackSize : ℕ := 100

/-- Whether `_getCallback` leaves a callback to `setImmediate`, by how many it has
returned before. -/
def deferred (iterations : ℕ) : Bool := (iterations + 1) % stackSize = stackSize - 1

structure Cursor where
  responses : List Response
  responseIndex : ℕ
  outstandingRequests : ℤ
  iterations : ℕ
  endFlag : Bool
  contFlag : Bool
  closeAsap : Bool
  cbQueue : List ℕ
  closeCb : Bool
  closePromise : Option Promise
  /-- The queries handed to the connection and not yet written. -/
  sent : List Query
  /-- The callbacks taken off the queue, with what they are to be called with. -/
  calls : List (ℕ × Reply)
  /-- Those among them that wait for `setImmediate`. -/
  immediates : List (ℕ × Reply)
  /-- The calls that have been made, in the order they were made. -/
  called : List (ℕ × Reply)
  /-- Whether a method has called the missing head of an empty queue. -/
  thrown : Bool
  deriving DecidableEq, Repr

namespace Cursor

/-- A new cursor counts the request whose response is about to be added. -/
def new : Cursor where
  responses := []
  responseIndex := 0
  outstandingRequests := 1
  iterations := 0
  endFlag := false
  contFlag := false
  closeAsap := false
  cbQueue := []
  closeCb := false
  closePromise := none
  sent := []
  calls := []
  immediates := []
  called := []
  thrown := false

/-- Take the first callback off the queue with `_getCallback` and call what that
returns: the callback itself, or a function that leaves the call to `setImmediate`. -/
def call (c : Cursor) (reply : Reply) : Cursor :=
  match c.cbQueue with
  | [] => { c with iterations := c.iterations + 1, thrown := true }
  | cb :: rest =>
    { c with
      iterations := c.iterations + 1
      cbQueue := rest
      calls := c.calls ++ [(cb, reply)]
      immediates := if deferred c.iterations then c.immediates ++ [(cb, reply)] else c.immediates
      called := if deferred c.iterations then c.called else c.called ++ [(cb, reply)] }

/-- The oldest call left to `setImmediate` is made. -/
def immediate (c : Cursor) : Cursor :=
  { c with immediates := c.immediates.tail, called := c.called ++ c.immediates.head?.toList }

def handleRow (c : Cursor) (response : Response) (later : List Response) : Cursor :=
  let c := c.call (.row (response.r.getD c.responseIndex .null))
  if c.responseIndex + 1 = response.r.length then { c with responses := later, responseIndex := 0 }
  else { c with responseIndex := c.responseIndex + 1 }

def bufferEmpty (c : Cursor) : Bool :=
  match c.responses with
  | [] => true
  | response :: _ => response.r.length ≤ c.responseIndex

/-- Ask for more data unless that has been done, the result has ended or the
connection is not open. -/
def promptCont (c : Cursor) (isOpen : Bool) : Cursor :=
  if !c.contFlag && !c.endFlag && isOpen then
    { c with
      contFlag := true
      outstandingRequests := c.outstandingRequests + 1
      sent := c.sent ++ [.continue] }
  else c

/-- Hand out the next reply of a buffer that is not empty. -/
def deliver (c : Cursor) (response : Response) (later : List Response) : Cursor :=
  if response.t.isRows then c.handleRow response later
  else { c with responses := later }.call response.failure

/-- The loop of `_promptNext`, along the waiting callbacks. At the end of the
result one callback is told so and the loop returns. -/
def promptLoop (isOpen : Bool) : List ℕ → Cursor → Cursor
  | [], c => c
  | _ :: rest, c =>
    match c.responses with
    | [] => if c.endFlag then c.call noMoreRows else c.promptCont isOpen
    | response :: later =>
      if c.bufferEmpty then
        if c.endFlag then c.call noMoreRows
        else if later = [] then c.promptCont isOpen else c
      else
        -- the last response is being read: ask for the next one already
        promptLoop isOpen rest
          ((if later = [] then c.promptCont isOpen else c).deliver response later)

def promptNext (c : Cursor) (isOpen : Bool) : Cursor :=
  let c := if c.closePromise.isSome then c.call cursorClosed else c
  promptLoop isOpen c.cbQueue c

def next (c : Cursor) (isOpen : Bool) (cb : ℕ) : Cursor :=
  { c with cbQueue := c.cbQueue ++ [cb] }.promptNext isOpen

/-- The function `_closeCb`: drop what is buffered and everyone who waits, and
settle the promise of `close` if that has not been done. -/
def runCloseCb (c : Cursor) (outcome : Promise) : Cursor :=
  { c with
    responses := []
    responseIndex := 0
    cbQueue := []
    outstandingRequests := 0
    closePromise := if c.closePromise = some .pending then some outcome else c.closePromise }

/-- The method `close`; `isOpen` is the connection's `open` flag. -/
def close (c : Cursor) (isOpen : Bool) : Cursor :=
  match c.closePromise with
  | some .pending => c
  | some _ => { c with closePromise := some .fulfilled }
  | none =>
    if c.endFlag then
      { c with closePromise := some .fulfilled, responses := [], responseIndex := 0 }
    else
      let c := { c with
        closeCb := true
        closeAsap := true
        outstandingRequests := c.outstandingRequests + 1 }
      if isOpen then { c with closePromise := some .pending, sent := c.sent ++ [.stop] }
      else { c with closePromise := some .rejected }

/-- Empty row responses are counted but not kept. -/
def push (c : Cursor) (response : Response) : Cursor :=
  { c with
    responses :=
      if response.t.isRows && response.r.isEmpty then c.responses else c.responses ++ [response]
    outstandingRequests := c.outstandingRequests - 1 }

/-- Everything but a partial response ends the result. -/
def finish (c : Cursor) (response : Response) : Cursor :=
  if response.t = .successPartial then c
  else
    let c := { c with endFlag := true }
    if c.closeCb then c.runCloseCb (if response.t.isError then .rejected else .fulfilled) else c

/-- The cursor with the response taken in, before anybody is told. -/
def received (c : Cursor) (response : Response) : Cursor :=
  { (c.push response).finish response with contFlag := false }

/-- The method `_addResponse`; `isOpen` is the connection's `isOpen()` and
`connOpen` its `open` flag. -/
def addResponse (c : Cursor) (isOpen connOpen : Bool) (response : Response) : Cursor :=
  let c := c.received response
  if c.closeAsap then c.close connOpen else c.promptNext isOpen

/-! ### What is buffered and what has been handed out -/

def buffered (c : Cursor) : List Reply :=
  match c.responses with
  | [] => []
  | response :: later => response.replies.drop c.responseIndex ++ later.flatMap Response.replies

/-- The replies handed out, without the driver's own end markers. -/
def delivered (c : Cursor) : List Reply :=
  (c.calls.map Prod.snd).filter fun reply => reply ≠ noMoreRows ∧ reply ≠ cursorClosed

/-- The callbacks taken off the queue have got replies of the server, and after
those `k` of them the end. -/
def Told (c : Cursor) (k : ℕ) : Prop :=
  c.calls.map Prod.snd = c.delivered ++ List.replicate k noMoreRows

/-- Responses in the buffer have data, and the index points into the first one. -/
structure Valid (c : Cursor) : Prop where
  filled : ∀ response ∈ c.responses, response.r ≠ []
  index : ∀ response ∈ c.responses.head?,
    if response.t.isRows then c.responseIndex < response.r.length else c.responseIndex = 0
  start : c.responses = [] → c.responseIndex = 0

/-- The part of a cursor that handing out replies does not touch. -/
def SameFlags (c c' : Cursor) : Prop :=
  c'.endFlag = c.endFlag ∧ c'.closeAsap = c.closeAsap ∧ c'.closeCb = c.closeCb ∧
    c'.closePromise = c.closePromise ∧ c'.thrown = c.thrown

/-- Nothing asked, or one batch asked for by a cursor that had nothing outstanding. -/
def Asked (isOpen : Bool) (c c' : Cursor) : Prop :=
  (c'.contFlag = c.contFlag ∧ c'.outstandingRequests = c.outstandingRequests ∧ c'.sent = c.sent) ∨
    (c.contFlag = false ∧ c.endFlag = false ∧ isOpen = true ∧ c'.contFlag = true ∧
      c'.outstandingRequests = c.outstandingRequests + 1 ∧ c'.sent = c.sent ++ [.continue])

lemma SameFlags.trans {a b c : Cursor} (h : SameFlags a b) (g : SameFlags b c) : SameFlags a c :=
  ⟨g.1.trans h.1, g.2.1.trans h.2.1, g.2.2.1.trans h.2.2.1, g.2.2.2.1.trans h.2.2.2.1,
    g.2.2.2.2.trans h.2.2.2.2⟩

lemma Asked.refl (isOpen : Bool) (c : Cursor) : Asked isOpen c c := .inl ⟨rfl, rfl, rfl⟩

lemma Asked.trans {isOpen : Bool} {a b c : Cursor} (h : Asked isOpen a b)
    (hf : b.endFlag = a.endFlag) (g : Asked isOpen b c) : Asked isOpen a c := by
  rcases h with ⟨h1, h2, h3⟩ | ⟨h1, h2, h3, h4, h5, h6⟩
  · rcases g with ⟨g1, g2, g3⟩ | ⟨g1, g2, g3, g4, g5, g6⟩
    · exact .inl ⟨g1.trans h1, g2.trans h2, g3.trans h3⟩
    · exact .inr ⟨h1 ▸ g1, hf ▸ g2, g3, g4, by rw [g5, h2], by rw [g6, h3]⟩
  · rcases g with ⟨g1, g2, g3⟩ | ⟨g1, -⟩
    · exact .inr ⟨h1, h2, h3, g1.trans h4, g2.trans h5, g3.trans h6⟩
    · rw [h4] at g1
      cases g1

lemma Valid.of_eq {c c' : Cursor} (h : c.Valid) (hr : c'.responses = c.responses)
    (hi : c'.responseIndex = c.responseIndex) : c'.Valid := by
  obtain ⟨h1, h2, h3⟩ := h
  exact ⟨hr ▸ h1, by rw [hr, hi]; exact h2, by rw [hr, hi]; exact h3⟩

lemma buffered_of_eq {c c' : Cursor} (hr : c'.responses = c.responses)
    (hi : c'.responseIndex = c.responseIndex) : c'.buffered = c.buffered := by
  rw [buffered, buffered, hr, hi]

lemma promptCont_cases (c : Cursor) (isOpen : Bool) :
    c.promptCont isOpen = c ∧ (c.contFlag = true ∨ c.endFlag = true ∨ isOpen = false) ∨
      c.contFlag = false ∧ c.endFlag = false ∧ isOpen = true ∧ c.promptCont isOpen =
        { c with
          contFlag := true
          outstandingRequests := c.outstandingRequests + 1
          sent := c.sent ++ [.continue] } := by
  rw [promptCont]
  split_ifs with h
  · simp only [Bool.and_eq_true, Bool.not_eq_true'] at h
    exact .inr ⟨h.1.1, h.1.2, h.2, rfl⟩
  · refine .inl ⟨rfl, ?_⟩
    cases hc : c.contFlag <;> cases he : c.endFlag <;> cases isOpen <;> simp [hc, he] at h ⊢

/-- Asking for more data changes nothing but what is asked. -/
structure Continued (isOpen : Bool) (c c' : Cursor) : Prop where
  flags : SameFlags c c'
  asked : Asked isOpen c c'
  responses : c'.responses = c.responses
  responseIndex : c'.responseIndex = c.responseIndex
  cbQueue : c'.cbQueue = c.cbQueue
  calls : c'.calls = c.calls
  waits : c'.endFlag = true ∨ c'.contFlag = true ∨ isOpen = false

lemma promptCont_continued (c : Cursor) (isOpen : Bool) :
    Continued isOpen c (c.promptCont isOpen) := by
  rcases promptCont_cases c isOpen with ⟨h, hw⟩ | ⟨hc, he, ho, h⟩
  · rw [h]
    refine ⟨⟨rfl, rfl, rfl, rfl, rfl⟩, .refl _ _, rfl, rfl, rfl, rfl, ?_⟩
    tauto
  · rw [h]
    exact ⟨⟨rfl, rfl, rfl, rfl, rfl⟩, .inr ⟨hc, he, ho, rfl, rfl, rfl⟩, rfl, rfl, rfl, rfl,
      .inr (.inl rfl)⟩

lemma replies_ne_marker {response : Response} {reply : Reply} (h : reply ∈ response.replies) :
    reply ≠ noMoreRows ∧ reply ≠ cursorClosed := by
  rw [Response.replies] at h
  split_ifs at h with hr
  · obtain ⟨value, -, rfl⟩ := List.mem_map.mp h
    exact ⟨by simp [noMoreRows], by simp [cursorClosed]⟩
  · rw [List.mem_singleton.mp h, Response.failure]
    split_ifs <;> simp [noMoreRows, cursorClosed]

lemma buffered_of_index_zero {c : Cursor} (h : c.responseIndex = 0) :
    c.buffered = c.responses.flatMap Response.replies := by
  rw [buffered]
  cases c.responses with
  | nil => rfl
  | cons response later => simp [h]

lemma Valid.tail {c c' : Cursor} {response : Response} (h : c.Valid)
    (hr : c.responses = response :: c'.responses) (hi : c'.responseIndex = 0) : c'.Valid := by
  have hf : ∀ x ∈ c'.responses, x.r ≠ [] := fun x hx => h.filled x (hr ▸ List.mem_cons_of_mem _ hx)
  refine ⟨hf, fun x hx => ?_, fun _ => hi⟩
  have hpos : 0 < x.r.length := List.length_pos_of_ne_nil (hf x (List.mem_of_mem_head? hx))
  rw [hi]
  split_ifs
  · exact hpos
  · rfl

lemma call_of_queue {c : Cursor} {cb : ℕ} {rest : List ℕ} (hq : c.cbQueue = cb :: rest)
    (reply : Reply) :
    c.call reply =
      { c with
        iterations := c.iterations + 1
        cbQueue := rest
        calls := c.calls ++ [(cb, reply)]
        immediates := if deferred c.iterations then c.immediates ++ [(cb, reply)] else c.immediates
        called := if deferred c.iterations then c.called else c.called ++ [(cb, reply)] } := by
  rw [call, hq]

structure Taken (c : Cursor) (cb : ℕ) (rest : List ℕ) (reply : Reply) (c' : Cursor) : Prop where
  calls : c'.calls = c.calls ++ [(cb, reply)]
  cbQueue : c'.cbQueue = rest
  responses : c'.responses = c.responses
  responseIndex : c'.responseIndex = c.responseIndex
  flags : SameFlags c c'
  asked : ∀ isOpen, Asked isOpen c c'

lemma call_taken {c : Cursor} {cb : ℕ} {rest : List ℕ} (hq : c.cbQueue = cb :: rest)
    (reply : Reply) :
    Taken c cb rest reply (c.call reply) := by
  rw [call_of_queue hq]
  exact ⟨rfl, rfl, rfl, rfl, ⟨rfl, rfl, rfl, rfl, rfl⟩, fun _ => .inl ⟨rfl, rfl, rfl⟩⟩

/-- What one turn of the loop does: the first buffered reply goes to the first
waiting callback. -/
structure Delivered (c : Cursor) (cb : ℕ) (rest : List ℕ) (c' : Cursor) : Prop where
  handed : ∃ reply, (reply ≠ noMoreRows ∧ reply ≠ cursorClosed) ∧
    c.buffered = reply :: c'.buffered ∧
    c'.calls = c.calls ++ [(cb, reply)]
  cbQueue : c'.cbQueue = rest
  valid : c'.Valid
  flags : SameFlags c c'
  contFlag : c'.contFlag = c.contFlag
  outstandingRequests : c'.outstandingRequests = c.outstandingRequests
  sent : c'.sent = c.sent

lemma handleRow_delivered {c : Cursor} {response : Response} {later : List Response} {cb : ℕ}
    {rest : List ℕ} (hv : c.Valid) (hr : c.responses = response :: later)
    (hq : c.cbQueue = cb :: rest) (ht : response.t.isRows = true) :
    Delivered c cb rest (c.handleRow response later) := by
  have hlt : c.responseIndex < response.r.length := by
    have h := hv.index response (by simp [hr])
    rwa [if_pos ht] at h
  have hcall : c.call (.row (response.r.getD c.responseIndex .null)) =
      c.call (.row response.r[c.responseIndex]) := by
    rw [List.getD_eq_getElem _ _ hlt]
  have hbuf : c.buffered = .row response.r[c.responseIndex] ::
      ((response.r.map .row).drop (c.responseIndex + 1) ++ later.flatMap Response.replies) := by
    simp only [buffered, hr, Response.replies, if_pos ht]
    rw [List.drop_eq_getElem_cons (by rw [List.length_map]; exact hlt), List.getElem_map]
    rfl
  have hm : Reply.row response.r[c.responseIndex] ≠ noMoreRows ∧
      Reply.row response.r[c.responseIndex] ≠ cursorClosed :=
        ⟨by simp [noMoreRows], by simp [cursorClosed]⟩
  simp only [handleRow, hcall, call_of_queue hq]
  by_cases hlast : c.responseIndex + 1 = response.r.length
  · rw [if_pos hlast]
    refine ⟨⟨_, hm, ?_, rfl⟩, rfl, hv.tail hr rfl, ⟨rfl, rfl, rfl, rfl, rfl⟩, rfl, rfl, rfl⟩
    rw [hbuf, buffered_of_index_zero rfl, List.drop_of_length_le (by simp [← hlast]),
      List.nil_append]
  · rw [if_neg hlast]
    refine ⟨⟨_, hm, ?_, rfl⟩, rfl, ?_, ⟨rfl, rfl, rfl, rfl, rfl⟩, rfl, rfl, rfl⟩
    · rw [hbuf]
      simp only [buffered, hr, Response.replies, if_pos ht]
    · refine ⟨hv.filled, fun x hx => ?_, fun h => absurd (hr.symm.trans h) (by simp)⟩
      obtain rfl : response = x := by simpa [hr] using hx
      rw [if_pos ht]
      change c.responseIndex + 1 < response.r.length
      omega

lemma deliver_delivered {c : Cursor} {response : Response} {later : List Response} {cb : ℕ}
    {rest : List ℕ} (hv : c.Valid) (hr : c.responses = response :: later)
    (hq : c.cbQueue = cb :: rest) :
    Delivered c cb rest (c.deliver response later) := by
  rw [deliver]
  split_ifs with ht
  · exact handleRow_delivered hv hr hq ht
  · have hi : c.responseIndex = 0 := by
      have h := hv.index response (by simp [hr])
      rwa [if_neg ht] at h
    have hrep : response.replies = [response.failure] := by rw [Response.replies, if_neg ht]
    have hm := replies_ne_marker (hrep ▸ List.mem_singleton_self response.failure)
    rw [call_of_queue (c := { c with responses := later }) hq]
    refine ⟨⟨_, hm, ?_, rfl⟩, rfl, hv.tail hr hi, ⟨rfl, rfl, rfl, rfl, rfl⟩, rfl, rfl, rfl⟩
    rw [buffered_of_index_zero hi, hr, List.flatMap_cons, hrep]
    refine congrArg (response.failure :: ·) (Eq.symm ?_)
    exact buffered_of_index_zero hi

lemma bufferEmpty_eq_false {c : Cursor} {response : Response} {later : List Response} (hv : c.Valid)
    (hr : c.responses = response :: later) : c.bufferEmpty = false := by
  have h := hv.index response (by simp [hr])
  have hpos : 0 < response.r.length := List.length_pos_of_ne_nil (hv.filled response (by simp [hr]))
  rw [bufferEmpty, hr]
  refine decide_eq_false ?_
  split_ifs at h <;> omega

/-- What `_promptNext` leaves: the replies handed out and those still buffered
are the same sequence as before; whoever still waits does so because the buffer
is empty and the result has ended, a batch is on its way or the connection is
closing; the end is told only after everything has been handed out. -/
structure Prompted (isOpen : Bool) (c c' : Cursor) : Prop where
  valid : c'.Valid
  replies : c'.delivered ++ c'.buffered = c.delivered ++ c.buffered
  flags : SameFlags c c'
  asked : Asked isOpen c c'
  waiting : c'.cbQueue ≠ [] →
    c'.responses = [] ∧ (c'.endFlag = true ∨ c'.contFlag = true ∨ isOpen = false)
  told : c.closePromise = none → ∀ k, c.Told k → (k = 0 ∨ c.responses = []) →
    ∃ k', c'.Told k' ∧ (k' = k ∨ c'.endFlag = true ∧ c'.responses = [])
  empty : c.responses = [] → c'.responses = []

lemma delivered_marker {c : Cursor} {calls : List (ℕ × Reply)} {cb : ℕ} {reply : Reply}
    (hc : c.calls = calls ++ [(cb, reply)]) (h : reply = noMoreRows ∨ reply = cursorClosed) :
    c.delivered = (calls.map Prod.snd).filter fun reply => reply ≠ noMoreRows ∧
    reply ≠ cursorClosed := by
  rw [delivered, hc]
  rcases h with rfl | rfl <;> simp

lemma delivered_reply {c : Cursor} {calls : List (ℕ × Reply)} {cb : ℕ} {reply : Reply}
    (hc : c.calls = calls ++ [(cb, reply)]) (h : reply ≠ noMoreRows ∧ reply ≠ cursorClosed) :
    c.delivered = ((calls.map Prod.snd).filter fun reply => reply ≠ noMoreRows ∧
      reply ≠ cursorClosed) ++
      [reply] := by
  rw [delivered, hc]
  simp [h.1, h.2]

lemma delivered_of_eq {c c' : Cursor} (h : c'.calls = c.calls) : c'.delivered = c.delivered := by
  rw [delivered, delivered, h]

lemma Told.of_eq {c c' : Cursor} {k : ℕ} (ht : c.Told k) (h : c'.calls = c.calls) : c'.Told k := by
  rw [Told, delivered_of_eq h, h]
  exact ht

lemma prompted_continue {c : Cursor} (isOpen : Bool) (hv : c.Valid) (hr : c.responses = []) :
    Prompted isOpen c (c.promptCont isOpen) := by
  have h := promptCont_continued c isOpen
  refine ⟨hv.of_eq h.responses h.responseIndex, ?_, h.flags, h.asked,
    fun _ => ⟨h.responses.trans hr, h.waits⟩, fun _ k ht _ => ⟨k, ht.of_eq h.calls, .inl rfl⟩,
    h.responses.trans⟩
  rw [delivered_of_eq h.calls, buffered_of_eq h.responses h.responseIndex]

lemma prompted_end {c : Cursor} {cb : ℕ} {rest : List ℕ} (isOpen : Bool) (hv : c.Valid)
    (hr : c.responses = []) (he : c.endFlag = true) (hq : c.cbQueue = cb :: rest) :
    Prompted isOpen c (c.call noMoreRows) := by
  have h := call_taken hq noMoreRows
  have hd : (c.call noMoreRows).delivered = c.delivered := delivered_marker h.calls (.inl rfl)
  refine ⟨hv.of_eq h.responses h.responseIndex, ?_, h.flags, h.asked isOpen,
    fun _ => ⟨h.responses.trans hr, .inl (h.flags.1.trans he)⟩,
    fun _ k ht _ => ⟨k + 1, ?_, .inr ?_⟩,
    h.responses.trans⟩
  · rw [hd, buffered_of_eq h.responses h.responseIndex]
  · have ht' : c.calls.map Prod.snd = c.delivered ++ List.replicate k noMoreRows := ht
    rw [Told, hd, h.calls, List.map_append, ht', List.replicate_succ', List.append_assoc]
    rfl
  · exact ⟨h.flags.1.trans he, h.responses.trans hr⟩

theorem promptLoop_prompted (isOpen : Bool) (queue : List ℕ) {c : Cursor} (hv : c.Valid)
    (hq : c.cbQueue = queue) : Prompted isOpen c (promptLoop isOpen queue c) := by
  induction queue generalizing c with
  | nil =>
    exact ⟨hv, rfl, ⟨rfl, rfl, rfl, rfl, rfl⟩, .refl _ _, fun h => absurd hq h,
      fun _ k ht _ => ⟨k, ht, .inl rfl⟩, id⟩
  | cons cb rest ih =>
    rw [promptLoop]
    split
    · next hr =>
      split_ifs with he
      · exact prompted_end isOpen hv hr he hq
      · exact prompted_continue isOpen hv hr
    · next response later hr =>
      rw [bufferEmpty_eq_false hv hr, if_neg Bool.false_ne_true]
      -- the prefetch first, then one reply, then the rest of the queue
      set c₁ := if later = [] then c.promptCont isOpen else c with hc₁
      have h₁ : SameFlags c c₁ ∧ Asked isOpen c c₁ ∧ c₁.responses = c.responses ∧
          c₁.responseIndex = c.responseIndex ∧ c₁.cbQueue = c.cbQueue ∧ c₁.calls = c.calls := by
        rw [hc₁]
        split_ifs
        · have h := promptCont_continued c isOpen
          exact ⟨h.flags, h.asked, h.responses, h.responseIndex, h.cbQueue, h.calls⟩
        · exact ⟨⟨rfl, rfl, rfl, rfl, rfl⟩, .refl _ _, rfl, rfl, rfl, rfl⟩
      obtain ⟨hf, ha, hres, hidx, hcb, hcalls⟩ := h₁
      have hd := deliver_delivered (hv.of_eq hres hidx) (hres.trans hr) (hcb.trans hq)
      obtain ⟨reply, hm, hbuf, hcalls₂⟩ := hd.handed
      have hp := ih hd.valid hd.cbQueue
      have hask : Asked isOpen c (c₁.deliver response later) := by
        refine ha.trans hf.1 (.inl ⟨hd.contFlag, hd.outstandingRequests, hd.sent⟩)
      have hflags := hf.trans hd.flags
      have hd₁ : (c₁.deliver response later).delivered = c.delivered ++ [reply] := by
        rw [delivered_reply hcalls₂ hm, hcalls]
        rfl
      refine ⟨hp.valid, ?_, hflags.trans hp.flags, hask.trans hflags.1 hp.asked, hp.waiting, ?_,
        fun h => absurd (hr.symm.trans h) (by simp)⟩
      · rw [hp.replies, hd₁, ← buffered_of_eq hres hidx, hbuf, List.append_assoc,
          List.singleton_append]
      · intro hnone k ht hk
        -- there is something to hand out, so that nobody has been told the end
        obtain rfl : k = 0 := hk.resolve_right (by simp [hr])
        have ht' : c.calls.map Prod.snd = c.delivered ++ List.replicate 0 noMoreRows := ht
        refine hp.told (hflags.2.2.2.1.trans hnone) 0 ?_ (.inl rfl)
        rw [Told, hd₁, hcalls₂, hcalls, List.map_append, ht']
        simp

lemma promptNext_prompted {c : Cursor} (isOpen : Bool) (hv : c.Valid)
    (hq : c.closePromise.isSome = true → c.cbQueue ≠ []) :
    Prompted isOpen c (c.promptNext isOpen) := by
  rw [promptNext]
  by_cases hc : c.closePromise.isSome = true
  · obtain ⟨cb, rest, hcb⟩ := List.exists_cons_of_ne_nil (hq hc)
    have ht := call_taken hcb cursorClosed
    have hd : (c.call cursorClosed).delivered = c.delivered := delivered_marker ht.calls (.inr rfl)
    have h := promptLoop_prompted isOpen rest (hv.of_eq ht.responses ht.responseIndex) ht.cbQueue
    simp only [hc, if_true, ht.cbQueue]
    refine ⟨h.valid, ?_, ht.flags.trans h.flags, (ht.asked isOpen).trans ht.flags.1 h.asked,
      h.waiting, fun hnone => ?_, fun hr => h.empty (ht.responses.trans hr)⟩
    · rw [h.replies, hd, buffered_of_eq ht.responses ht.responseIndex]
    · simp [hnone] at hc
  · simp only [hc]
    exact promptLoop_prompted isOpen c.cbQueue hv rfl

theorem next_prompted {c : Cursor} (isOpen : Bool) (cb : ℕ) (hv : c.Valid) :
    Prompted isOpen c (c.next isOpen cb) := by
  have h := promptNext_prompted (c := { c with cbQueue := c.cbQueue ++ [cb] }) isOpen
    (hv.of_eq rfl rfl) (fun _ => by simp)
  refine ⟨h.valid, ?_, h.flags, h.asked, h.waiting, h.told, h.empty⟩
  rw [next, h.replies, buffered_of_eq rfl rfl]
  rfl

lemma push_responses (c : Cursor) (response : Response) :
    (c.push response).responses = c.responses ∧ response.replies = [] ∨
      (c.push response).responses = c.responses ++ [response] ∧
        (response.t.isRows = true → response.r ≠ []) := by
  simp only [push, Bool.and_eq_true, List.isEmpty_iff]
  split_ifs with h
  · exact .inl ⟨rfl, by rw [Response.replies, if_pos h.1, h.2]; rfl⟩
  · exact .inr ⟨rfl, fun ht hr => h ⟨ht, hr⟩⟩

lemma push_valid {c : Cursor} {response : Response} (hv : c.Valid) (hw : response.WellFormed) :
    (c.push response).Valid := by
  rcases push_responses c response with ⟨h, -⟩ | ⟨h, hr⟩
  · exact hv.of_eq h rfl
  · have hne : response.r ≠ [] := by
      cases ht : response.t.isRows with
      | true => exact hr ht
      | false => exact hw ht
    refine ⟨fun x hx => ?_, fun x hx => ?_, fun hn => ?_⟩
    · rw [h] at hx
      rcases List.mem_append.mp hx with hx | hx
      · exact hv.filled x hx
      · rwa [List.mem_singleton.mp hx]
    · rw [h] at hx
      cases hcr : c.responses with
      | nil =>
        obtain rfl : response = x := by simpa [hcr] using hx
        have hi : (c.push response).responseIndex = 0 := hv.start hcr
        rw [hi]
        have hpos := List.length_pos_of_ne_nil hne
        split_ifs
        · exact hpos
        · rfl
      | cons y later =>
        refine hv.index x ?_
        simpa [hcr] using hx
    · rw [h] at hn
      simp at hn

lemma push_buffered {c : Cursor} (response : Response) (hv : c.Valid) :
    (c.push response).buffered = c.buffered ++ response.replies := by
  rcases push_responses c response with ⟨h, hr⟩ | ⟨h, -⟩
  · rw [buffered_of_eq h rfl, hr, List.append_nil]
  · rw [buffered, buffered, h]
    cases hcr : c.responses with
    | nil =>
      have hi : (c.push response).responseIndex = 0 := hv.start hcr
      simp [hi]
    | cons y later =>
      have hi : (c.push response).responseIndex = c.responseIndex := rfl
      simp [hi]

/-- What a cursor that has not been closed takes in with a response. -/
structure Received (c : Cursor) (response : Response) (c' : Cursor) : Prop where
  valid : c'.Valid
  buffered : c'.buffered = c.buffered ++ response.replies
  calls : c'.calls = c.calls
  cbQueue : c'.cbQueue = c.cbQueue
  endFlag : c'.endFlag = if response.t = .successPartial then c.endFlag else true
  contFlag : c'.contFlag = false
  outstandingRequests : c'.outstandingRequests = c.outstandingRequests - 1
  sent : c'.sent = c.sent
  closeAsap : c'.closeAsap = c.closeAsap
  closeCb : c'.closeCb = c.closeCb
  closePromise : c'.closePromise = c.closePromise
  thrown : c'.thrown = c.thrown

lemma finish_of_open {c : Cursor} {response : Response} (ht : response.t ≠ .successPartial)
    (hcb : c.closeCb = false) : c.finish response = { c with endFlag := true } := by
  simp [finish, ht, hcb]

lemma finish_of_closing {c : Cursor} {response : Response} (ht : response.t ≠ .successPartial)
    (hcb : c.closeCb = true) : c.finish response =
      { c with endFlag := true }.runCloseCb
        (if response.t.isError then .rejected else .fulfilled) := by
  simp [finish, ht, hcb]

lemma received_open {c : Cursor} {response : Response} (hv : c.Valid) (hw : response.WellFormed)
    (hc : response.t = .successPartial ∨ c.closeCb = false) :
    Received c response (c.received response) := by
  have hp := push_valid hv hw
  have hb := push_buffered response hv
  rw [received]
  by_cases ht : response.t = .successPartial
  · have hf : (c.push response).finish response = c.push response := by rw [finish, if_pos ht]
    rw [hf]
    exact ⟨hp.of_eq rfl rfl, (buffered_of_eq rfl rfl).trans hb, rfl, rfl,
      by rw [if_pos ht]; rfl, rfl, rfl, rfl, rfl, rfl, rfl, rfl⟩
  · have hcb : (c.push response).closeCb = false := hc.resolve_left ht
    rw [finish_of_open ht hcb]
    exact ⟨hp.of_eq rfl rfl, (buffered_of_eq rfl rfl).trans hb, rfl, rfl,
      by rw [if_neg ht], rfl, rfl, rfl, rfl, rfl, rfl, rfl⟩

theorem addResponse_open {c : Cursor} {response : Response} (isOpen connOpen : Bool) (hv : c.Valid)
    (hw : response.WellFormed) (hcb : c.closeCb = false) (ha : c.closeAsap = false)
    (hp : c.closePromise = none) :
    Received c response (c.received response) ∧
      Prompted isOpen (c.received response) (c.addResponse isOpen connOpen response) := by
  have h := received_open hv hw (.inr hcb)
  refine ⟨h, ?_⟩
  have hasap : (c.received response).closeAsap = false := h.closeAsap.trans ha
  have hprom : (c.received response).closePromise = none := h.closePromise.trans hp
  simp only [addResponse, hasap]
  exact promptNext_prompted isOpen h.valid fun hs => by simp [hprom] at hs

/-- A cursor on its way to be closed: `close` has been called before the end. -/
structure Closing (c : Cursor) : Prop where
  closeCb : c.closeCb = true
  closeAsap : c.closeAsap = true
  promised : c.closePromise.isSome = true

structure Cleared (c c' : Cursor) : Prop where
  responses : c'.responses = []
  responseIndex : c'.responseIndex = 0
  cbQueue : c'.cbQueue = []
  outstandingRequests : c'.outstandingRequests = 0
  calls : c'.calls = c.calls
  sent : c'.sent = c.sent
  thrown : c'.thrown = c.thrown
  endFlag : c'.endFlag = true
  closing : c'.Closing
  settled : c'.closePromise ≠ some .pending

lemma Cleared.valid {c c' : Cursor} (h : Cleared c c') : c'.Valid :=
  ⟨fun x hx => by simp [h.responses] at hx, fun x hx => by simp [h.responses] at hx,
    fun _ => h.responseIndex⟩

lemma runCloseCb_cleared {c : Cursor} (outcome : Promise) (hc : c.Closing) (he : c.endFlag = true)
    (ho : outcome ≠ .pending) : Cleared c (c.runCloseCb outcome) := by
  refine ⟨rfl, rfl, rfl, rfl, rfl, rfl, rfl, he, ⟨hc.closeCb, hc.closeAsap, ?_⟩, ?_⟩
  · simp only [runCloseCb]
    split_ifs
    · rfl
    · exact hc.promised
  · simp only [runCloseCb]
    split_ifs with h
    · simpa using ho
    · exact h

lemma close_of_promised {c : Cursor} (connOpen : Bool) (hc : c.closePromise.isSome = true) :
    c.close connOpen = c ∧ c.closePromise = some .pending ∨
      c.close connOpen = { c with closePromise := some .fulfilled } ∧
      c.closePromise ≠ some .pending := by
  obtain ⟨promise, hp⟩ := Option.isSome_iff_exists.mp hc
  rw [close, hp]
  cases promise with
  | pending => exact .inl ⟨rfl, rfl⟩
  | fulfilled => exact .inr ⟨rfl, by simp⟩
  | rejected => exact .inr ⟨rfl, by simp⟩

lemma addResponse_closing_partial {c : Cursor} {response : Response} (isOpen connOpen : Bool)
    (hv : c.Valid) (hw : response.WellFormed) (hc : c.Closing) (ht : response.t = .successPartial) :
    (c.addResponse isOpen connOpen response).Closing ∧
      ∃ c', Received c response c' ∧ ((c.addResponse isOpen connOpen response) = c' ∨
        (c.addResponse isOpen connOpen response) = { c' with closePromise := some .fulfilled } ∧
          c.closePromise ≠ some .pending) := by
  have h := received_open hv hw (.inl ht)
  have hasap : (c.received response).closeAsap = true := h.closeAsap.trans hc.closeAsap
  have hsome : (c.received response).closePromise.isSome = true := h.closePromise ▸ hc.promised
  simp only [addResponse, hasap, if_true]
  rcases close_of_promised connOpen hsome with ⟨he, -⟩ | ⟨he, hne⟩
  · rw [he]
    exact ⟨⟨h.closeCb.trans hc.closeCb, hasap, hsome⟩, _, h, .inl rfl⟩
  · rw [he]
    exact ⟨⟨h.closeCb.trans hc.closeCb, hasap, rfl⟩, _, h, .inr ⟨rfl, h.closePromise ▸ hne⟩⟩

lemma addResponse_closing_end {c : Cursor} {response : Response} (isOpen connOpen : Bool)
    (hc : c.Closing) (ht : response.t ≠ .successPartial) :
    Cleared c (c.addResponse isOpen connOpen response) := by
  have hcb : (c.push response).closeCb = true := hc.closeCb
  have hcl : Cleared c (c.received response) := by
    have h := runCloseCb_cleared (c := { c.push response with endFlag := true })
      (if response.t.isError then .rejected else .fulfilled)
      ⟨hc.closeCb, hc.closeAsap, hc.promised⟩ rfl (by split_ifs <;> simp)
    rw [received, finish_of_closing ht hcb]
    exact ⟨h.responses, h.responseIndex, h.cbQueue, h.outstandingRequests, h.calls,
      h.sent, h.thrown, h.endFlag, ⟨h.closing.closeCb, h.closing.closeAsap, h.closing.promised⟩,
      h.settled⟩
  simp only [addResponse, hcl.closing.closeAsap, if_true]
  rcases close_of_promised connOpen hcl.closing.promised with ⟨-, hp⟩ | ⟨he, -⟩
  · exact absurd hp hcl.settled
  · rw [he]
    exact ⟨hcl.responses, hcl.responseIndex, hcl.cbQueue, hcl.outstandingRequests,
      hcl.calls, hcl.sent, hcl.thrown, hcl.endFlag,
      ⟨hcl.closing.closeCb, hcl.closing.closeAsap, rfl⟩, by simp⟩

end Cursor

end PersonnelBackend.Cursors
