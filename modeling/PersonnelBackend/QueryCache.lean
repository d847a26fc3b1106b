import PersonnelBackend.DriverCursor

/-! The server's end of a connection (`query_cache.cc`, `query_server.cc`): what
happens to the entry of a token when a query arrives, and when the coroutine that
serves it gets hold of the entry. The driver never uses a token twice, so that a
coroutine whose entry is gone is one whose entry was deleted while it waited. -/
namespace PersonnelBackend.QueryCache
open Document Cursors

inductive FeedType
  | notFeed
  | stream
  | point
  | orderbyLimit
  | unioned
  deriving DecidableEq

/-- What comes after the batches of a stream. A feed without new changes keeps
its reader waiting. -/
inductive Ending
  | exhausted
  | failure (message : String)
  | silence
  deriving DecidableEq

/-- The batches a `datum_stream_t` gives in the course of a run, and what comes
after them. A stream that is not a feed gives an empty batch only at its end. -/
structure Stream where
  feedType : FeedType
  includesStates : Bool
  batches : List (List Json)
  ending : Ending
  regular : feedType = .notFeed → ending ≠ .silence ∧
    ∀ earlier later, batches = earlier ++ [] :: later → later = [] ∧ ending = .exhausted

inductive Plan
  | compileError (message : String)
  | runtimeError (message : String)
  | value (datum : Json)
  | stream (stream : Stream)

/-- An entry is deleted in the step that finishes it, so that only two of its
states are seen from outside. -/
inductive EntryState
  | start
  | stream (stream : Stream)

structure Entry where
  state : EntryState
  noreply : Bool
  /-- The persistent interruptor. -/
  pulsed : Bool
  /-- Whether the reason of the interruption is a `STOP`. -/
  stopped : Bool

namespace Stream

def isExhausted (s : Stream) : Bool := s.batches.isEmpty && decide (s.ending = .exhausted)

def tail (s : Stream) : Stream where
  feedType := s.feedType
  includesStates := s.includesStates
  batches := s.batches.tail
  ending := s.ending
  regular := by
    intro hfeed
    obtain ⟨hs, h⟩ := s.regular hfeed
    refine ⟨hs, fun earlier later hl => ?_⟩
    cases hb : s.batches with
    | nil => simp [hb] at hl
    | cons head rest =>
      rw [hb, List.tail_cons] at hl
      exact h (head :: earlier) later (by rw [hb, hl, List.cons_append])

/-- The replies a client sees that reads as much of the stream as there is. -/
def replies (s : Stream) : List Reply :=
  s.batches.flatten.map .row ++
    match s.ending with
    | .failure m => [.serverError .runtimeError [.str m]]
    | _ => []

def notes (s : Stream) : List ResponseNote :=
  (match s.feedType with
    | .notFeed => []
    | .stream => [.sequenceFeed]
    | .point => [.atomFeed]
    | .orderbyLimit => [.orderByLimitFeed]
    | .unioned => [.unionedFeed]) ++
  if s.includesStates then [.includesStates] else []

end Stream

def errorResponse (t : ResponseType) (message : String) : Response := ⟨t, [.str message], []⟩

def duplicateToken (token : ℕ) : Response :=
  errorResponse .clientError ("ERROR: duplicate token " ++ toString token)

def notInCache (token : ℕ) : Response :=
  errorResponse .clientError ("Token " ++ toString token ++ " not in stream cache.")

/-- The response to a `STOP`, and to what a `STOP` has interrupted. -/
def stopResponse : Response := ⟨.successSequence, [], []⟩

/-- The method `serve`: the response and the stream, unless that is done with.
There is no result while `next_batch` waits for a feed. -/
def serve (noreply : Bool) (s : Stream) : Option (Response × Option Stream) :=
  match s.batches, s.ending with
  | [], .failure message => some (errorResponse .runtimeError message, none)
  | [], .silence => none
  | _, _ =>
    let ds := s.batches.headD []
    if s.tail.isExhausted || noreply then some (⟨.successSequence, ds, s.notes⟩, none)
    -- a batch of size 0 means the end, unless the stream is a feed
    else if s.feedType = .notFeed ∧ ds = [] then some (⟨.successSequence, ds, s.notes⟩, some s.tail)
    else some (⟨.successPartial, ds, s.notes⟩, some s.tail)

/-- The method `run`, followed by `serve` if the value is a stream. -/
def run (noreply : Bool) : Plan → Option (Response × Option Stream)
  | .compileError message => some (errorResponse .compileError message, none)
  | .runtimeError message => some (errorResponse .runtimeError message, none)
  | .value datum => some (⟨.successAtom, [datum], []⟩, none)
  | .stream s => serve noreply s

/-- The method `fill_response` on an entry nobody has interrupted. -/
def fill (plan : Plan) (entry : Entry) : Option (Response × Option Stream) :=
  match entry.state with
  | .start => run entry.noreply plan
  | .stream s => serve entry.noreply s

/-- What the first part of `run_query` does, up to the point where it waits for
the entry: the entry afterwards, and the response if the query ends there. -/
def arrival (plan : Plan) (token : ℕ) (entry : Option Entry) :
    Query → Option Entry × Option Response
  | .start noreply =>
    match entry, plan with
    | some e, _ => (some e, some (duplicateToken token))
    | none, .compileError message => (none, some (errorResponse .compileError message))
    | none, _ => (some ⟨.start, noreply, false, false⟩, none)
  | .continue =>
    match entry with
    | none => (none, some (notInCache token))
    | some e => (some e, none)
  | .stop =>
    match entry with
    | none => (none, some (notInCache token))
    | some e => (some { e with pulsed := true, stopped := true }, none)
  | .noreplyWait =>
    match entry with
    | none => (none, none)
    | some e => (some e, some (duplicateToken token))

/-- An entry is deleted when it is done with or its interruptor has been pulsed. -/
def release (entry : Entry) (s : Option Stream) : Option Entry :=
  match s with
  | none => none
  | some s => if entry.pulsed then none else some { entry with state := .stream s }

/-- What an interrupted query answers. -/
def interruption (entry : Entry) : Response :=
  if entry.stopped then stopResponse
  else errorResponse .runtimeError "Query terminated by an unknown cause."

/-- What the rest of `run_query` does once it holds the entry, unless it waits for
a feed. Whether a pulsed interruptor is noticed is up to the evaluation. -/
def completion (plan : Plan) (token : ℕ) (interrupted : Bool) (entry : Option Entry) :
    Query → Option (Option Entry × Response)
  | .stop => some (entry.filter fun e => !e.pulsed, stopResponse)
  | .noreplyWait => some (entry, ⟨.waitComplete, [], []⟩)
  | _ =>
    match entry with
    | none => some (none, duplicateToken token)
    | some e =>
      if interrupted && e.pulsed then some (none, interruption e)
      else (fill plan e).map fun (response, s) => (release e s, response)

end PersonnelBackend.QueryCache
