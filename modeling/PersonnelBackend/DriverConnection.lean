import Mathlib.Logic.Function.Basic
import PersonnelBackend.QueryCache

/-! A connection of the JavaScript driver (`net.coffee`) and the server it talks
to. The two ends exchange queries and responses over two first-in first-out
wires; a run is any interleaving of the application's calls, the arrivals at
either end and the coroutines of the server. -/
namespace PersonnelBackend.Connections
open Document Cursors QueryCache

/-- What an entry of `outstandingCallbacks` holds besides its callback. -/
inductive Outstanding
  | callback
  | cursor
  deriving DecidableEq

inductive RunResult
  | error (t : ResponseType) (r : List Json)
  | value (r : List Json)
  | cursor
  | null
  deriving DecidableEq

/-- What the driver knows of one token. -/
structure Client where
  outstanding : Option Outstanding
  cursor : Option Cursor
  results : List RunResult

def runResult (response : Response) : RunResult :=
  match response.t with
  | .successAtom => .value response.r
  | .serverInfo => .value response.r
  | .successPartial => .cursor
  | .successSequence => .cursor
  | .waitComplete => .null
  | _ => .error response.t response.r

/-- The response `cancel` makes up. -/
def connectionClosed : Response := errorResponse .runtimeError "Connection is closed."

/-- The note that picks the class of a new cursor: the first that names a feed. -/
def feedNote (response : Response) : Option ResponseNote :=
  response.n.find? fun note => note ≠ .includesStates

namespace Client

def unborn : Client := ⟨none, none, []⟩

/-- Whether `_processResponse` gets through a response. There is no class
`UnionedFeed` in `cursors`, so that the cursor of such a feed cannot be made. -/
def accepts (q : Client) (response : Response) : Bool :=
  !(q.outstanding = some .callback && response.t = .successPartial &&
    feedNote response = some .unionedFeed)

/-- The method `_processResponse`, on a response it gets through. Responses to
unknown tokens are ignored. -/
def processResponse (q : Client) (isOpen connOpen : Bool) (response : Response) : Client :=
  match q.outstanding with
  | none => q
  | some .cursor =>
    match q.cursor with
    | none => q
    | some c =>
      let c := c.addResponse isOpen connOpen response
      { q with
        cursor := some c
        outstanding := if c.endFlag && c.outstandingRequests = 0 then none else some .cursor }
  | some .callback =>
    { outstanding := if response.t = .successPartial then some .cursor else none
      cursor :=
        if response.t.isRows then some (Cursor.new.addResponse isOpen connOpen response)
        else q.cursor
      results := q.results ++ [runResult response] }

/-- The body of the loop in `cancel`, after which the table is emptied. -/
def cancel (q : Client) : Client :=
  match q.outstanding with
  | none => q
  | some .cursor =>
    { q with
      outstanding := none
      cursor := q.cursor.map (·.addResponse false false connectionClosed) }
  | some .callback =>
    { q with outstanding := none, results := q.results ++ [runResult connectionClosed] }

def onCursor (f : Cursor → Cursor) (q : Client) : Client := { q with cursor := q.cursor.map f }

def sent (q : Client) : List Query := (q.cursor.map Cursor.sent).getD []

def written (q : Client) : Client := q.onCursor fun c => { c with sent := [] }

end Client

/-- Both ends of a connection and the wires between them. -/
structure System where
  nextToken : ℕ
  /-- The flag `open`. -/
  opened : Bool
  closing : Bool
  /-- Whether `close` has been called, and the `noreplyWait` it waits for. -/
  closeCall : Option (Option ℕ)
  client : ℕ → Client
  toServer : List (ℕ × Query)
  queries : ℕ → Option Entry
  /-- The coroutines that wait for their entry, in the order they came. -/
  jobs : List (ℕ × Query)
  toClient : List (ℕ × Response)

inductive Action
  | run (noreply : Bool)
  | noreplyWait
  | next (token cb : ℕ)
  | closeCursor (token : ℕ)
  /-- A settled promise of `close` calls the `_closeCb` chained to it. -/
  | chained (token : ℕ)
  /-- The event loop comes to a call left to `setImmediate`. -/
  | immediate (token : ℕ)
  | closeConnection (wait : Bool)
  /-- The `noreplyWait` of `close` is over. -/
  | shut
  | arrive
  | finish (token : ℕ) (interrupted : Bool)
  | deliver

namespace System

def initial : System where
  nextToken := 1
  opened := true
  closing := false
  closeCall := none
  client := fun _ => .unborn
  toServer := []
  queries := fun _ => none
  jobs := []
  toClient := []

def isOpen (s : System) : Bool := s.opened && !s.closing

/-- Whether a first query can be sent. The tokens from 2³¹ on, which `_writeQuery`
throws on, are left out: no query is sent under them. -/
def canSend (s : System) : Bool := s.opened && decide (s.nextToken < 2 ^ 31)

def send (s : System) (q : Client) (query : Query) : System :=
  { s with
    nextToken := s.nextToken + 1
    client := Function.update s.client s.nextToken q
    toServer := s.toServer ++ [(s.nextToken, query)] }

/-- The driver works on one token, and what its cursor sends is written out. -/
def onClient (s : System) (token : ℕ) (f : Client → Client) : System :=
  { s with
    client := Function.update s.client token (f (s.client token)).written
    toServer := s.toServer ++ (f (s.client token)).sent.map (token, ·) }

/-- The method `cancel`, with the flags as `close` leaves them. -/
def cancel (s : System) : System :=
  { s with opened := false, closing := false, client := fun token => (s.client token).cancel }

def close (s : System) (wait : Bool) : System :=
  if s.closeCall.isSome then s
  else if wait && s.canSend then
    { s with closing := true, closeCall := some (some s.nextToken) }.send ⟨some .callback, none, []⟩
      .noreplyWait
  else { s with closeCall := some none }.cancel

/-- A `noreplyWait` ends when it is the oldest of the queries whose number is
still held: those that want no reply and other waits. -/
def heldBefore (jobs : List (ℕ × Query)) (token : ℕ) : Bool :=
  (jobs.takeWhile fun job => job.1 ≠ token).any fun job =>
    job.2 = .start true || job.2 = .noreplyWait

def reply (token : ℕ) (query : Query) (response : Option Response) : List (ℕ × Response) :=
  if query = .start true then [] else (response.map (token, ·)).toList

def dropJob (token : ℕ) (jobs : List (ℕ × Query)) : List (ℕ × Query) :=
  jobs.eraseP fun job => job.1 = token

variable (plan : ℕ → Plan)

def arrive (s : System) : System :=
  match s.toServer with
  | [] => s
  | (token, query) :: rest =>
    let a := arrival (plan token) token (s.queries token) query
    { s with
      toServer := rest
      queries := Function.update s.queries token a.1
      jobs := s.jobs ++ if a.2.isSome then [] else [(token, query)]
      toClient := s.toClient ++ reply token query a.2 }

/-- The first coroutine of a token gets the entry. -/
def finish (s : System) (token : ℕ) (interrupted : Bool) : System :=
  match s.jobs.find? fun job => job.1 = token with
  | none => s
  | some (_, query) =>
    if query = .noreplyWait ∧ heldBefore s.jobs token then s
    else
      match completion (plan token) token interrupted (s.queries token) query with
      | none => s
      | some (entry, response) =>
        { s with
          queries := Function.update s.queries token entry
          jobs := dropJob token s.jobs
          toClient := s.toClient ++ reply token query (some response) }

/-- The driver takes the next response. One that it throws on stays where it is. -/
def deliver (s : System) : System :=
  match s.toClient with
  | [] => s
  | (token, response) :: rest =>
    if s.opened && (s.client token).accepts response then
      { s with toClient := rest }.onClient token fun q =>
        q.processResponse s.isOpen s.opened response
    else s

/-- One action; one that is not possible leaves the state as it is. -/
def step (s : System) : Action → System
  | .run noreply =>
    if s.canSend then
      s.send (if noreply then ⟨none, none, [.null]⟩ else ⟨some .callback, none, []⟩)
        (.start noreply)
    else s
  | .noreplyWait => if s.canSend then s.send ⟨some .callback, none, []⟩ .noreplyWait else s
  | .next token cb => s.onClient token (Client.onCursor fun c => c.next s.isOpen cb)
  | .closeCursor token => s.onClient token (Client.onCursor fun c => c.close s.opened)
  | .chained token =>
    s.onClient token (Client.onCursor fun c =>
      if c.closeCb && c.closePromise ≠ some .pending then c.runCloseCb .fulfilled else c)
  | .immediate token => s.onClient token (Client.onCursor Cursor.immediate)
  | .closeConnection wait => s.close wait
  | .shut =>
    match s.closeCall with
    | some (some token) =>
      if s.opened && !(s.client token).results.isEmpty then s.cancel else s
    | _ => s
  | .arrive => s.arrive plan
  | .finish token interrupted => s.finish plan token interrupted
  | .deliver => s.deliver

def exec (s : System) (actions : List Action) : System := actions.foldl (step plan) s

lemma exec_append (s : System) (actions more : List Action) :
    s.exec plan (actions ++ more) = (s.exec plan actions).exec plan more :=
  List.foldl_append

lemma exec_concat (s : System) (actions : List Action) (a : Action) :
    s.exec plan (actions ++ [a]) = (s.exec plan actions).step plan a :=
  exec_append plan s actions [a]

end System

end PersonnelBackend.Connections
