import PersonnelBackend.DriverWire
import PersonnelBackend.SessionRuns

/-! A connection with bytes on its two wires refines the connection with messages
on them: whatever pieces the bytes arrive in, what the two ends do is what they do
in some run of `System`, so that everything shown of those runs holds here. -/
namespace PersonnelBackend.Wire
open Document Cursors QueryCache Connections Framing

/-- Both ends of a connection, the bytes on the way to the server, those on the
way to the driver, and the driver's `buffer`. -/
structure ByteSystem where
  system : System
  up : List UInt8
  down : List UInt8
  buffer : List UInt8

/-- What can happen next: something at one of the ends, the server reads a query,
or the socket hands the driver some bytes. -/
inductive Move
  | act (a : Action)
  | arrive
  | receive (n : ℕ)

namespace Codec

variable (codec : Codec)

/-- Whether `_writeQuery` gets a query onto the socket. -/
def writable (m : ℕ × Query) : Bool :=
  decide (m.1 < 2 ^ 53) && !(writeQuery m.1 (codec.queryText m.1 m.2)).thrown

/-- Whether a response is sent and not an error in its place. -/
def sendable (m : ℕ × Response) : Bool :=
  decide (m.1 < 2 ^ 64) && decide ((codec.sendResponse m.1 m.2).map Sent.response = some m.2)

def responseFrame (m : ℕ × Response) : Frame UInt8 :=
  match codec.sendResponse m.1 m.2 with
  | none => ⟨[], []⟩
  | some sent => sent.frame

def responseBytes (m : ℕ × Response) : List UInt8 := (codec.responseFrame m).symbols

end Codec

/-- The call of `_processResponse` in `_data`, which may throw. -/
def process (s : System) (token : ℕ) (response : Response) : Option System :=
  if (s.client token).accepts response then
    some (s.onClient token fun q => q.processResponse s.isOpen s.opened response)
  else none

namespace ByteSystem

def initial : ByteSystem := ⟨.initial, [], [], []⟩

variable (codec : Codec) (plan : ℕ → Plan)

/-- The messages of a step go out as bytes. A run is not followed further when a
message cannot be written. -/
def flush (b : ByteSystem) : Option ByteSystem :=
  if b.system.toServer.all codec.writable && b.system.toClient.all codec.sendable then
    some
      { b with
        system := { b.system with toServer := [], toClient := [] }
        up := b.up ++ (b.system.toServer.map codec.queryBytes).flatten
        down := b.down ++ (b.system.toClient.map codec.responseBytes).flatten }
  else none

/-- One move. A run is not followed further when the server refuses a query. -/
def step (b : ByteSystem) : Move → Option ByteSystem
  | .act a => flush codec { b with system := b.system.step plan a }
  | .arrive =>
    match queries.next? b.up with
    | none => some b
    | some (frame, rest) =>
      match codec.parseMessage ⟨[], false⟩ frame with
      | some ⟨[.query token query], _⟩ =>
        flush codec
          { b with
            system := { b.system with toServer := [(token, query)] }.arrive plan
            up := rest }
      | _ => none
  | .receive n =>
    if b.system.opened then
      let r := codec.data process ⟨b.system, b.buffer⟩ (b.down.take n)
      flush codec { b with system := r.state, buffer := r.buffer, down := b.down.drop n }
    else some b

def exec (b : ByteSystem) (moves : List Move) : Option ByteSystem :=
  moves.foldlM (step codec plan) b

end ByteSystem

/-! ### Messages in front of the wires -/

/-- The system with messages on its wires that were there before. -/
def load (u : List (ℕ × Query)) (d : List (ℕ × Response)) (s : System) : System :=
  { s with toServer := u ++ s.toServer, toClient := d ++ s.toClient }

section load

variable (plan : ℕ → Plan) (u : List (ℕ × Query)) (d : List (ℕ × Response)) (s : System)

@[simp] lemma load_canSend : (load u d s).canSend = s.canSend := rfl

@[simp] lemma load_jobs : (load u d s).jobs = s.jobs := rfl

lemma load_onClient (token : ℕ) (f : Client → Client) :
    (load u d s).onClient token f = load u d (s.onClient token f) := by
  simp [load, System.onClient]

lemma load_send (q : Client) (query : Query) :
    (load u d s).send q query = load u d (s.send q query) := by
  simp [load, System.send]

lemma load_close (wait : Bool) : (load u d s).close wait = load u d (s.close wait) := by
  have hcall : (load u d s).closeCall = s.closeCall := rfl
  by_cases h1 : s.closeCall.isSome = true
  · rw [System.close, System.close, hcall, if_pos h1, if_pos h1]
  · by_cases h2 : (wait && s.canSend) = true
    · rw [System.close, System.close, hcall, if_neg h1, if_neg h1, load_canSend, if_pos h2,
        if_pos h2]
      exact load_send u d { s with closing := true, closeCall := some (some s.nextToken) } _ _
    · rw [System.close, System.close, hcall, if_neg h1, if_neg h1, load_canSend, if_neg h2,
        if_neg h2]
      rfl

lemma load_finish (token : ℕ) (interrupted : Bool) :
    (load u d s).finish plan token interrupted = load u d (s.finish plan token interrupted) := by
  cases hjob : s.jobs.find? fun job => job.1 = token with
  | none => simp only [System.finish, load_jobs, hjob]
  | some job =>
    have hjob' : (load u d s).jobs.find? (fun job => job.1 = token) = some job := hjob
    rw [System.finish, System.finish, hjob, hjob']
    by_cases h : job.2 = .noreplyWait ∧ System.heldBefore s.jobs token = true
    · exact (if_pos h).trans (congrArg (load u d) (if_pos h).symm)
    · refine (if_neg h).trans ((congrArg (load u d) (if_neg h)).trans ?_).symm
      have hq : (load u d s).queries = s.queries := rfl
      rw [hq]
      cases completion (plan token) token interrupted (s.queries token) job.2 with
      | none => rfl
      | some a => simp [load]

lemma load_step {a : Action} (h1 : a ≠ .arrive) (h2 : a ≠ .deliver) :
    (load u d s).step plan a = load u d (s.step plan a) := by
  -- what is on the wires makes no difference to the other actions
  cases a with
  | run noreply =>
    simp only [System.step, load_canSend, load_send]
    split_ifs <;> rfl
  | noreplyWait =>
    simp only [System.step, load_canSend, load_send]
    split_ifs <;> rfl
  | next token cb => exact load_onClient u d s token _
  | closeCursor token => exact load_onClient u d s token _
  | chained token => exact load_onClient u d s token _
  | immediate token => exact load_onClient u d s token _
  | closeConnection wait => exact load_close u d s wait
  | shut =>
    have hcall : (load u d s).closeCall = s.closeCall := rfl
    rw [System.step, System.step, hcall]
    split
    · next token hc =>
      by_cases h : (s.opened && !(s.client token).results.isEmpty) = true
      · exact (if_pos h).trans (show load u d s.cancel = _ from congrArg (load u d) (if_pos h).symm)
      · exact (if_neg h).trans (congrArg (load u d) (if_neg h).symm)
    · rfl
  | arrive => exact absurd rfl h1
  | finish token interrupted => exact load_finish plan u d s token interrupted
  | deliver => exact absurd rfl h2

lemma load_arrive (m : ℕ × Query) (hs : s.toServer = []) :
    (load (m :: u) d s).step plan .arrive = load u d ({ s with toServer := [m] }.arrive plan) := by
  simp [System.step, System.arrive, load, hs]

lemma process_opened {s s' : System} {token : ℕ} {response : Response}
    (h : process s token response = some s') : s'.opened = s.opened := by
  rw [process] at h
  split_ifs at h
  rw [← Option.some.inj h]
  rfl

lemma load_deliver {s' : System} (m : ℕ × Response) (ho : s.opened = true)
    (h : process s m.1 m.2 = some s') :
    (load u (m :: d) s).step plan .deliver = load u d s' := by
  rw [process] at h
  split_ifs at h with hok
  rw [← Option.some.inj h]
  simp [System.step, System.deliver, load, ho, hok, System.onClient, System.isOpen]

lemma load_deliveries {done : List (ℕ × Response)} {s' : System} (ho : s.opened = true)
    (h : done.foldlM (fun s m => process s m.1 m.2) s = some s') :
    (load u (done ++ d) s).exec plan (List.replicate done.length .deliver) = load u d s' := by
  -- the loop of `_data` is a number of deliveries
  induction done generalizing s with
  | nil =>
    obtain rfl := Option.some.inj h
    rfl
  | cons m done ih =>
    rw [List.foldlM_cons] at h
    obtain ⟨s₁, h₁, h₂⟩ := Option.bind_eq_some_iff.mp h
    have hstep := load_deliver plan u (done ++ d) s m ho h₁
    rw [List.length_cons, List.replicate_succ, System.exec, List.foldl_cons,
      List.cons_append, hstep]
    exact ih s₁ ((process_opened h₁).trans ho) h₂

end load

/-! ### Bytes and messages -/

section carries

variable {codec : Codec} {plan : ℕ → Plan} {u : List (ℕ × Query)} {d : List (ℕ × Response)}
  {b b' : ByteSystem}

/-- The bytes on the wires are those of the given messages. -/
structure Carries (codec : Codec) (b : ByteSystem) (u : List (ℕ × Query))
    (d : List (ℕ × Response)) : Prop where
  up : b.up = (u.map codec.queryBytes).flatten
  down : b.buffer ++ b.down = (d.map codec.responseBytes).flatten
  writable : ∀ m ∈ u, codec.writable m = true
  sendable : ∀ m ∈ d, codec.sendable m = true

structure Flushed (b : ByteSystem) : Prop where
  toServer : b.system.toServer = []
  toClient : b.system.toClient = []

lemma writable_bytes {m : ℕ × Query} (h : codec.writable m = true) :
    m.1 < 2 ^ 53 ∧ (codec.queryText m.1 m.2).length < 2 ^ 32 ∧
      codec.queryBytes m = (message m.1 (codec.queryText m.1 m.2)).symbols := by
  obtain ⟨htoken, hthrown⟩ : m.1 < 2 ^ 53 ∧
    (writeQuery m.1 (codec.queryText m.1 m.2)).thrown = false := by
    simpa [Codec.writable] using h
  have hlow : m.1 % 2 ^ 32 < 2 ^ 31 := by
    by_contra hge
    rw [writeQuery_of_ge _ (not_lt.mp hge)] at hthrown
    cases hthrown
  have hlen : (codec.queryText m.1 m.2).length < 2 ^ 32 := by
    by_contra hge
    rw [writeQuery_thrown_of_large (not_lt.mp hge)] at hthrown
    cases hthrown
  exact ⟨htoken, hlen, congrArg Written.bytes (writeQuery_of_lt htoken hlow hlen)⟩

lemma sendable_sent {m : ℕ × Response} (h : codec.sendable m = true) :
    m.1 < 2 ^ 64 ∧ ∃ sent, codec.sendResponse m.1 m.2 = some sent ∧ sent.response = m.2 := by
  rw [Codec.sendable, Bool.and_eq_true, decide_eq_true_eq, decide_eq_true_eq,
    Option.map_eq_some_iff] at h
  exact h

lemma sendable_fits {m : ℕ × Response} (h : codec.sendable m = true) :
    (codec.responseFrame m).Fits messages := by
  obtain ⟨-, sent, hsent, -⟩ := sendable_sent h
  rw [Codec.responseFrame, hsent]
  exact message_fits (sendResponse_spec hsent).2.1

lemma sendable_handled {m : ℕ × Response} (h : codec.sendable m = true) (s : System) :
    codec.handleResponse process s (codec.responseFrame m) = process s m.1 m.2 := by
  obtain ⟨htoken, sent, hsent, hresponse⟩ := sendable_sent h
  have hhandled : codec.handleResponse process s sent.frame = _ :=
    handleResponse_sent htoken hsent s
  rw [(sendResponse_spec hsent).1, hresponse] at hhandled
  rwa [Codec.responseFrame, hsent]

lemma flush_carries (h : Carries codec b u d) (hb : b.flush codec = some b') :
    Carries codec b' (u ++ b.system.toServer) (d ++ b.system.toClient) ∧ Flushed b' ∧
      load (u ++ b.system.toServer) (d ++ b.system.toClient) b'.system = load u d b.system := by
  rw [ByteSystem.flush] at hb
  split_ifs at hb with hok
  obtain ⟨hw, hs⟩ : (∀ m ∈ b.system.toServer, codec.writable m = true) ∧
      ∀ m ∈ b.system.toClient, codec.sendable m = true := by
    rwa [Bool.and_eq_true, List.all_eq_true, List.all_eq_true] at hok
  obtain rfl := (Option.some.inj hb).symm
  refine ⟨⟨?_, ?_, ?_, ?_⟩, ⟨rfl, rfl⟩, ?_⟩
  · simp [h.up]
  · rw [← List.append_assoc, h.down, List.map_append, List.flatten_append]
  · intro m hm
    exact (List.mem_append.mp hm).elim (h.writable m) (hw m)
  · intro m hm
    exact (List.mem_append.mp hm).elim (h.sendable m) (hs m)
  · simp [load]

lemma parse_first {m : ℕ × Query} {u : List (ℕ × Query)} {frame : Frame UInt8} {rest : List UInt8}
    {closed : Bool} {token : ℕ} {query : Query}
    (hm : codec.writable m = true)
    (hnext : queries.next? ((m :: u).map codec.queryBytes).flatten = some (frame, rest))
    (hparse : codec.parseMessage ⟨[], false⟩ frame = some ⟨[.query token query], closed⟩) :
    m = (token, query) ∧ rest = (u.map codec.queryBytes).flatten := by
  -- the server reads the first of the queries on the wire, unless it is too large
  obtain ⟨htoken, hlen, hbytes⟩ := writable_bytes hm
  rw [List.map_cons, List.flatten_cons, hbytes] at hnext
  by_cases hsize : (codec.queryText m.1 m.2).length < tooLargeQuerySize
  · rw [queries_cut_small hsize] at hnext
    obtain ⟨rfl, rfl⟩ : message m.1 _ = frame ∧ _ = rest := by simpa using hnext
    rw [parseMessage_small [] (by omega) hsize, parseText_queryText] at hparse
    obtain ⟨⟨h1, h2⟩, -⟩ : (m.1 = token ∧ m.2 = query) ∧ false = closed := by simpa using hparse
    exact ⟨Prod.ext h1 h2, rfl⟩
  · rw [queries_cut_large (not_lt.mp hsize) hlen] at hnext
    obtain ⟨rfl, rfl⟩ : (⟨(message m.1 _).header, []⟩ : Frame UInt8) = frame ∧ _ = rest := by
      simpa using hnext
    rw [parseMessage_large [] (by omega) (not_lt.mp hsize) hlen] at hparse
    simp [tooLarge] at hparse

lemma act_refines {a : Action} (h : Carries codec b u d) (hf : Flushed b)
    (hb : b.step codec plan (.act a) = some b') :
    ∃ more u' d', Carries codec b' u' d' ∧ Flushed b' ∧
    (load u d b.system).exec plan more = load u' d' b'.system := by
  have hcarries : Carries codec { b with system := b.system.step plan a } u d :=
    ⟨h.up, h.down, h.writable, h.sendable⟩
  obtain ⟨h1, h2, h3⟩ := flush_carries hcarries hb
  by_cases ha : a = .arrive ∨ a = .deliver
  · have hidle : b.system.step plan a = b.system := by
      rcases ha with rfl | rfl
      · simp [System.step, System.arrive, hf.toServer]
      · simp [System.step, System.deliver, hf.toClient]
    refine ⟨[], _, _, h1, h2, h3.symm ▸ ?_⟩
    rw [hidle]
    rfl
  · rw [not_or] at ha
    exact ⟨[a], _, _, h1, h2, (load_step plan u d b.system ha.1 ha.2).trans h3.symm⟩

lemma arrive_refines (h : Carries codec b u d) (hf : Flushed b)
    (hb : b.step codec plan .arrive = some b') :
    ∃ more u' d', Carries codec b' u' d' ∧ Flushed b' ∧
    (load u d b.system).exec plan more = load u' d' b'.system := by
  rw [ByteSystem.step] at hb
  split at hb
  · obtain rfl := Option.some.inj hb
    exact ⟨[], u, d, h, hf, rfl⟩
  · next frame rest hnext =>
    split at hb
    · next token query closed hparse =>
      rw [h.up] at hnext
      cases u with
      | nil =>
        rw [List.map_nil, List.flatten_nil, Format.next?_empty List.length_nil] at hnext
        cases hnext
      | cons m u =>
        obtain ⟨rfl, rfl⟩ := parse_first (h.writable m List.mem_cons_self) hnext hparse
        have hcarries : Carries codec
            { b with
              system := { b.system with toServer := [(token, query)] }.arrive plan
              up := (u.map codec.queryBytes).flatten } u d :=
          ⟨rfl, h.down, fun m hm => h.writable m (List.mem_cons_of_mem _ hm), h.sendable⟩
        obtain ⟨h1, h2, h3⟩ := flush_carries hcarries hb
        exact ⟨[.arrive], _, _, h1, h2, (load_arrive plan u d b.system (token,
          query) hf.toServer).trans h3.symm⟩
    · cases hb

lemma receive_refines {n : ℕ} (h : Carries codec b u d) (hf : Flushed b)
    (hb : b.step codec plan (.receive n) = some b') :
    ∃ more u' d', Carries codec b' u' d' ∧ Flushed b' ∧
    (load u d b.system).exec plan more = load u' d' b'.system := by
  rw [ByteSystem.step] at hb
  split_ifs at hb with ho
  · have hwhole : (b.buffer ++ b.down.take n) ++ b.down.drop n =
      (d.map codec.responseBytes).flatten := by
      rw [List.append_assoc, List.take_append_drop, h.down]
    obtain ⟨done, rest, rfl, hstate, hbuffer, -⟩ := Format.drain_frames
      (fun m hm => sendable_fits (h.sendable m hm))
        (fun m hm s => sendable_handled (h.sendable m hm) s) b.system hwhole
    have hcarries : Carries codec
        { b with
          system := (codec.data process ⟨b.system, b.buffer⟩ (b.down.take n)).state
          buffer := (codec.data process ⟨b.system, b.buffer⟩ (b.down.take n)).buffer
          down := b.down.drop n } u rest :=
      ⟨h.up, hbuffer, h.writable, fun m hm => h.sendable m (List.mem_append_right _ hm)⟩
    obtain ⟨h1, h2, h3⟩ := flush_carries hcarries hb
    refine ⟨List.replicate done.length .deliver, _, _, h1, h2, ?_⟩
    rw [load_deliveries plan u rest b.system ho hstate]
    exact h3.symm
  · obtain rfl := Option.some.inj hb
    exact ⟨[], u, d, h, hf, rfl⟩

lemma step_refines {move : Move} (h : Carries codec b u d) (hf : Flushed b)
    (hb : b.step codec plan move = some b') :
    ∃ more u' d', Carries codec b' u' d' ∧ Flushed b' ∧
      (load u d b.system).exec plan more = load u' d' b'.system := by
  cases move with
  | act a => exact act_refines h hf hb
  | arrive => exact arrive_refines h hf hb
  | receive n => exact receive_refines h hf hb

lemma exec_refines {moves : List Move} (h : Carries codec b u d) (hf : Flushed b)
    (hb : b.exec codec plan moves = some b') :
    ∃ more u' d', Carries codec b' u' d' ∧ Flushed b' ∧
      (load u d b.system).exec plan more = load u' d' b'.system := by
  induction moves generalizing b u d with
  | nil =>
    obtain rfl : b = b' := by simpa [ByteSystem.exec] using hb
    exact ⟨[], u, d, h, hf, rfl⟩
  | cons move moves ih =>
    obtain ⟨b1, hstep, hrest⟩ : ∃ b1, b.step codec plan move = some b1 ∧
      b1.exec codec plan moves = some b' := by
      simpa [ByteSystem.exec, Option.bind_eq_some_iff] using hb
    obtain ⟨more1, u1, d1, h1, hf1, he1⟩ := step_refines h hf hstep
    obtain ⟨more2, u2, d2, h2, hf2, he2⟩ := ih h1 hf1 hrest
    refine ⟨more1 ++ more2, u2, d2, h2, hf2, ?_⟩
    rw [← he2, ← he1]
    exact List.foldl_append

end carries

section runs

variable (codec : Codec) (plan : ℕ → Plan) (moves : List Move) {b : ByteSystem}

/-- The first batch comes in two pieces, and the first bytes of the second one
after a row has been asked for. -/
def cutMoves : List Move :=
  [.act (.run false), .arrive, .act (.finish 1 false), .receive 5, .receive 50,
    .act (.next 1 7), .arrive, .act (.finish 1 false), .receive 3]

/-- Whatever pieces the bytes of a connection come in, the callbacks get the first
rows of the result, in their order, each once, and each is called once. -/
theorem bytes_rows_in_order (h : ByteSystem.initial.exec codec plan moves = some b) (token : ℕ)
    {c : Cursor} (hc : (b.system.client token).cursor = some c) :
    rowsGiven c <+: planRows (plan token) ∧ c.Accounted := by
  obtain ⟨actions, u, d, -, -, he⟩ := exec_refines (b := ByteSystem.initial) (u := []) (d := [])
    ⟨rfl, rfl, by simp, by simp⟩ ⟨rfl, rfl⟩ h
  have hc' : ((System.initial.exec plan actions).client token).cursor = some c := by
    rw [show System.initial.exec plan actions = load u d b.system from he]
    exact hc
  exact ⟨(view_inv plan actions token hc').rows hc', tallied plan actions token hc'⟩

theorem bytes_rows_in_order_cut : ∃ b c,
    ByteSystem.initial.exec Codec.sample (fun _ => twoBatches) cutMoves = some b ∧
    (b.system.client 1).cursor = some c ∧ rowsGiven c = [.str "ann"] ∧
    rowsGiven c <+: [.str "ann", .str "bob"] ∧ c.Accounted :=
  ⟨_, _, rfl, rfl, rfl, bytes_rows_in_order Codec.sample (fun _ => twoBatches) cutMoves rfl 1 rfl⟩

end runs

end PersonnelBackend.Wire
