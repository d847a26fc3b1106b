import Mathlib.Data.Int.Basic
import Mathlib.Data.List.Induction
import PersonnelBackend.FrameStream
import PersonnelBackend.DriverConnection

/-! The bytes of a connection: how the driver writes queries and cuts responses
out of what the socket hands it (`net.coffee`), and how the server reads queries
and writes responses (`json.cc`). In both directions a message is a token of
eight bytes, a length of four bytes and a text. -/
namespace PersonnelBackend.Wire
open Document Cursors QueryCache Connections Framing

/-! ### Headers -/

def readUInt32LE (buf : List UInt8) (offset : ℕ) : ℕ := leNat ((buf.drop offset).take 4)

/-- The method `writeUInt32LE`, which throws if the number is out of range. -/
def writeUInt32LE (value : ℤ) : Option (List UInt8) :=
  if 0 ≤ value ∧ value ≤ 0xFFFFFFFF then some (leBytes 4 value.toNat) else none

def tokenOf (header : List UInt8) : ℕ := readUInt32LE header 0 + 0x100000000 * readUInt32LE header 4

def sizeOf (header : List UInt8) : ℕ := readUInt32LE header 8

/-- A message as `_data` cuts it out of its buffer. -/
def messages : Format UInt8 where
  headerSize := 12
  bodySize := sizeOf
  headerSize_pos := by decide

def message (token : ℕ) (text : List UInt8) : Frame UInt8 where
  header := leBytes 8 token ++ leBytes 4 text.length
  body := text

section header

variable (token : ℕ) (text : List UInt8)

lemma message_header_length : (message token text).header.length = 12 := by simp [message]

lemma message_header : (message token text).header =
    leBytes 4 token ++ (leBytes 4 (token / 2 ^ 32) ++ leBytes 4 text.length) := by
  rw [message, leBytes_add 4 4, List.append_assoc]
  rfl

variable {token text}

lemma tokenOf_message (h : token < 2 ^ 64) : tokenOf (message token text).header = token := by
  have hlow : readUInt32LE (message token text).header 0 = token % 2 ^ 32 := by
    rw [readUInt32LE, message_header, List.drop_zero, List.take_left' (leBytes_length _ _),
      leNat_leBytes]
    rfl
  have hhigh : readUInt32LE (message token text).header 4 = token / 2 ^ 32 := by
    rw [readUInt32LE, message_header, List.drop_left' (leBytes_length _ _),
      List.take_left' (leBytes_length _ _), leNat_leBytes]
    exact Nat.mod_eq_of_lt (by omega)
  rw [tokenOf, hlow, hhigh]
  omega

lemma sizeOf_message (token : ℕ) (h : text.length < 2 ^ 32) :
    sizeOf (message token text).header = text.length := by
  rw [sizeOf, readUInt32LE, message, List.drop_left' (leBytes_length _ _),
    List.take_of_length_le (leBytes_length _ _).le, leNat_leBytes]
  exact Nat.mod_eq_of_lt h

lemma message_fits (h : text.length < 2 ^ 32) : (message token text).Fits messages :=
  ⟨message_header_length token text, (sizeOf_message token h).symm⟩

lemma message_cut (h : text.length < 2 ^ 32) (rest : List UInt8) :
    messages.next? ((message token text).symbols ++ rest) = some (message token text, rest) :=
  Format.next?_eq_some.mpr ⟨message_fits h, rfl⟩

end header

/-! ### Queries, as the driver writes them -/

/-- What a method has put on the socket, and whether it has thrown after that. -/
structure Written where
  bytes : List UInt8
  thrown : Bool
  deriving DecidableEq

def write (chunk : List UInt8) : Written :=
  match writeUInt32LE chunk.length with
  | none => ⟨[], true⟩
  | some length => ⟨length ++ chunk, false⟩

/-- The number `token & 0xFFFFFFFF`: the operator works on signed numbers. -/
def lowHalf (token : ℕ) : ℤ :=
  if token % 2 ^ 32 < 2 ^ 31 then (token % 2 ^ 32 : ℕ) else (token % 2 ^ 32 : ℕ) - 0x100000000

/-- The method `_writeQuery`. Both halves of the token are made before the first
one is put on the socket. -/
def writeQuery (token : ℕ) (data : List UInt8) : Written :=
  match writeUInt32LE (lowHalf token), writeUInt32LE (token / 0xFFFFFFFF : ℕ) with
  | some low, some high => ⟨low ++ high ++ (write data).bytes, (write data).thrown⟩
  | _, _ => ⟨[], true⟩

lemma writeUInt32LE_of_lt {n : ℕ} (h : n < 2 ^ 32) : writeUInt32LE n = some (leBytes 4 n) := by
  have hrange : (0 : ℤ) ≤ n ∧ (n : ℤ) ≤ 0xFFFFFFFF := by omega
  rw [writeUInt32LE, if_pos hrange, Int.toNat_natCast]

lemma write_of_lt {chunk : List UInt8} (h : chunk.length < 2 ^ 32) :
    write chunk = ⟨leBytes 4 chunk.length ++ chunk, false⟩ := by
  rw [write, writeUInt32LE_of_lt h]

lemma lowHalf_of_lt {token : ℕ} (h : token % 2 ^ 32 < 2 ^ 31) :
    lowHalf token = (token % 2 ^ 32 : ℕ) :=
  if_pos h

lemma lowHalf_of_ge {token : ℕ} (h : 2 ^ 31 ≤ token % 2 ^ 32) : lowHalf token < 0 := by
  have hlt : token % 2 ^ 32 < 2 ^ 32 := Nat.mod_lt _ (by decide)
  rw [lowHalf, if_neg (not_lt.mpr h)]
  omega

lemma high_eq {token : ℕ} (h : token < 2 ^ 53) (hlow : token % 2 ^ 32 < 2 ^ 31) :
    token / 0xFFFFFFFF = token / 2 ^ 32 := by
  -- the division by `2 ^ 32 - 1` that gives the high half is harmless for tokens a JavaScript
  -- number can count to, if their low half is small
  omega

lemma writeQuery_of_lt {token : ℕ} {data : List UInt8} (h : token < 2 ^ 53)
    (hlow : token % 2 ^ 32 < 2 ^ 31) (hd : data.length < 2 ^ 32) :
    writeQuery token data = ⟨(message token data).symbols, false⟩ := by
  have hl : writeUInt32LE (lowHalf token) = some (leBytes 4 token) := by
    rw [lowHalf_of_lt hlow, writeUInt32LE_of_lt (Nat.mod_lt _ (by decide))]
    exact congrArg some (leBytes_mod 4 token)
  have hh : writeUInt32LE (token / 0xFFFFFFFF : ℕ) = some (leBytes 4 (token / 2 ^ 32)) := by
    rw [high_eq h hlow, writeUInt32LE_of_lt]
    omega
  rw [writeQuery, hl, hh, write_of_lt hd, Frame.symbols, message_header]
  simp only [message, List.append_assoc]

lemma writeQuery_of_ge {token : ℕ} (data : List UInt8) (hlow : 2 ^ 31 ≤ token % 2 ^ 32) :
    writeQuery token data = ⟨[], true⟩ := by
  have hneg : writeUInt32LE (lowHalf token) = none := by
    rw [writeUInt32LE, if_neg fun hrange => absurd hrange.1 (not_le.mpr (lowHalf_of_ge hlow))]
  rw [writeQuery, hneg]

lemma writeQuery_thrown_of_large {token : ℕ} {data : List UInt8} (hd : 2 ^ 32 ≤ data.length) :
    (writeQuery token data).thrown = true := by
  have hwrite : (write data).thrown = true := by
    have hrange : ¬ ((0 : ℤ) ≤ data.length ∧ (data.length : ℤ) ≤ 0xFFFFFFFF) := by omega
    rw [write, writeUInt32LE, if_neg hrange]
  rw [writeQuery]
  split
  · exact hwrite
  · rfl

/-! ### Texts -/

inductive ParseFailure
  | json
  | params (message : String)

def ParseFailure.message : ParseFailure → String
  | .json => "Client is buggy (failed to deserialize query)."
  | .params message => "Server could not parse query: " ++ message

/-- The texts of queries and responses: `JSON.stringify` and the parser of the
server one way, the writer of the server and `JSON.parse` the other way. The
writer may fail on a value JSON has no text for. -/
structure Codec where
  queryText : ℕ → Query → List UInt8
  parseQuery : List UInt8 → Except ParseFailure Query
  responseText : Response → Except String (List UInt8)
  parseResponse : List UInt8 → Option Response
  parseQuery_queryText : ∀ token query, parseQuery (queryText token query) = .ok query
  parseResponse_responseText : ∀ response text, responseText response = .ok text →
    parseResponse text = some response

def ascii (text : String) : List UInt8 := text.toList.map fun c => UInt8.ofNat c.toNat

/-- A batch and the last batch of a result, and a batch of a feed the driver has no
class for. -/
def annBatch : Response := ⟨.successPartial, [.str "ann"], []⟩
def bobBatch : Response := ⟨.successSequence, [.str "bob"], []⟩
def unionBatch : Response := ⟨.successPartial, [], [.unionedFeed]⟩

/-- The texts of the query `r.table('employee')`, of what follows it, and of three
responses. -/
def Codec.sample : Codec where
  queryText := fun _ query =>
    match query with
    | .start false => ascii "[1,[15,[\"employee\"]]]"
    | .start true => ascii "[1,[15,[\"employee\"]],\x7b\"noreply\":true\x7d]"
    | .continue => ascii "[2]"
    | .stop => ascii "[3]"
    | .noreplyWait => ascii "[4]"
  parseQuery := fun text =>
    if text = ascii "[1,[15,[\"employee\"]]]" then .ok (.start false)
    else if text = ascii "[1,[15,[\"employee\"]],\x7b\"noreply\":true\x7d]" then .ok (.start true)
    else if text = ascii "[2]" then .ok .continue
    else if text = ascii "[3]" then .ok .stop
    else if text = ascii "[4]" then .ok .noreplyWait
    else .error .json
  responseText := fun response =>
    if response = annBatch then .ok (ascii "\x7b\"t\":3,\"r\":[\"ann\"],\"n\":[]\x7d")
    else if response = bobBatch then .ok (ascii "\x7b\"t\":2,\"r\":[\"bob\"],\"n\":[]\x7d")
    else if response = unionBatch then .ok (ascii "\x7b\"t\":3,\"r\":[],\"n\":[4]\x7d")
    else .error "No text."
  parseResponse := fun text =>
    if text = ascii "\x7b\"t\":3,\"r\":[\"ann\"],\"n\":[]\x7d" then some annBatch
    else if text = ascii "\x7b\"t\":2,\"r\":[\"bob\"],\"n\":[]\x7d" then some bobBatch
    else if text = ascii "\x7b\"t\":3,\"r\":[],\"n\":[4]\x7d" then some unionBatch
    else none
  parseQuery_queryText := by
    intro token query
    cases query with
    | start noreply => cases noreply <;> rfl
    | _ => rfl
  parseResponse_responseText := by
    intro response text h
    split_ifs at h with hann hbob hunion
    · obtain rfl := Except.ok.inj h
      rw [hann]
      rfl
    · obtain rfl := Except.ok.inj h
      rw [hbob]
      rfl
    · obtain rfl := Except.ok.inj h
      rw [hunion]
      rfl

def tooLargeQuerySize : ℕ := 128 * 2 ^ 20

def tooLargeResponseSize : ℕ := 2 ^ 32 - 1

def tooLargeQueryMessage (size : ℕ) : String :=
  "Query size (" ++ toString size ++ ") greater than maximum (" ++
    toString (tooLargeQuerySize - 1) ++ ")."

def tooLargeResponseMessage (size : ℕ) : String :=
  "Response size (" ++ toString size ++ ") greater than maximum (" ++
    toString (tooLargeResponseSize - 1) ++ ")."

/-! ### Responses -/

/-- What has been put on the socket for a response: the response itself or the
error in its place. -/
structure Sent where
  token : ℕ
  response : Response
  text : List UInt8

namespace Codec

variable (codec : Codec)

/-- The function `write_response_internal`, which writes the error instead if it
cannot write the response. -/
def writeResponse (response : Response) : Option (Response × List UInt8) :=
  match codec.responseText response with
  | .ok text => some (response, text)
  | .error message =>
    let error := errorResponse .runtimeError message
    (codec.responseText error).toOption.map (error, ·)

/-- The method `send_response`. If even the error is too large it never ends. -/
def sendResponse (token : ℕ) (response : Response) : Option Sent :=
  match codec.writeResponse response with
  | none => none
  | some (response, text) =>
    if text.length < tooLargeResponseSize then some ⟨token, response, text⟩
    else
      match codec.writeResponse (errorResponse .runtimeError
        (tooLargeResponseMessage text.length)) with
      | none => none
      | some (error, text) =>
        if text.length < tooLargeResponseSize then some ⟨token, error, text⟩ else none

variable {σ : Type*} (process : σ → ℕ → Response → Option σ)

/-- The loop body of `_data`: where `JSON.parse` or `_processResponse` throws, the
message has not been taken off the buffer. -/
def handleResponse (s : σ) (frame : Frame UInt8) : Option σ :=
  (codec.parseResponse frame.body).bind (process s (tokenOf frame.header))

def data (r : Format.Reader σ UInt8) (buf : List UInt8) : Format.Reader σ UInt8 :=
  messages.feed (codec.handleResponse process) r buf

end Codec

def Sent.frame (sent : Sent) : Frame UInt8 := message sent.token sent.text

section responses

variable {codec : Codec} {token : ℕ} {response error : Response} {text : List UInt8} {sent : Sent}

lemma writeResponse_parses (h : codec.writeResponse response = some (error, text)) :
    codec.parseResponse text = some error := by
  rw [Codec.writeResponse] at h
  split at h
  · next text' ht =>
    obtain ⟨rfl, rfl⟩ : response = error ∧ text' = text := by simpa using h
    exact codec.parseResponse_responseText _ _ ht
  · next message _ =>
    obtain ⟨text', ht, he⟩ := Option.map_eq_some_iff.mp h
    obtain ⟨rfl, rfl⟩ : errorResponse .runtimeError message = error ∧ text' = text := by
      simpa using he
    refine codec.parseResponse_responseText _ _ ?_
    cases hx : codec.responseText (errorResponse .runtimeError message) with
    | ok t =>
      rw [hx] at ht
      obtain rfl : t = text' := by simpa [Except.toOption] using ht
      rfl
    | error m => simp [hx, Except.toOption] at ht

lemma sendResponse_spec (h : codec.sendResponse token response = some sent) :
    sent.token = token ∧ sent.text.length < 2 ^ 32 ∧
    codec.parseResponse sent.text = some sent.response := by
  have hlimit : tooLargeResponseSize < 2 ^ 32 := by decide
  rw [Codec.sendResponse] at h
  split at h
  · cases h
  · next r t hw =>
    split_ifs at h with hsize
    · obtain rfl : (⟨token, r, t⟩ : Sent) = sent := by simpa using h
      exact ⟨rfl, by simp only; omega, writeResponse_parses hw⟩
    · split at h
      · cases h
      · next e t' hw' =>
        split_ifs at h with hsize'
        obtain rfl : (⟨token, e, t'⟩ : Sent) = sent := by simpa using h
        exact ⟨rfl, by simp only; omega, writeResponse_parses hw'⟩

lemma handleResponse_sent {σ : Type*} {process : σ → ℕ → Response → Option σ} (ht : token < 2 ^ 64)
    (h : codec.sendResponse token response = some sent) (s : σ) :
    codec.handleResponse process s sent.frame = process s sent.token sent.response := by
  obtain ⟨htoken, -, hparse⟩ := sendResponse_spec h
  rw [Codec.handleResponse, Sent.frame, tokenOf_message (by omega)]
  simp only [message, hparse, Option.bind_some]

lemma mem_sent {responses : List (ℕ × Response)} {sent : List Sent}
    (hs : List.Forall₂ (fun m out => codec.sendResponse m.1 m.2 = some out) responses sent) :
    ∀ out ∈ sent, ∃ m ∈ responses, codec.sendResponse m.1 m.2 = some out := by
  induction hs with
  | nil => simp
  | @cons m out responses sent h _ ih =>
    intro out' hout
    rcases List.mem_cons.mp hout with rfl | hout
    · exact ⟨m, List.mem_cons_self, h⟩
    · obtain ⟨m', hm, h'⟩ := ih out' hout
      exact ⟨m', List.mem_cons_of_mem _ hm, h'⟩

/-- A processing that keeps a log and makes a cursor of each partial response. -/
def record (log : List (ℕ × Response)) (token : ℕ) (response : Response) :
    Option (List (ℕ × Response)) :=
  if (⟨some .callback, none, []⟩ : Client).accepts response then
    some (log ++ [(token, response)])
  else none

def annSent : Sent := ⟨1, annBatch, ascii "\x7b\"t\":3,\"r\":[\"ann\"],\"n\":[]\x7d"⟩
def unionSent : Sent := ⟨2, unionBatch, ascii "\x7b\"t\":3,\"r\":[],\"n\":[4]\x7d"⟩
def bobSent : Sent := ⟨1, bobBatch, ascii "\x7b\"t\":2,\"r\":[\"bob\"],\"n\":[]\x7d"⟩

/-- Three responses in two pieces, the first cut in its header. -/
def cutPieces : List (List UInt8) :=
  [annSent.frame.symbols.take 5,
    annSent.frame.symbols.drop 5 ++ (unionSent.frame.symbols ++ bobSent.frame.symbols)]

/-- A response that `JSON.parse` rejects stays at the front of the buffer: nothing
that comes after it is ever processed. -/
theorem data_blocked {σ : Type*} (codec : Codec) (process : σ → ℕ → Response → Option σ) (s : σ)
    (token : ℕ) {text : List UInt8} (hsize : text.length < 2 ^ 32)
    (hparse : codec.parseResponse text = none) (pieces : List (List UInt8)) :
    pieces.foldl (codec.data process) ⟨s, (message token text).symbols⟩ =
      ⟨s, (message token text).symbols ++ pieces.flatten⟩ := by
  have hrefused : codec.handleResponse process s (message token text) = none := by
    rw [Codec.handleResponse, message, hparse, Option.bind_none]
  induction pieces using List.reverseRecOn with
  | nil => simp
  | append_singleton pieces piece ih =>
    rw [List.foldl_append, ih, List.foldl_cons, List.foldl_nil, Codec.data, Format.feed,
      List.append_assoc, List.flatten_append, List.flatten_cons, List.flatten_nil, List.append_nil]
    exact Format.drain_of_refused (message_cut hsize _) hrefused

theorem data_blocked_first :
    [annSent.frame.symbols, bobSent.frame.symbols].foldl (Codec.sample.data record)
        ⟨[], (message 2 (ascii "\x7b\"t\":")).symbols⟩ =
      ⟨[], (message 2 (ascii "\x7b\"t\":")).symbols ++
        (annSent.frame.symbols ++ bobSent.frame.symbols)⟩ :=
  data_blocked Codec.sample record [] 2 (by decide) rfl [annSent.frame.symbols,
    bobSent.frame.symbols]

end responses

/-! ### Queries, as the server reads them -/

/-- What the server makes of a message: a query, or an error it sends back. -/
inductive Incoming
  | query (token : ℕ) (query : Query)
  | refused (token : ℕ) (response : Response)

/-- What `connection_loop` has read, and whether it has given the connection up. -/
structure Intake where
  received : List Incoming
  closed : Bool

/-- A message as `parse_query` reads it, which does not keep a text that is too large. -/
def queries : Format UInt8 where
  headerSize := 12
  bodySize := fun header => if sizeOf header < tooLargeQuerySize then sizeOf header else 0
  headerSize_pos := by decide

def tooLarge (token size : ℕ) : Incoming :=
  .refused token (errorResponse .clientError (tooLargeQueryMessage size))

namespace Codec

variable (codec : Codec)

/-- The function `parse_query_from_buffer`. -/
def parseText (token : ℕ) (text : List UInt8) : Incoming :=
  match codec.parseQuery text with
  | .ok query => .query token query
  | .error failure => .refused token (errorResponse .clientError failure.message)

/-- The method `parse_query`, as `connection_loop` calls it over and over. -/
def parseMessage (intake : Intake) (frame : Frame UInt8) : Option Intake :=
  let token := leNat (frame.header.take 8)
  if intake.closed then none
  else if sizeOf frame.header < tooLargeQuerySize then
    some ⟨intake.received ++ [codec.parseText token frame.body], false⟩
  else some ⟨intake.received ++ [tooLarge token (sizeOf frame.header)], true⟩

def read (r : Format.Reader Intake UInt8) (piece : List UInt8) : Format.Reader Intake UInt8 :=
  queries.feed codec.parseMessage r piece

def queryBytes (m : ℕ × Query) : List UInt8 := (writeQuery m.1 (codec.queryText m.1 m.2)).bytes

def readable (m : ℕ × Query) : Bool := decide ((codec.queryText m.1 m.2).length < tooLargeQuerySize)

end Codec

section queries

variable {codec : Codec} {token : ℕ} {text : List UInt8}

lemma token_message (h : token < 2 ^ 64) : leNat ((message token text).header.take 8) = token := by
  rw [message, List.take_left' (leBytes_length _ _), leNat_leBytes]
  exact Nat.mod_eq_of_lt h

lemma queries_cut_small (h : text.length < tooLargeQuerySize) (rest : List UInt8) :
    queries.next? ((message token text).symbols ++ rest) = some (message token text, rest) := by
  have hsize : sizeOf (message token text).header = text.length :=
    sizeOf_message token (h.trans (by decide))
  refine Format.next?_eq_some.mpr ⟨⟨message_header_length token text, ?_⟩, rfl⟩
  simp only [queries, hsize, if_pos h]
  rfl

lemma queries_cut_large (h : tooLargeQuerySize ≤ text.length) (hl : text.length < 2 ^ 32)
    (rest : List UInt8) :
    queries.next? ((message token text).symbols ++ rest) =
      some (⟨(message token text).header, []⟩, text ++ rest) := by
  refine Format.next?_eq_some.mpr ⟨⟨message_header_length token text, ?_⟩, ?_⟩
  · simp only [queries, sizeOf_message token hl, if_neg (not_lt.mpr h), List.length_nil]
  · simp only [Frame.symbols, message, List.append_assoc, List.nil_append]

lemma parseMessage_small (received : List Incoming) (htoken : token < 2 ^ 64)
    (h : text.length < tooLargeQuerySize) :
    codec.parseMessage ⟨received, false⟩ (message token text) =
      some ⟨received ++ [codec.parseText token text], false⟩ := by
  have hsize : sizeOf (message token text).header < tooLargeQuerySize := by
    rwa [sizeOf_message token (h.trans (by decide))]
  have hbody : (message token text).body = text := rfl
  simp only [Codec.parseMessage, if_pos hsize, hbody, token_message htoken,
    Bool.false_eq_true, if_false]

lemma parseText_queryText (token : ℕ) (query : Query) :
    codec.parseText token (codec.queryText token query) = .query token query := by
  rw [Codec.parseText, codec.parseQuery_queryText]

lemma parseMessage_large (received : List Incoming) (htoken : token < 2 ^ 64)
    (h : tooLargeQuerySize ≤ text.length) (hl : text.length < 2 ^ 32) :
    codec.parseMessage ⟨received, false⟩ ⟨(message token text).header, []⟩ =
      some ⟨received ++ [tooLarge token text.length], true⟩ := by
  have hsize : sizeOf (message token text).header = text.length := sizeOf_message token hl
  simp only [Codec.parseMessage, hsize, if_neg (not_lt.mpr h), token_message htoken,
    Bool.false_eq_true, if_false]

lemma drain_small (received : List Incoming) (htoken : token < 2 ^ 64)
    (h : text.length < tooLargeQuerySize) (rest : List UInt8) :
    queries.drain codec.parseMessage ⟨⟨received, false⟩, (message token text).symbols ++ rest⟩ =
      queries.drain codec.parseMessage ⟨⟨received ++ [codec.parseText token text], false⟩, rest⟩ :=
  Format.drain_of_handled (queries_cut_small h rest) (parseMessage_small received htoken h)

lemma drain_closed (received : List Incoming) (buffer : List UInt8) :
    queries.drain codec.parseMessage ⟨⟨received, true⟩, buffer⟩ = ⟨⟨received, true⟩, buffer⟩ := by
  cases hnext : queries.next? buffer with
  | none => exact Format.drain_of_none hnext
  | some p => exact Format.drain_of_refused hnext rfl

lemma drain_large (received : List Incoming) (htoken : token < 2 ^ 64)
    (h : tooLargeQuerySize ≤ text.length) (hl : text.length < 2 ^ 32) (rest : List UInt8) :
    queries.drain codec.parseMessage ⟨⟨received, false⟩, (message token text).symbols ++ rest⟩ =
      ⟨⟨received ++ [tooLarge token text.length], true⟩, text ++ rest⟩ := by
  have hstep : queries.drain codec.parseMessage ⟨⟨received, false⟩,
    (message token text).symbols ++ rest⟩ =
      queries.drain codec.parseMessage ⟨⟨received ++ [tooLarge token text.length], true⟩,
        text ++ rest⟩ :=
    Format.drain_of_handled (queries_cut_large h hl rest) (parseMessage_large received htoken h hl)
  rw [hstep, drain_closed]

/-- Every token a connection can come to either makes `_writeQuery` throw before
anything is written, which happens to the second half of every 2³² tokens, or is
read by the server as it was, with the text that goes with it and nothing else. -/
theorem writeQuery_exact (codec : Codec) (token : ℕ) (data : List UInt8) (received : List Incoming)
    (rest : List UInt8) (h : token < 2 ^ 53) (hd : data.length < tooLargeQuerySize) :
    if 2 ^ 31 ≤ token % 2 ^ 32 then writeQuery token data = ⟨[], true⟩
    else (writeQuery token data).thrown = false ∧
      queries.drain codec.parseMessage ⟨⟨received, false⟩, (writeQuery token data).bytes ++ rest⟩ =
        queries.drain codec.parseMessage
          ⟨⟨received ++ [codec.parseText token data], false⟩, rest⟩ := by
  split_ifs with hlow
  · exact writeQuery_of_ge data hlow
  · rw [writeQuery_of_lt h (by omega) (hd.trans (by decide))]
    exact ⟨rfl, drain_small received (by omega) hd rest⟩

theorem writeQuery_exact_last :
    writeQuery 0x80000000 (ascii "[2]") = ⟨[], true⟩ ∧
      (writeQuery 0x7FFFFFFF (ascii "[2]")).thrown = false ∧
      queries.drain Codec.sample.parseMessage ⟨⟨[], false⟩,
        (writeQuery 0x7FFFFFFF (ascii "[2]")).bytes ++ []⟩ =
        queries.drain Codec.sample.parseMessage
          ⟨⟨[] ++ [.query 0x7FFFFFFF .continue], false⟩, []⟩ := by
  have hthrows :=
    writeQuery_exact Codec.sample 0x80000000 (ascii "[2]") [] [] (by decide) (by decide)
  have hwrites :=
    writeQuery_exact Codec.sample 0x7FFFFFFF (ascii "[2]") [] [] (by decide) (by decide)
  rw [if_pos (by decide)] at hthrows
  rw [if_neg (by decide)] at hwrites
  exact ⟨hthrows, hwrites⟩

variable {sent : List (ℕ × Query)}

lemma queryBytes_eq {m : ℕ × Query} (ht : m.1 < 2 ^ 31)
    (hl : (codec.queryText m.1 m.2).length < 2 ^ 32) :
    codec.queryBytes m = (message m.1 (codec.queryText m.1 m.2)).symbols := by
  rw [Codec.queryBytes, writeQuery_of_lt (by omega) (by omega) hl]

lemma drain_queries (ht : ∀ m ∈ sent, m.1 < 2 ^ 31)
    (hl : ∀ m ∈ sent, (codec.queryText m.1 m.2).length < 2 ^ 32) (received : List Incoming) :
    (queries.drain codec.parseMessage ⟨⟨received, false⟩,
      (sent.map codec.queryBytes).flatten⟩).state =
      ⟨received ++ (sent.takeWhile codec.readable).map (fun m => .query m.1 m.2) ++
          ((sent.dropWhile codec.readable).head?.map fun m =>
            tooLarge m.1 (codec.queryText m.1 m.2).length).toList,
        !(sent.dropWhile codec.readable).isEmpty⟩ := by
  induction sent generalizing received with
  | nil =>
    rw [List.map_nil, List.flatten_nil, Format.drain_of_none (Format.next?_empty List.length_nil)]
    simp
  | cons m sent ih =>
    have htoken : m.1 < 2 ^ 31 := ht m List.mem_cons_self
    have hlen := hl m List.mem_cons_self
    have hrec :=
      ih (fun m hm => ht m (List.mem_cons_of_mem _ hm))
        (fun m hm => hl m (List.mem_cons_of_mem _ hm))
    rw [List.map_cons, List.flatten_cons, queryBytes_eq htoken hlen]
    by_cases hsize : (codec.queryText m.1 m.2).length < tooLargeQuerySize
    · have hread : codec.readable m = true := decide_eq_true hsize
      rw [drain_small received (by omega) hsize, parseText_queryText, hrec,
        List.takeWhile_cons_of_pos hread, List.dropWhile_cons_of_pos hread, List.map_cons]
      simp only [List.append_assoc, List.cons_append, List.nil_append]
    · have hread : ¬ codec.readable m = true := by simpa [Codec.readable] using hsize
      rw [drain_large received (by omega) (not_lt.mp hsize) hlen, List.takeWhile_cons_of_neg hread,
        List.dropWhile_cons_of_neg hread]
      simp only [List.map_nil, List.append_nil, List.head?_cons, Option.map_some,
        Option.toList_some, List.isEmpty_cons, Bool.not_false]

/-- Whatever pieces the queries of a connection reach the server in, it reads each
of them with its token, in order, up to the first that is too large; that one is
answered with an error and the connection is given up. -/
theorem queries_read (codec : Codec) (sent : List (ℕ × Query)) (ht : ∀ m ∈ sent, m.1 < 2 ^ 31)
    (hl : ∀ m ∈ sent, (codec.queryText m.1 m.2).length < 2 ^ 32) {pieces : List (List UInt8)}
    (hp : pieces.flatten = (sent.map codec.queryBytes).flatten) :
    (pieces.foldl codec.read ⟨⟨[], false⟩, []⟩).state =
      ⟨(sent.takeWhile codec.readable).map (fun m => .query m.1 m.2) ++
          ((sent.dropWhile codec.readable).head?.map fun m =>
            tooLarge m.1 (codec.queryText m.1 m.2).length).toList,
        !(sent.dropWhile codec.readable).isEmpty⟩ := by
  have hread : pieces.foldl codec.read ⟨⟨[], false⟩, []⟩ =
      queries.drain codec.parseMessage ⟨⟨[], false⟩, (sent.map codec.queryBytes).flatten⟩ := by
    rw [← hp]
    exact Format.foldl_feed_empty _ pieces
  rw [hread, drain_queries ht hl, List.nil_append]

theorem queries_read_two :
    ([Codec.sample.queryBytes (1, .start false) ++ (Codec.sample.queryBytes (1, .continue)).take 3,
        (Codec.sample.queryBytes (1, .continue)).drop 3].foldl Codec.sample.read ⟨⟨[], false⟩,
        []⟩).state =
      ⟨[.query 1 (.start false), .query 1 .continue], false⟩ :=
  queries_read Codec.sample [(1, .start false), (1, .continue)] (by decide) (by decide) rfl

end queries

end PersonnelBackend.Wire
