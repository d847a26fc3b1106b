import Mathlib.Data.Nat.Digits.Defs

/-! Streams of frames with a header of fixed size that says how long the body is,
read by a buffer that is handed the stream in pieces, and the little-endian
numbers such headers are made of. A frame that its reader refuses stays at the
front of the buffer. -/
namespace PersonnelBackend.Framing

universe u v w

/-! ### Little-endian numbers -/

/-- The first `k` bytes of `n`, least significant first. -/
def leBytes : ℕ → ℕ → List UInt8
  | 0, _ => []
  | k + 1, n => UInt8.ofNat n :: leBytes k (n / 256)

def leNat (bytes : List UInt8) : ℕ := Nat.ofDigits 256 (bytes.map UInt8.toNat)

@[simp] lemma leBytes_length (k n : ℕ) : (leBytes k n).length = k := by
  induction k generalizing n with
  | zero => rfl
  | succ k ih => simp [leBytes, ih]

lemma leNat_leBytes (k n : ℕ) : leNat (leBytes k n) = n % 256 ^ k := by
  induction k generalizing n with
  | zero => simp [leBytes, leNat, Nat.mod_one]
  | succ k ih =>
    have hrec := ih (n / 256)
    rw [leNat] at hrec
    rw [leNat, leBytes, List.map_cons, Nat.ofDigits_cons, hrec, UInt8.toNat_ofNat', pow_succ' 256 k]
    exact (Nat.mod_mul (x := n)).symm

lemma leBytes_add (j k n : ℕ) : leBytes (j + k) n = leBytes j n ++ leBytes k (n / 256 ^ j) := by
  induction j generalizing n with
  | zero => simp [leBytes]
  | succ j ih =>
    rw [Nat.add_right_comm, leBytes, leBytes, ih, List.cons_append, Nat.div_div_eq_div_mul,
      pow_succ']

lemma leBytes_mod (k n : ℕ) : leBytes k (n % 256 ^ k) = leBytes k n := by
  induction k generalizing n with
  | zero => rfl
  | succ k ih =>
    have hbyte : UInt8.ofNat (n % 256 ^ (k + 1)) = UInt8.ofNat n := by
      refine UInt8.toNat_inj.mp ?_
      rw [UInt8.toNat_ofNat', UInt8.toNat_ofNat', pow_succ', Nat.mod_mul_right_mod]
    rw [leBytes, leBytes, hbyte, pow_succ', Nat.mod_mul_right_div_self, ih]

/-! ### Frames -/

/-- A header of fixed size and how to read the size of the body off it. -/
structure Format (α : Type u) where
  headerSize : ℕ
  bodySize : List α → ℕ
  headerSize_pos : 0 < headerSize

structure Frame (α : Type u) where
  header : List α
  body : List α

namespace Frame

variable {α : Type u}

def symbols (frame : Frame α) : List α := frame.header ++ frame.body

/-- The header has the right size and tells the size of the body. -/
structure Fits (format : Format α) (frame : Frame α) : Prop where
  header : frame.header.length = format.headerSize
  body : frame.body.length = format.bodySize frame.header

end Frame

namespace Format

variable {α : Type u} {σ : Type v} (format : Format α)

/-- The first frame of a stream and what comes after it, if all of it is there. -/
def next? (stream : List α) : Option (Frame α × List α) :=
  let header := stream.take format.headerSize
  let size := format.headerSize + format.bodySize header
  if format.headerSize ≤ stream.length ∧ size ≤ stream.length then
    some (⟨header, (stream.drop format.headerSize).take (format.bodySize header)⟩, stream.drop size)
  else none

variable {format}

lemma next?_eq_some {stream rest : List α} {frame : Frame α} :
    format.next? stream = some (frame, rest) ↔
    frame.Fits format ∧ stream = frame.symbols ++ rest := by
  constructor
  · intro h
    rw [next?] at h
    split_ifs at h with hsize
    obtain ⟨rfl, rfl⟩ : _ = frame ∧ _ = rest := by simpa using h
    refine ⟨⟨by simp [hsize.1], ?_⟩, ?_⟩
    · simp only [List.length_take, List.length_drop]
      omega
    · rw [Frame.symbols, ← List.drop_drop, List.append_assoc, List.take_append_drop,
        List.take_append_drop]
  · rintro ⟨⟨hheader, hbody⟩, rfl⟩
    have htake : (frame.symbols ++ rest).take format.headerSize = frame.header := by
      rw [Frame.symbols, List.append_assoc, List.take_left' hheader]
    have hdrop : (frame.symbols ++ rest).drop format.headerSize = frame.body ++ rest := by
      rw [Frame.symbols, List.append_assoc, List.drop_left' hheader]
    have hlen : (frame.symbols ++ rest).length =
        format.headerSize + format.bodySize frame.header + rest.length := by
      simp [Frame.symbols, hheader, hbody, Nat.add_assoc]
    rw [next?]
    simp only [htake]
    rw [if_pos (by omega), ← List.drop_drop, hdrop, List.take_left' hbody, List.drop_left' hbody]

lemma next?_empty {stream : List α} (h : stream.length = 0) : format.next? stream = none := by
  have hpos := format.headerSize_pos
  rw [next?, if_neg (by omega)]

lemma next?_append {stream rest : List α} {frame : Frame α}
    (h : format.next? stream = some (frame, rest)) (more : List α) :
    format.next? (stream ++ more) = some (frame, rest ++ more) := by
  obtain ⟨hfits, rfl⟩ := next?_eq_some.mp h
  exact next?_eq_some.mpr ⟨hfits, List.append_assoc _ _ _⟩

lemma next?_length {stream rest : List α} {frame : Frame α}
    (h : format.next? stream = some (frame, rest)) :
    rest.length < stream.length := by
  obtain ⟨hfits, rfl⟩ := next?_eq_some.mp h
  have hpos := format.headerSize_pos
  rw [List.length_append, Frame.symbols, List.length_append, hfits.header]
  omega

/-! ### Reading a buffer -/

/-- What has been made of the frames read so far, and the symbols not used up. -/
@[ext] structure Reader (σ : Type v) (α : Type u) where
  state : σ
  buffer : List α

variable (format) (handle : σ → Frame α → Option σ)

/-- Handle the frames at the front of the buffer one after another, as long as
they are complete and `handle` accepts them. -/
def drainWith : ℕ → Reader σ α → Reader σ α
  | 0, r => r
  | fuel + 1, r =>
    match format.next? r.buffer with
    | none => r
    | some (frame, rest) =>
      match handle r.state frame with
      | none => r
      | some state => drainWith fuel ⟨state, rest⟩

/-- Every frame uses up a symbol, so that the length of the buffer is fuel enough. -/
def drain (r : Reader σ α) : Reader σ α := format.drainWith handle r.buffer.length r

def feed (r : Reader σ α) (piece : List α) : Reader σ α :=
  format.drain handle ⟨r.state, r.buffer ++ piece⟩

variable {format handle}

lemma drainWith_of_none {r : Reader σ α} (h : format.next? r.buffer = none) (fuel : ℕ) :
    format.drainWith handle fuel r = r := by
  cases fuel with
  | zero => rfl
  | succ fuel => rw [drainWith, h]

lemma drainWith_of_le {fuel fuel' : ℕ} {r : Reader σ α} (h : r.buffer.length ≤ fuel)
    (h' : r.buffer.length ≤ fuel') :
    format.drainWith handle fuel r = format.drainWith handle fuel' r := by
  induction fuel generalizing r fuel' with
  | zero =>
    have hnone : format.next? r.buffer = none := next?_empty (Nat.le_zero.mp h)
    rw [drainWith_of_none hnone, drainWith_of_none hnone]
  | succ fuel ih =>
    cases hn : format.next? r.buffer with
    | none => rw [drainWith_of_none hn, drainWith_of_none hn]
    | some p =>
      obtain ⟨frame, rest⟩ := p
      have hlt := next?_length hn
      obtain ⟨fuel', rfl⟩ : ∃ n, fuel' = n + 1 := Nat.exists_eq_add_one.mpr (by omega)
      simp only [drainWith, hn]
      cases handle r.state frame with
      | none => rfl
      | some state =>
        exact ih (r := ⟨state, rest⟩) (show rest.length ≤ fuel by omega)
          (show rest.length ≤ fuel' by omega)

lemma drain_of_none {r : Reader σ α} (h : format.next? r.buffer = none) :
    format.drain handle r = r :=
  drainWith_of_none h _

lemma drain_of_refused {r : Reader σ α} {frame : Frame α} {rest : List α}
    (h : format.next? r.buffer = some (frame, rest)) (hr : handle r.state frame = none) :
    format.drain handle r = r := by
  rw [drain]
  cases r.buffer.length with
  | zero => rfl
  | succ n => simp only [drainWith, h, hr]

lemma drain_of_handled {r : Reader σ α} {frame : Frame α} {rest : List α} {state : σ}
    (h : format.next? r.buffer = some (frame, rest)) (hs : handle r.state frame = some state) :
    format.drain handle r = format.drain handle ⟨state, rest⟩ := by
  have hlt := next?_length h
  obtain ⟨n, hn⟩ : ∃ n, r.buffer.length = n + 1 := Nat.exists_eq_add_one.mpr (by omega)
  rw [drain, hn, drainWith, h]
  simp only [hs]
  exact drainWith_of_le (show rest.length ≤ n by omega) le_rfl

lemma drain_append (r : Reader σ α) (more : List α) :
    format.drain handle ⟨r.state, r.buffer ++ more⟩ =
      format.feed handle (format.drain handle r) more := by
  obtain ⟨n, hn⟩ : ∃ n, r.buffer.length ≤ n := ⟨_, le_rfl⟩
  induction n generalizing r with
  | zero =>
    rw [drain_of_none (next?_empty (Nat.le_zero.mp hn)), feed]
  | succ n ih =>
    cases hnext : format.next? r.buffer with
    | none => rw [drain_of_none hnext, feed]
    | some p =>
      obtain ⟨frame, rest⟩ := p
      have hlt := next?_length hnext
      cases hs : handle r.state frame with
      | none => rw [drain_of_refused hnext hs, feed]
      | some state =>
        rw [drain_of_handled hnext hs,
          drain_of_handled (r := ⟨r.state, r.buffer ++ more⟩) (next?_append hnext more) hs]
        exact ih ⟨state, rest⟩ (by simp only; omega)

lemma foldl_feed (r : Reader σ α) (pieces : List (List α)) :
    pieces.foldl (format.feed handle) (format.drain handle r) =
      format.drain handle ⟨r.state, r.buffer ++ pieces.flatten⟩ := by
  induction pieces generalizing r with
  | nil => simp
  | cons piece pieces ih =>
    rw [List.foldl_cons, List.flatten_cons, ← drain_append, ih, List.append_assoc]

lemma foldl_feed_empty (state : σ) (pieces : List (List α)) :
    pieces.foldl (format.feed handle) ⟨state, []⟩ =
      format.drain handle ⟨state, pieces.flatten⟩ := by
  have h : pieces.foldl (format.feed handle) (format.drain handle ⟨state, []⟩) = _ := foldl_feed _ _
  rwa [drain_of_none (next?_empty rfl)] at h

section stream

variable {β : Type w} {items : List β} {frame : β → Frame α} {step : σ → β → Option σ}

lemma drain_frames (hfits : ∀ x ∈ items, (frame x).Fits format)
    (hstep : ∀ x ∈ items, ∀ state, handle state (frame x) = step state x) (state : σ)
    {buffer later : List α} (h : buffer ++ later = (items.map fun x => (frame x).symbols).flatten) :
    ∃ done rest, items = done ++ rest ∧
      done.foldlM step state = some (format.drain handle ⟨state, buffer⟩).state ∧
      (format.drain handle ⟨state, buffer⟩).buffer ++ later =
        (rest.map fun x => (frame x).symbols).flatten ∧
      (later = [] → ∀ x ∈ rest.head?, step (format.drain handle ⟨state, buffer⟩).state x =
        none) := by
  -- a buffer that holds the beginning of a stream of well-formed frames uses up the first of
  -- them, up to one that is refused, and keeps the beginning of the rest
  induction items generalizing state buffer with
  | nil =>
    obtain ⟨rfl, rfl⟩ : buffer = [] ∧ later = [] := by simpa using h
    exact ⟨[], [], rfl, rfl, rfl, fun _ x hx => by cases hx⟩
  | cons x items ih =>
    have hfirst : (frame x).Fits format := hfits x List.mem_cons_self
    rw [List.map_cons, List.flatten_cons] at h
    cases hnext : format.next? buffer with
    | none =>
      rw [drain_of_none hnext]
      refine ⟨[], x :: items, rfl, rfl, h, ?_⟩
      rintro rfl
      rw [List.append_nil] at h
      exact absurd (hnext.symm.trans (next?_eq_some.mpr ⟨hfirst, h⟩)) (by simp)
    | some p =>
      obtain ⟨first, rest⟩ := p
      -- the first complete frame of the buffer is the first frame of the stream
      have hwhole := next?_append hnext later
      rw [h, next?_eq_some.mpr ⟨hfirst, rfl⟩] at hwhole
      obtain ⟨rfl, hrest⟩ : frame x = first ∧ _ = rest ++ later := by simpa using hwhole
      have hhandle := hstep x List.mem_cons_self state
      cases hs : step state x with
      | none =>
        rw [hs] at hhandle
        rw [drain_of_refused (r := ⟨state, buffer⟩) hnext hhandle]
        refine ⟨[], x :: items, rfl, rfl, h, fun _ y hy => ?_⟩
        obtain rfl : x = y := by simpa using hy
        exact hs
      | some state' =>
        rw [hs] at hhandle
        obtain ⟨done, left, rfl, h1, h2, h3⟩ := ih (fun y hy => hfits y (List.mem_cons_of_mem _ hy))
          (fun y hy => hstep y (List.mem_cons_of_mem _ hy)) state' hrest.symm
        rw [drain_of_handled (r := ⟨state, buffer⟩) hnext hhandle]
        refine ⟨x :: done, left, rfl, ?_, h2, h3⟩
        rw [List.foldlM_cons, hs]
        exact h1

lemma foldl_feed_frames (hfits : ∀ x ∈ items, (frame x).Fits format)
    (hstep : ∀ x ∈ items, ∀ state, handle state (frame x) = step state x) (state : σ)
    {pieces : List (List α)}
    (hp : pieces.flatten = (items.map fun x => (frame x).symbols).flatten) :
    ∃ done rest, items = done ++ rest ∧
      done.foldlM step state = some (pieces.foldl (format.feed handle) ⟨state, []⟩).state ∧
      (pieces.foldl (format.feed handle) ⟨state, []⟩).buffer =
        (rest.map fun x => (frame x).symbols).flatten ∧
      ∀ x ∈ rest.head?, step (pieces.foldl (format.feed handle) ⟨state, []⟩).state x = none := by
  rw [foldl_feed_empty, hp]
  obtain ⟨done, rest, h1, h2, h3, h4⟩ :=
    drain_frames hfits hstep state (List.append_nil (items.map fun x => (frame x).symbols).flatten)
  exact ⟨done, rest, h1, h2, by simpa using h3, h4 rfl⟩

end stream

end Format

end PersonnelBackend.Framing
