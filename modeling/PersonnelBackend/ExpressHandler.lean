import PersonnelBackend.DatabaseStore

/-! Async handlers. A handler awaits database calls, sends answers on its
response object and may end by throwing, which rejects its promise. The drivers
turn JavaScript values into query terms before anything is sent to the server;
a term built from `undefined` throws, and so does a query that the server fails. -/
namespace PersonnelBackend.Express
open Document Database Resumption

/-! ### Building query terms -/

mutual
/-- The value fits into `levels` levels of nesting and holds no infinity. -/
def within : Json → ℕ → Bool
  | _, 0 => false
  | .num value, _ + 1 => value.isFinite
  | .arr items, levels + 1 => withinItems items levels
  | .obj fields, levels + 1 => withinFields fields levels
  | .null, _ + 1 => true
  | .bool _, _ + 1 => true
  | .str _, _ + 1 => true
def withinItems : Items → ℕ → Bool
  | .nil, _ => true
  | .cons head rest, levels => within head levels && withinItems rest levels
def withinFields : Fields → ℕ → Bool
  | .nil, _ => true
  | .cons _ value rest, levels => within value levels && withinFields rest levels
end

/-- A driver is known by the nesting it allows; a flat object always fits. -/
structure Driver where
  nestingLevel : ℕ
  flat : 2 ≤ nestingLevel

/-- The driver that `require('rethinkdb')` loads, with its `nestingDepth=20`. -/
def official : Driver := ⟨20, by decide⟩

inductive JsError
  | undefinedField (name : String)
  | undefinedArgument
  | unencodable
  /-- The error of the server, thrown where the query is awaited. -/
  | server (e : WriteError)
  deriving DecidableEq

namespace Driver

def builds (driver : Driver) (v : Json) : Bool := within v driver.nestingLevel

/-- As `r.expr` on one argument; `none` is `undefined`. -/
def expr (driver : Driver) (v : Option Json) : Except JsError Json :=
  match v with
  | none => .error .undefinedArgument
  | some v => if driver.builds v then .ok v else .error .unencodable

/-- As `MakeObject` on an object literal, field by field. -/
def object (driver : Driver) : List (String × Option Json) → Except JsError Fields
  | [] => .ok .nil
  | (name, none) :: _ => .error (.undefinedField name)
  | (name, some v) :: rest =>
    if within v (driver.nestingLevel - 1) then
      match driver.object rest with
      | .ok fields => .ok (.cons name v fields)
      | .error e => .error e
    else .error .unencodable

/-- The field is there and fits into the object literal of a filter. -/
def queryable (driver : Driver) (body : Body) (field : String) : Bool :=
  (body.field field).any fun v => within v (driver.nestingLevel - 1)

/-- The field is there and fits into a term of its own. -/
def expressible (driver : Driver) (body : Body) (field : String) : Bool :=
  (body.field field).any driver.builds

end Driver

/-! ### Answers and outcomes -/

inductive Data
  | result (value : WriteResult)
  | rows (docs : Multiset Doc)
  deriving DecidableEq

/-- The object literals passed to `send`; absent fields are `none`. -/
structure Message where
  error : Option Bool := none
  message : Option String := none
  data : Option (String × Data) := none
  deriving DecidableEq

inductive Payload
  | rows (docs : Multiset Doc)
  | object (value : Message)
  deriving DecidableEq

structure Answer where
  status : ℕ
  payload : Payload
  deriving DecidableEq

/-- What a handler leaves behind: the answers it sent and, if its promise
rejected, the error. -/
structure Outcome where
  sent : List Answer
  rejected : Option JsError
  deriving DecidableEq

abbrev Process := Prog Call Reply Outcome

def answered (a : Answer) : Outcome := ⟨[a], none⟩

def rejected (e : JsError) : Outcome := ⟨[], some e⟩

/-- The status of the answer, if exactly one was sent. -/
def Outcome.status (o : Outcome) : Option ℕ :=
  match o.sent with
  | [a] => some a.status
  | _ => none

@[simp] lemma status_answered (a : Answer) : (answered a).status = some a.status := rfl

@[simp] lemma status_rejected (e : JsError) : (rejected e).status = none := rfl

/-! ### The handler monad -/

/-- A handler extends the list of answers already sent. -/
def Handler (α : Type) : Type := List Answer → Prog Call Reply (Except JsError α × List Answer)

instance : Monad Handler where
  pure value := fun sent => .pure (.ok value, sent)
  bind h f := fun sent => (h sent).bind fun out =>
    match out.1 with
    | .ok value => f value out.2
    | .error e => .pure (.error e, out.2)

def fetch (query : Query) : Handler (Multiset Doc) :=
  fun sent => .call (.read query) fun reply => .pure (reply.mapError .server, sent)

def execute (m : Mutation) : Handler WriteResult :=
  fun sent => .call (.write m) fun reply => .pure (reply.mapError .server, sent)

def connect : Handler Unit := fun sent => .call .connect fun _ => .pure (.ok (), sent)

def build {α : Type} (e : Except JsError α) : Handler α := fun sent => .pure (e, sent)

def send (status : ℕ) (payload : Payload) : Handler Unit :=
  fun sent => .pure (.ok (), sent ++ [⟨status, payload⟩])

def start (h : Handler Unit) : Process :=
  (h []).bind fun out => .pure ⟨out.2, match out.1 with
    | .ok _ => none
    | .error e => some e⟩

/-! ### Computing the process of a handler -/

lemma bind_assoc {α β γ : Type} (h : Handler α) (f : α → Handler β) (g : β → Handler γ) :
    (h >>= f) >>= g = h >>= fun value => f value >>= g := by
  funext sent
  refine (Prog.bind_assoc _ _ _).trans (congrArg (Prog.bind (h sent)) ?_)
  funext out
  cases out.1 <;> rfl

def resume {α : Type} (reply : Except WriteError α) (f : α → Process) : Process :=
  match reply with
  | .ok value => f value
  | .error e => .pure (rejected (.server e))

@[simp] lemma resume_ok {α : Type} (value : α) (f : α → Process) :
    resume (.ok value) f = f value := rfl

@[simp] lemma resume_error {α : Type} (e : WriteError) (f : α → Process) :
    resume (.error e) f = .pure (rejected (.server e)) := rfl

/-- How a handler that only has its answer to send ends with the reply of the server. -/
def conclude {α : Type} (reply : Except WriteError α) (f : α → Outcome) : Outcome :=
  match reply with
  | .ok value => f value
  | .error e => rejected (.server e)

@[simp] lemma conclude_ok {α : Type} (value : α) (f : α → Outcome) :
    conclude (.ok value) f = f value := rfl

lemma resume_eq_pure {α : Type} {f : α → Process} {g : α → Outcome}
    (h : ∀ value, f value = .pure (g value)) (reply : Except WriteError α) :
    resume reply f = .pure (conclude reply g) := by
  cases reply with
  | ok value => exact h value
  | error e => rfl

lemma start_fetch (query : Query) (f : Multiset Doc → Handler Unit) :
    start (fetch query >>= f) =
      .call (.read query) fun reply => resume reply fun rows => start (f rows) := by
  refine congrArg (Prog.call (Call.read query)) (funext fun reply => ?_)
  cases reply <;> rfl

lemma start_execute (m : Mutation) (f : WriteResult → Handler Unit) :
    start (execute m >>= f) =
      .call (.write m) fun reply => resume reply fun r => start (f r) := by
  refine congrArg (Prog.call (Call.write m)) (funext fun reply => ?_)
  cases reply <;> rfl

lemma start_build_ok {α : Type} (value : α) (f : α → Handler Unit) :
    start (build (.ok value) >>= f) = start (f value) := rfl

lemma start_ite (c : Prop) [Decidable c] (h h' : Handler Unit) :
    start (if c then h else h') = if c then start h else start h' := by
  split_ifs <;> rfl

/-- As `Array.prototype.includes` on values decoded from the database: scalars
and `undefined` by value, arrays and objects by identity and so never. -/
def includes (values : Multiset (Option Json)) (x : Option Json) : Bool :=
  match x with
  | none => decide (none ∈ values)
  | some v => v.isScalar && decide (some v ∈ values)

/-- A promise that nobody awaits; it has no `length`. -/
inductive Pending
  | pending

def Pending.length : Pending → Option ℕ := fun _ => none

/-- As JavaScript's `>` where the left side may be `undefined`. -/
def greater (n : Option ℕ) (m : ℕ) : Bool :=
  match n with
  | none => false
  | some n => decide (m < n)

/-! ### Facts about terms -/

lemma within_str (s : String) {levels : ℕ} (h : 1 ≤ levels) : within (.str s) levels = true := by
  obtain ⟨n, rfl⟩ := Nat.exists_eq_add_of_le' h
  rfl

lemma withinFields_get {fields : Fields} {levels : ℕ} (h : withinFields fields levels = true)
    {k : String} {v : Json} (hk : fields.get k = some v) : within v levels = true := by
  induction fields with
  | nil => simp at hk
  | cons name value rest ih =>
    simp only [withinFields, Bool.and_eq_true] at h
    rw [Fields.get_cons] at hk
    split_ifs at hk with hn
    · obtain rfl := Option.some.inj hk
      exact h.1
    · exact ih h.2 hk

lemma Driver.builds_str (driver : Driver) (s : String) : driver.builds (.str s) = true :=
  within_str s (by have := driver.flat; omega)

lemma Driver.expr_str (driver : Driver) (s : String) :
    driver.expr (some (.str s)) = .ok (.str s) := by
  simp [Driver.expr, Driver.builds_str]

lemma Driver.within_of_builds {driver : Driver} {d : Doc} (h : driver.builds (.obj d.fields) = true)
    {k : String} {v : Json} (hk : d.get k = some v) :
    within v (driver.nestingLevel - 1) = true := by
  obtain ⟨n, hn⟩ := Nat.exists_eq_add_of_le' (show 1 ≤ driver.nestingLevel by
    have := driver.flat; omega)
  rw [Driver.builds, hn] at h
  rw [hn]
  exact withinFields_get h hk

lemma Driver.object_str (driver : Driver) (name s : String) :
    driver.object [(name, some (.str s))] = .ok (.cons name (.str s) .nil) := by
  have h : within (.str s) (driver.nestingLevel - 1) = true :=
    within_str s (by have := driver.flat; omega)
  simp [Driver.object, h]

lemma Driver.object_active (driver : Driver) (name : String) (v : Option Json) :
    driver.object [(name, v), ("status", some (.str "Active"))] =
      match v with
      | none => .error (.undefinedField name)
      | some v =>
        if within v (driver.nestingLevel - 1) then
          .ok (.cons name v (.cons "status" (.str "Active") .nil))
        else .error .unencodable := by
  cases v with
  | none => rfl
  | some v => rw [Driver.object, Driver.object_str]

end PersonnelBackend.Express
