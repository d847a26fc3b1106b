import Mathlib.Algebra.BigOperators.Group.Finset.Basic
import Mathlib.Algebra.Order.BigOperators.Group.Finset
import PersonnelBackend.ConnectionClose

/-! A connection left to itself comes to rest, in whatever order the messages under
way arrive, the coroutines finish and the event loop makes its calls. Whoever then
still waits does so on a cursor whose result has ended, for a feed that has nothing
to tell, or behind a response the driver cannot take. -/
namespace PersonnelBackend.Connections
open Document Cursors QueryCache

/-! ### The work left in a session -/

def planBatches : Plan → ℕ
  | .stream st => st.batches.length
  | _ => 0

def entryBatches (plan : Plan) : Option Entry → ℕ
  | some ⟨.stream st, _, _, _⟩ => st.batches.length
  | some ⟨.start, _, _, _⟩ => planBatches plan
  | none => 0

/-- A partial response may make the driver ask again. -/
def Response.weight (r : Response) : ℕ := if r.t = .successPartial then 4 else 1

def isStart : Query → Bool
  | .start _ => true
  | _ => false

def weights : List Response → ℕ
  | [] => 0
  | r :: rest => Response.weight r + weights rest

@[simp] lemma weights_nil : weights [] = 0 := rfl

@[simp] lemma weights_singleton (r : Response) : weights [r] = Response.weight r := by
  simp [weights]

lemma weights_append (l l' : List Response) : weights (l ++ l') = weights l + weights l' := by
  induction l with
  | nil => simp
  | cons r rest ih => rw [List.cons_append, weights, weights, ih, Nat.add_assoc]

lemma weight_last {r : Response} (h : r.t ≠ .successPartial) : Response.weight r = 1 := if_neg h

@[simp] lemma weight_notInCache (token : ℕ) : Response.weight (notInCache token) = 1 := rfl

@[simp] lemma weight_duplicateToken (token : ℕ) : Response.weight (duplicateToken token) = 1 := rfl

def Client.waiting (q : Client) : ℕ := (q.cursor.map Cursor.waiting).getD 0

/-- Every message is closer to its end than the one before it, every batch pays for
one round, and every callback is called once. -/
def Session.work (plan : Plan) (s : Session) : ℕ :=
  3 * s.toServer.length + 2 * s.jobs.length + weights s.toClient +
    3 * (entryBatches plan s.entry + planBatches plan * s.toServer.countP isStart) +
      s.client.waiting

section session

variable {plan : Plan} {token : ℕ} {s : Session}

lemma weights_reply_le (query : Query) (response : Option Response) :
    weights (Session.reply query response) ≤ weights response.toList := by
  rw [Session.reply]
  split_ifs
  · exact Nat.zero_le _
  · exact le_rfl

variable (plan token)

lemma arrival_work (entry : Option Entry) (query : Query) :
    2 * (if (arrival plan token entry query).2.isSome then [] else [query]).length +
        weights (arrival plan token entry query).2.toList +
        3 * entryBatches plan (arrival plan token entry query).1 <
      3 + 3 * (entryBatches plan entry + planBatches plan * [query].countP isStart) := by
  cases query with
  | start noreply =>
    cases entry with
    | some e =>
      simp only [arrival, Option.isSome_some, if_true, Option.toList_some, weights_singleton,
        weight_duplicateToken, isStart, List.length_nil, List.countP_singleton]
      omega
    | none =>
      cases plan <;> simp [arrival, isStart, entryBatches, planBatches, Response.weight,
        errorResponse]
  | «continue» => cases entry <;> simp [arrival, isStart]
  | stop =>
    cases entry with
    | none => simp [arrival, isStart]
    | some e =>
      obtain ⟨state, noreply, pulsed, stopped⟩ := e
      cases state <;> simp [arrival, isStart, entryBatches]
  | noreplyWait => cases entry <;> simp [arrival, isStart]

lemma arrive_work {query : Query} {rest : List Query} (h : s.toServer = query :: rest) :
    (s.arrive plan token).work plan < s.work plan := by
  have ha := arrival_work plan token s.entry query
  have hr := weights_reply_le query (arrival plan token s.entry query).2
  have hc : (query :: rest).countP isStart = [query].countP isStart + rest.countP isStart := by
    rw [← List.countP_append]
    rfl
  rw [arrive_of_cons h]
  simp only [Session.work, h, hc, List.length_cons, List.length_append, weights_append, Nat.mul_add]
  simp only [Nat.mul_add] at ha
  omega

lemma serve_work {noreply : Bool} {st : Stream} {r : Response} {next : Option Stream}
    (h : serve noreply st = some (r, next)) :
    Response.weight r + 3 * (next.map fun st => st.batches.length).getD 0 ≤
      1 + 3 * st.batches.length := by
  -- a batch pays for its response
  have htail : st.tail.batches.length = st.batches.length - 1 := List.length_tail
  rw [serve] at h
  split at h
  · obtain ⟨rfl, rfl⟩ := Prod.mk.inj (Option.some.inj h)
    simp [Response.weight, errorResponse]
  · cases h
  · next hfailure hsilence =>
    dsimp only at h
    split_ifs at h with h1 h2
    · obtain ⟨rfl, rfl⟩ := Prod.mk.inj (Option.some.inj h)
      simp [Response.weight]
    · obtain ⟨rfl, rfl⟩ := Prod.mk.inj (Option.some.inj h)
      simp only [Response.weight, Option.map_some, Option.getD_some, htail, reduceCtorEq, if_false]
      omega
    · obtain ⟨rfl, rfl⟩ := Prod.mk.inj (Option.some.inj h)
      have hne : st.batches ≠ [] := by
        intro hb
        cases he : st.ending with
        | exhausted => simp [Stream.isExhausted, Stream.tail, hb, he] at h1
        | failure m => exact hfailure m hb he
        | silence => exact hsilence hb he
      have hpos := List.length_pos_of_ne_nil hne
      simp only [Response.weight, Option.map_some, Option.getD_some, htail, if_true]
      omega

lemma fill_work {e : Entry} {r : Response} {next : Option Stream}
    (h : fill plan e = some (r, next)) :
    Response.weight r + 3 * (next.map fun st => st.batches.length).getD 0 ≤
      1 + 3 * entryBatches plan (some e) := by
  obtain ⟨state, noreply, pulsed, stopped⟩ := e
  cases state with
  | stream st => exact serve_work h
  | start =>
    cases plan with
    | stream st => exact serve_work h
    | _ =>
      obtain ⟨rfl, rfl⟩ := Prod.mk.inj (Option.some.inj h)
      simp [Response.weight, errorResponse]

lemma release_work (e : Entry) (next : Option Stream) :
    entryBatches plan (release e next) ≤ (next.map fun st => st.batches.length).getD 0 := by
  cases next with
  | none => exact le_rfl
  | some st =>
    rw [release]
    split_ifs
    · exact Nat.zero_le _
    · exact le_rfl

lemma weight_interruption (e : Entry) : Response.weight (interruption e) = 1 :=
  weight_last (interruption_cases e).2.2

lemma filled_work {interrupted : Bool} {e : Entry} {entry : Option Entry} {r : Response}
    (h : (if interrupted && e.pulsed then some (none, interruption e)
      else (fill plan e).map fun a => (release e a.2, a.1)) = some (entry, r)) :
    Response.weight r + 3 * entryBatches plan entry ≤ 1 + 3 * entryBatches plan (some e) := by
  split_ifs at h
  · obtain ⟨rfl, rfl⟩ := Prod.mk.inj (Option.some.inj h)
    rw [weight_interruption]
    exact Nat.le_add_right _ _
  · obtain ⟨a, ha, hr⟩ := Option.map_eq_some_iff.mp h
    obtain ⟨rfl, rfl⟩ := Prod.mk.inj hr
    have hfill := fill_work plan ha
    have hrel := release_work plan e a.2
    omega

lemma completion_work {interrupted : Bool} {entry entry' : Option Entry} {query : Query}
    {r : Response} (h : completion plan token interrupted entry query = some (entry', r)) :
    Response.weight r + 3 * entryBatches plan entry' ≤ 1 + 3 * entryBatches plan entry := by
  cases query with
  | stop =>
    obtain ⟨rfl, rfl⟩ := Prod.mk.inj (Option.some.inj h)
    cases entry with
    | none => exact le_rfl
    | some e =>
      rw [Option.filter]
      split_ifs
      · exact le_rfl
      · exact Nat.le_add_right _ _
  | noreplyWait =>
    obtain ⟨rfl, rfl⟩ := Prod.mk.inj (Option.some.inj h)
    exact le_rfl
  | start noreply =>
    cases entry with
    | none =>
      obtain ⟨rfl, rfl⟩ := Prod.mk.inj (Option.some.inj h)
      exact le_rfl
    | some e => exact filled_work plan h
  | «continue» =>
    cases entry with
    | none =>
      obtain ⟨rfl, rfl⟩ := Prod.mk.inj (Option.some.inj h)
      exact le_rfl
    | some e => exact filled_work plan h

lemma finish_work {query : Query} {rest : List Query} {interrupted : Bool}
    (h : s.jobs = query :: rest) :
    s.finish plan token interrupted = s ∨
    (s.finish plan token interrupted).work plan < s.work plan := by
  cases hc : completion plan token interrupted s.entry query with
  | none => exact .inl (finish_of_none h hc)
  | some a =>
    obtain ⟨entry, r⟩ := a
    have hw := completion_work plan token hc
    have hr := weights_reply_le query (some r)
    rw [Option.toList_some, weights_singleton] at hr
    rw [finish_of_some h hc]
    refine .inr ?_
    simp only [Session.work, h, List.length_cons, weights_append, Nat.mul_add]
    omega

variable {plan token}

lemma OpenCursor.sent_le {c : Cursor} {r : Response} (h : OpenCursor c) (hw : r.WellFormed)
    (hout : c.outstandingRequests = 1) (isOpen connOpen : Bool) :
    (c.addResponse isOpen connOpen r).sent.length ≤ if r.t = .successPartial then 1 else 0 := by
  -- a response makes the driver send at most one query, and only if it is partial
  obtain ⟨-, asked, -, hsent, hlast⟩ := h.addResponse hw hout isOpen connOpen
  rw [hsent]
  cases asked with
  | false => exact Nat.zero_le _
  | true =>
    rw [if_pos (hlast rfl)]
    exact le_rfl

lemma first_sent_le (r : Response) (isOpen connOpen : Bool) :
    ((⟨some .callback, none, []⟩ : Client).processResponse isOpen connOpen r).sent.length ≤
      if r.t = .successPartial then 1 else 0 := by
  simp only [Client.processResponse, Client.sent]
  by_cases hr : r.t.isRows = true
  · have hw : r.WellFormed := fun h => absurd (hr.symm.trans h) (by simp)
    simpa [hr] using new_openCursor.sent_le hw rfl isOpen connOpen
  · simp [hr]

lemma Shutting.sent_addResponse {c : Cursor} {r : Response} (h : Shutting plan s c)
    (hr : r ∈ s.toClient) (isOpen connOpen : Bool) :
    (c.addResponse isOpen connOpen r).sent = [] := by
  by_cases hp : r.t = .successPartial
  · obtain ⟨-, c', hrec, hc' | ⟨hc', -⟩⟩ :=
      Cursor.addResponse_closing_partial isOpen connOpen h.valid (h.wellFormed r hr) h.closing hp
    · rw [hc', hrec.sent, h.sent]
    · rw [hc']
      exact hrec.sent.trans h.sent
  · exact (h.cleared isOpen connOpen hp).sent

lemma Inv.sent_le {r : Response} {rest : List Response} (h : Inv plan s)
    (ht : s.toClient = r :: rest) (isOpen connOpen : Bool) :
    (s.client.processResponse isOpen connOpen r).sent.length ≤
      if r.t = .successPartial then 1 else 0 := by
  cases h with
  | live ho h =>
    cases h with
    | noreply h => simp [h.toClient] at ht
    | awaiting h =>
      rw [h.client]
      exact first_sent_le r isOpen connOpen
    | asking h1 h2 =>
      rw [h1]
      exact first_sent_le r isOpen connOpen
    | answered _ _ h => simp [h.toClient] at ht
    | ended c h => simp [h.still.toClient] at ht
    | reading c rest h =>
      rw [h.client]
      rcases h.flight with ⟨-, -, hst, -⟩ | ⟨-, hout, hf⟩
      · simp [hst.toClient] at ht
      · cases hf with
        | contAsked st h1 h2 h3 h4 => simp [h4] at ht
        | contServed st h1 h2 h3 h4 => simp [h4] at ht
        | answered _ r' next _ h1 h2 h3 h4 =>
          obtain rfl : r' = r := by simpa using (List.cons.inj (h3.symm.trans ht)).1
          exact h.cursor.sent_le h4 hout isOpen connOpen
  | shutting c ho h =>
    have hnil := h.sent_addResponse (r := r) (by simp [ht]) isOpen connOpen
    rw [h.client]
    simp [Client.processResponse, Client.sent, hnil]
  | finished h =>
    have hq : s.client.processResponse isOpen connOpen r = s.client := by
      rw [Client.processResponse, h.outstanding]
    rw [hq, Client.sent]
    cases hc : s.client.cursor with
    | none => exact Nat.zero_le _
    | some c => simp [(h.cursor c hc).sent]

lemma waiting_processResponse_le (q : Client) (isOpen connOpen : Bool) (r : Response) :
    (q.processResponse isOpen connOpen r).written.waiting ≤ q.waiting := by
  obtain ⟨outstanding, cursor, results⟩ := q
  have written : ∀ q : Client, q.written.waiting = q.waiting := fun q => by
    simp only [Client.waiting, Client.written, Client.onCursor, Option.map_map]
    rfl
  rw [written]
  cases outstanding with
  | none => exact le_rfl
  | some o =>
    cases o with
    | cursor =>
      cases cursor with
      | none => exact le_rfl
      | some c => exact (Cursor.addResponse_serves c isOpen connOpen r).waiting_le
    | callback =>
      simp only [Client.processResponse, Client.waiting]
      split_ifs
      · exact (Cursor.addResponse_serves _ isOpen connOpen r).waiting_le.trans (Nat.zero_le _)
      · exact le_rfl

lemma Inv.deliver_work {r : Response} {rest : List Response} (h : Inv plan s) (ho : s.opened = true)
    (hok : s.client.accepts r = true) (ht : s.toClient = r :: rest) :
    s.deliver.work plan < s.work plan := by
  have hle := h.sent_le ht (!s.closing) true
  have hwait := waiting_processResponse_le s.client (!s.closing) true r
  have hcount : (s.client.processResponse (!s.closing) true r).sent.countP isStart = 0 := by
    rw [List.countP_eq_zero]
    intro q hq
    rcases processResponse_sent hq with hq | hq
    · simp [h.client_sent] at hq
    · rcases hq with rfl | rfl <;> simp [isStart]
  rw [deliver_of_cons ho hok ht]
  have hw : weights (r :: rest) = Response.weight r + weights rest := rfl
  have hr : Response.weight r = if r.t = .successPartial then 4 else 1 := rfl
  simp only [Session.work, Session.onClient, ht, hw, List.length_append, List.countP_append, hcount,
    Nat.add_zero]
  split_ifs at hle hr <;> omega

lemma Inv.immediate_work (h : Inv plan s) :
    s.onClient (Client.onCursor Cursor.immediate) = s ∨
      (s.onClient (Client.onCursor Cursor.immediate)).work plan < s.work plan := by
  have hsent := h.client_sent
  obtain ⟨opened, closing, ⟨outstanding, cursor, results⟩, toServer, entry, jobs, toClient⟩ := s
  cases cursor with
  | none => exact .inl (onClient_of_no_cursor rfl _)
  | some c =>
    have hc : c.sent = [] := hsent
    rw [onClient_immediate rfl hc]
    by_cases hi : c.immediates = []
    · exact .inl (by rw [Cursor.immediate_of_nil hi])
    · have hlt := Cursor.waiting_immediate hi
      refine .inr ?_
      simp only [Session.work, Client.waiting, Option.map_some, Option.getD_some]
      omega

end session

/-! ### The whole connection -/

namespace System

variable (plan : ℕ → Plan)

def work (s : System) : ℕ := ∑ t ∈ Finset.range s.nextToken, (s.view t).work (plan t)

lemma work_lt {s s' : System} {t : ℕ} (hn : s'.nextToken = s.nextToken) (ht : t < s.nextToken)
    (hlt : (s'.view t).work (plan t) < (s.view t).work (plan t))
    (hne : ∀ u, t ≠ u → s'.view u = s.view u) :
    s'.work plan < s.work plan := by
  rw [work, work, hn]
  refine Finset.sum_lt_sum (fun u _ => ?_) ⟨t, Finset.mem_range.mpr ht, hlt⟩
  by_cases hu : t = u
  · exact hu ▸ hlt.le
  · rw [hne u hu]

lemma onClient_eq_self {s : System} {t : ℕ} {f : Client → Client}
    (h : (s.view t).onClient f = s.view t) : s.onClient t f = s := by
  have hclient : (f (s.client t)).written = s.client t := congrArg Session.client h
  have hsent : (f (s.client t)).sent = [] := by
    have hserver := congrArg Session.toServer h
    simpa [Session.onClient, view] using hserver
  simp [onClient, hclient, hsent]

/-- What the two ends do without the application. -/
inductive Internal : Action → Prop
  | arrive : Internal .arrive
  | deliver : Internal .deliver
  | finish (token : ℕ) (interrupted : Bool) : Internal (.finish token interrupted)
  | immediate (token : ℕ) : Internal (.immediate token)

/-- Internal actions one after another, each of which changes something. -/
def Moves : System → List Action → Prop
  | _, [] => True
  | s, a :: more => Internal a ∧ s.step plan a ≠ s ∧ Moves (s.step plan a) more

/-- Nothing happens any more without the application. -/
def Resting (s : System) : Prop := ∀ a, Internal a → s.step plan a = s

/-- The server waits for changes to tell the reader of a feed. -/
def Silent (s : System) (token : ℕ) : Prop :=
  ∃ st, s.queries token = some (reading st) ∧ st.batches = [] ∧ st.ending = .silence

/-- The driver throws on the response that has to be taken next. -/
def Blocked (s : System) : Prop :=
  ∃ token response rest, s.toClient = (token, response) :: rest ∧
    (s.client token).accepts response = false

lemma internal_isOpen {s : System} {a : Action} (h : Internal a) :
    (s.step plan a).isOpen = s.isOpen := by
  cases h with
  | arrive =>
    rw [step, arrive]
    split <;> rfl
  | deliver =>
    rw [step, deliver]
    split
    · rfl
    · split_ifs <;> rfl
  | finish t interrupted =>
    rw [step, finish]
    split
    · rfl
    · split_ifs
      · rfl
      · split <;> rfl
  | immediate t => rfl

variable (actions : List Action)

section internal

variable {s : System} (hs : initial.exec plan actions = s)
include hs

lemma begun_of_ne {t : ℕ} (h : ∀ o c, s.view t ≠ .unborn o c) :
    t < s.nextToken ∧ Inv (plan t) (s.view t) := by
  subst hs
  rcases view_cases plan actions t with ⟨-, o, c, hv⟩ | ⟨-, hlt, hinv⟩
  · exact absurd hv (h o c)
  · exact ⟨hlt, hinv⟩

lemma arrive_lt (hne : s.arrive plan ≠ s) : (s.arrive plan).work plan < s.work plan := by
  cases hS : s.toServer with
  | nil => exact absurd (by rw [arrive, hS]) hne
  | cons message rest =>
    obtain ⟨t, q⟩ := message
    have hv : (s.view t).toServer = q :: ofToken t rest := by rw [view, hS, ofToken_cons_same]
    obtain ⟨hlt, -⟩ := begun_of_ne plan actions hs (t := t) fun o c h => by
      simp [h, Session.unborn] at hv
    refine work_lt plan (nextToken_quiet plan s (a := .arrive) trivial) hlt ?_ fun u hu =>
      view_arrive_ne plan s hS hu
    rw [view_arrive_same plan s hS]
    exact arrive_work (plan t) t hv

lemma deliver_lt (hne : s.deliver ≠ s) : s.deliver.work plan < s.work plan := by
  cases hC : s.toClient with
  | nil => exact absurd (by rw [deliver, hC]) hne
  | cons message rest =>
    obtain ⟨t, r⟩ := message
    have hv : (s.view t).toClient = r :: ofToken t rest := by rw [view, hC, ofToken_cons_same]
    obtain ⟨hlt, hinv⟩ := begun_of_ne plan actions hs (t := t) fun o c h => by
      simp [h, Session.unborn] at hv
    have hcond : (s.opened && (s.client t).accepts r) = true := by
      by_contra hno
      exact hne (by simp [deliver, hC, hno])
    obtain ⟨ho, hok⟩ := Bool.and_eq_true_iff.mp hcond
    refine work_lt plan (nextToken_quiet plan s (a := .deliver) trivial) hlt ?_ fun u hu =>
      view_deliver_ne s hu hC
    rw [view_deliver_same s hC]
    exact hinv.deliver_work ho hok hv

lemma finish_lt {t : ℕ} {interrupted : Bool} (hne : s.finish plan t interrupted ≠ s) :
    (s.finish plan t interrupted).work plan < s.work plan := by
  rcases find_job t s.jobs with ⟨h, -⟩ | ⟨query, hfind, ho⟩
  · exact absurd (by rw [finish, h]) hne
  · have hv : (s.view t).jobs = query :: ofToken t (dropJob t s.jobs) := ho
    obtain ⟨hlt, -⟩ := begun_of_ne plan actions hs (t := t) fun o c h => by
      simp [h, Session.unborn] at hv
    have hwait : ¬ (query = .noreplyWait ∧ heldBefore s.jobs t = true) := fun hw =>
      hne (by simp [finish, hfind, hw])
    have hcompletes : (s.view t).finish (plan t) t interrupted ≠ s.view t := by
      intro hsame
      refine hne ?_
      rw [finish, hfind]
      dsimp only
      rw [if_neg hwait]
      cases hc : completion (plan t) t interrupted (s.queries t) query with
      | none => rfl
      | some a =>
        have hjobs := congrArg Session.jobs (finish_of_some hv hc)
        rw [hsame, hv] at hjobs
        exact absurd (congrArg List.length hjobs) (by simp)
    refine work_lt plan (nextToken_quiet plan s (a := .finish t interrupted) trivial) hlt ?_
      fun u hu => view_finish_ne plan s hu interrupted
    rw [view_finish_same plan s hfind hwait]
    exact (finish_work (plan t) t hv).resolve_left hcompletes

lemma immediate_lt {t : ℕ} (hne : s.onClient t (Client.onCursor Cursor.immediate) ≠ s) :
    (s.onClient t (Client.onCursor Cursor.immediate)).work plan < s.work plan := by
  have hchanges : (s.view t).onClient (Client.onCursor Cursor.immediate) ≠ s.view t :=
    fun hsame => hne (onClient_eq_self hsame)
  obtain ⟨hlt, hinv⟩ := begun_of_ne plan actions hs fun o c h =>
    hchanges (by rw [h]; exact onClient_of_no_cursor rfl _)
  refine work_lt plan rfl hlt ?_ fun u hu => view_onClient_ne s hu _
  rw [view_onClient_same]
  exact hinv.immediate_work.resolve_left hchanges

end internal

lemma internal_work {a : Action} (ha : Internal a)
    (hne : (initial.exec plan actions).step plan a ≠ initial.exec plan actions) :
    ((initial.exec plan actions).step plan a).work plan <
      (initial.exec plan actions).work plan := by
  cases ha with
  | arrive => exact arrive_lt plan actions rfl hne
  | deliver => exact deliver_lt plan actions rfl hne
  | finish t interrupted => exact finish_lt plan actions rfl hne
  | immediate t => exact immediate_lt plan actions rfl hne

lemma internal_moves {more : List Action} (h : Moves plan (initial.exec plan actions) more) :
    more.length + (initial.exec plan (actions ++ more)).work plan ≤
      (initial.exec plan actions).work plan ∧
      (initial.exec plan (actions ++ more)).isOpen = (initial.exec plan actions).isOpen := by
  induction more generalizing actions with
  | nil => simp
  | cons a more ih =>
    obtain ⟨ha, hne, hrest⟩ := h
    have hlt := internal_work plan actions ha hne
    rw [← exec_concat] at hrest hlt
    obtain ⟨h1, h2⟩ := ih (actions ++ [a]) hrest
    rw [List.append_assoc, List.singleton_append] at h1 h2
    refine ⟨?_, ?_⟩
    · rw [List.length_cons]
      omega
    · rw [h2, exec_concat, internal_isOpen plan ha]

lemma exists_rest (n : ℕ) (hn : (initial.exec plan actions).work plan ≤ n) :
    ∃ more, Moves plan (initial.exec plan actions) more ∧
      Resting plan (initial.exec plan (actions ++ more)) := by
  induction n generalizing actions with
  | zero =>
    refine ⟨[], trivial, fun a ha => ?_⟩
    rw [List.append_nil]
    by_contra hne
    have hlt := internal_work plan actions ha hne
    omega
  | succ n ih =>
    by_cases hrest : Resting plan (initial.exec plan actions)
    · exact ⟨[], trivial, by rwa [List.append_nil]⟩
    · obtain ⟨a, ha, hne⟩ : ∃ a, Internal a ∧
          (initial.exec plan actions).step plan a ≠ initial.exec plan actions := by
        simpa [Resting] using hrest
      have hlt := internal_work plan actions ha hne
      rw [← exec_concat] at hlt
      obtain ⟨more, hm, hr⟩ := ih (actions ++ [a]) (by omega)
      rw [exec_concat] at hm
      exact ⟨a :: more, ⟨ha, hne, hm⟩, by simpa using hr⟩

variable {plan}

lemma Resting.toServer {s : System} (h : Resting plan s) : s.toServer = [] := by
  cases hS : s.toServer with
  | nil => rfl
  | cons message rest =>
    have hstep := congrArg System.toServer (h .arrive .arrive)
    rw [step, arrive, hS] at hstep
    exact absurd (congrArg List.length hstep) (by simp)

lemma Resting.blocked {s : System} (h : Resting plan s) (ho : s.opened = true)
    (hC : s.toClient ≠ []) :
    Blocked s := by
  obtain ⟨⟨t, r⟩, rest, hC⟩ := List.exists_cons_of_ne_nil hC
  refine ⟨t, r, rest, hC, ?_⟩
  by_contra hok
  have hstep := congrArg System.toClient (h .deliver .deliver)
  rw [step, deliver, hC] at hstep
  simp only [ho, Bool.not_eq_false _ ▸ hok, Bool.and_self, if_true, onClient] at hstep
  exact absurd (congrArg List.length hstep) (by simp)

lemma Resting.silent {s : System} {t : ℕ} {st : Stream} (h : Resting plan s)
    (he : s.queries t = some (reading st)) (hj : (s.view t).jobs = [.continue]) : Silent s t := by
  have hnone : serve false st = none := by
    rcases find_job t s.jobs with ⟨-, hno⟩ | ⟨query, hfind, hjobs⟩
    · exact absurd (hj.symm.trans hno) (by simp)
    · obtain ⟨rfl, -⟩ : query = .continue ∧ _ := by simpa using (hj.symm.trans hjobs).symm
      have hfinish := congrArg (fun s => s.view t) (h (.finish t false) (.finish t false))
      rw [step, view_finish_same plan s hfind (by simp)] at hfinish
      by_contra hsome
      obtain ⟨a, hserve⟩ := Option.ne_none_iff_exists'.mp hsome
      have hc : completion (plan t) t false (s.view t).entry .continue =
          some (a.2.map reading, a.1) := by
        rw [show (s.view t).entry = some (reading st) from he,
          completion_unpulsed rfl false (.inl rfl),
          show fill (plan t) (reading st) = serve false st from rfl, hserve]
        rfl
      rw [finish_of_some hj hc] at hfinish
      exact absurd ((congrArg Session.jobs hfinish).trans hj) (by simp)
  exact ⟨st, he, serve_silent hnone⟩

lemma Resting.waiting {s : System} {t : ℕ} {c : Cursor} {rest : List Reply} (h : Resting plan s)
    (hr : Reading (plan t) (s.view t) c rest) (ho : s.opened = true) (hcl : s.closing = false)
    (hq : c.cbQueue ≠ []) : Silent s t ∨ Blocked s := by
  have hcont : c.contFlag = true := (hr.waiting hq).2.resolve_right (by simp [view, hcl])
  rcases hr.flight with ⟨hno, -⟩ | ⟨-, -, hf⟩
  · exact absurd (hno.symm.trans hcont) (by simp)
  · cases hf with
    | contAsked st h1 h2 h3 h4 => simp [view, h.toServer] at h1
    | contServed st h1 h2 h3 h4 => exact .inl (h.silent h2 h3)
    | answered _ r next _ h1 h2 h3 =>
      refine .inr (h.blocked ho fun hnil => ?_)
      simp [view, hnil] at h3

end System

/-- Left to itself, an open connection comes to rest, whatever the schedule: no more
than `work` actions can change anything. At rest a callback waits only on a cursor
that has been closed or whose result has ended, for a feed that has nothing to tell,
or behind a response that the driver throws on. -/
theorem comes_to_rest (plan : ℕ → Plan) (actions : List Action)
    (ho : (System.initial.exec plan actions).isOpen = true) :
    (∀ more, System.Moves plan (System.initial.exec plan actions) more →
      more.length ≤ (System.initial.exec plan actions).work plan) ∧
    (∃ more, System.Moves plan (System.initial.exec plan actions) more ∧
      System.Resting plan (System.initial.exec plan (actions ++ more))) ∧
    ∀ more, System.Moves plan (System.initial.exec plan actions) more →
      System.Resting plan (System.initial.exec plan (actions ++ more)) →
      ∀ token c, ((System.initial.exec plan (actions ++ more)).client token).cursor = some c →
        c.closePromise = none → c.cbQueue ≠ [] →
        c.endFlag = true ∨ (System.initial.exec plan (actions ++ more)).Silent token ∨
          (System.initial.exec plan (actions ++ more)).Blocked := by
  refine ⟨fun more hm => ?_, System.exists_rest plan actions _ le_rfl,
    fun more hm hr token c hc hp hq => ?_⟩
  · have hle := (System.internal_moves plan actions hm).1
    omega
  · have hopen := (System.internal_moves plan actions hm).2.trans ho
    obtain ⟨h1, h2⟩ : (System.initial.exec plan (actions ++ more)).opened = true ∧
        (System.initial.exec plan (actions ++ more)).closing = false := by
          simpa [System.isOpen] using hopen
    rcases (view_inv plan (actions ++ more) token hc).open_cursor h1 hc hp with ⟨rest, h⟩ | h
    · exact .inr (hr.waiting h h1 h2 hq)
    · exact .inl h.endFlag

def quietFeed : Plan :=
  .stream ⟨.stream, false, [[.str "ann"]], .silence, fun h => by cases h⟩

theorem comes_to_rest_quietFeed : ∃ more,
    more.length ≤ (System.initial.exec (fun _ => quietFeed) twoAsk).work (fun _ => quietFeed) ∧
    System.Resting (fun _ => quietFeed) (System.initial.exec (fun _ => quietFeed)
      (twoAsk ++ more)) ∧
    ∀ c, ((System.initial.exec (fun _ => quietFeed) (twoAsk ++ more)).client 1).cursor = some c →
      c.closePromise = none → c.cbQueue ≠ [] →
      c.endFlag = true ∨ (System.initial.exec (fun _ => quietFeed) (twoAsk ++ more)).Silent 1 ∨
        (System.initial.exec (fun _ => quietFeed) (twoAsk ++ more)).Blocked :=
  have ⟨hle, ⟨more, hm, hr⟩, hwaits⟩ := comes_to_rest (fun _ => quietFeed) twoAsk rfl
  ⟨more, hle more hm, hr, hwaits more hm hr 1⟩

end PersonnelBackend.Connections
