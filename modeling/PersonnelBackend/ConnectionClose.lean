import Mathlib.Data.List.Induction
import PersonnelBackend.SessionRuns

/-! Closing a connection. `close` sends a `NOREPLY_WAIT` and shuts the socket when
that is answered; the server answers it only when every query sent before it that
wants no reply is done with. -/
namespace PersonnelBackend.Connections
open Document Cursors QueryCache

/-! ### What cursors send -/

def FollowUp (q : Query) : Prop := q = .continue ∨ q = .stop

namespace Cursor

lemma call_sent (c : Cursor) (reply : Reply) : (c.call reply).sent = c.sent := by
  rw [Cursor.call]
  split <;> rfl

lemma handleRow_sent (c : Cursor) (response : Response) (later : List Response) :
    (c.handleRow response later).sent = c.sent := by
  rw [Cursor.handleRow]
  split_ifs <;> exact call_sent _ _

lemma deliver_sent (c : Cursor) (response : Response) (later : List Response) :
    (c.deliver response later).sent = c.sent := by
  rw [Cursor.deliver]
  split_ifs
  · exact handleRow_sent c response later
  · exact call_sent _ _

lemma promptCont_sent {c : Cursor} {isOpen : Bool} {q : Query}
    (h : q ∈ (c.promptCont isOpen).sent) :
    q ∈ c.sent ∨ FollowUp q := by
  rw [Cursor.promptCont] at h
  split_ifs at h
  · exact (List.mem_append.mp h).imp id fun h => .inl (List.mem_singleton.mp h)
  · exact .inl h

lemma promptLoop_sent {isOpen : Bool} {q : Query} (queue : List ℕ) {c : Cursor}
    (h : q ∈ (Cursor.promptLoop isOpen queue c).sent) : q ∈ c.sent ∨ FollowUp q := by
  induction queue generalizing c with
  | nil => exact .inl h
  | cons cb rest ih =>
    rw [Cursor.promptLoop] at h
    split at h
    · split_ifs at h
      · exact .inl (call_sent c _ ▸ h)
      · exact promptCont_sent h
    · split_ifs at h
      · exact .inl (call_sent c _ ▸ h)
      · exact promptCont_sent h
      · exact .inl h
      · rcases ih h with h | h
        · rw [deliver_sent] at h
          exact promptCont_sent h
        · exact .inr h
      · rcases ih h with h | h
        · rw [deliver_sent] at h
          exact .inl h
        · exact .inr h

lemma promptNext_sent {c : Cursor} {isOpen : Bool} {q : Query}
    (h : q ∈ (c.promptNext isOpen).sent) :
    q ∈ c.sent ∨ FollowUp q := by
  rw [Cursor.promptNext] at h
  refine (promptLoop_sent _ h).imp (fun h => ?_) id
  split_ifs at h
  · rwa [call_sent] at h
  · exact h

lemma next_sent {c : Cursor} {isOpen : Bool} {cb : ℕ} {q : Query}
    (h : q ∈ (c.next isOpen cb).sent) :
    q ∈ c.sent ∨ FollowUp q := by
  exact promptNext_sent (c := { c with cbQueue := c.cbQueue ++ [cb] }) h

lemma close_sent {c : Cursor} {isOpen : Bool} {q : Query} (h : q ∈ (c.close isOpen).sent) :
    q ∈ c.sent ∨ FollowUp q := by
  rw [Cursor.close] at h
  split at h
  · exact .inl h
  · exact .inl h
  · split_ifs at h
    · exact .inl h
    · exact (List.mem_append.mp h).imp id fun h => .inr (List.mem_singleton.mp h)
    · exact .inl h

lemma received_sent (c : Cursor) (response : Response) : (c.received response).sent = c.sent := by
  change ((c.push response).finish response).sent = c.sent
  by_cases ht : response.t = .successPartial
  · rw [Cursor.finish, if_pos ht]
    rfl
  · cases hcb : (c.push response).closeCb with
    | false =>
      rw [Cursor.finish_of_open ht hcb]
      rfl
    | true =>
      rw [Cursor.finish_of_closing ht hcb]
      rfl

lemma addResponse_sent {c : Cursor} {isOpen connOpen : Bool} {response : Response} {q : Query}
    (h : q ∈ (c.addResponse isOpen connOpen response).sent) : q ∈ c.sent ∨ FollowUp q := by
  rw [Cursor.addResponse] at h
  split_ifs at h
  · exact received_sent c response ▸ close_sent h
  · exact received_sent c response ▸ promptNext_sent h

end Cursor

lemma onCursor_sent {q : Client} {f : Cursor → Cursor} {x : Query}
    (hf : ∀ c, q.cursor = some c → x ∈ (f c).sent → x ∈ c.sent ∨ FollowUp x)
    (h : x ∈ (q.onCursor f).sent) : x ∈ q.sent ∨ FollowUp x := by
  obtain ⟨outstanding, cursor, results⟩ := q
  cases cursor with
  | none => cases h
  | some c => exact hf c rfl h

lemma processResponse_sent {q : Client} {isOpen connOpen : Bool} {response : Response} {x : Query}
    (h : x ∈ (q.processResponse isOpen connOpen response).sent) : x ∈ q.sent ∨ FollowUp x := by
  obtain ⟨outstanding, cursor, results⟩ := q
  cases outstanding with
  | none => exact .inl h
  | some o =>
    cases o with
    | cursor =>
      cases cursor with
      | none => cases h
      | some c => exact Cursor.addResponse_sent h
    | callback =>
      simp only [Client.processResponse, Client.sent] at h
      split_ifs at h
      · rcases Cursor.addResponse_sent h with h | h
        · simp [Cursor.new] at h
        · exact .inr h
      · exact .inl h

/-! ### The order of the queries that want no reply -/

/-- The queries whose number the server keeps until they are done with. -/
def held (q : Query) : Bool := q = .start true || q = .noreplyWait

lemma FollowUp.not_held {q : Query} (h : FollowUp q) : held q = false := by
  rcases h with rfl | rfl <;> rfl

namespace System

def heldQueries (s : System) : List (ℕ × Query) := (s.jobs ++ s.toServer).filter fun m => held m.2

/-- Held queries stand in the order of their tokens; the `NOREPLY_WAIT` of `close`
is among them or before all of them. -/
structure Ordered (s : System) : Prop where
  sorted : s.heldQueries.Pairwise fun a b => a.1 < b.1
  below : ∀ x ∈ s.heldQueries, x.1 < s.nextToken
  called : ∀ w, s.closeCall = some (some w) → w < s.nextToken
  waiter : s.opened = true → ∀ w, s.closeCall = some (some w) →
    (w, .noreplyWait) ∈ s.heldQueries ∨ ∀ x ∈ s.heldQueries, w < x.1

lemma Ordered.of_eq {s s' : System} (h : Ordered s) (hh : s'.heldQueries = s.heldQueries)
    (hn : s'.nextToken = s.nextToken) (hc : s'.closeCall = s.closeCall)
    (ho : s'.opened = true → s.opened = true) : Ordered s' :=
  ⟨hh ▸ h.sorted, hh ▸ hn ▸ h.below, hc ▸ hn ▸ h.called, fun hopen => hh ▸ hc ▸ h.waiter (ho hopen)⟩

lemma Ordered.of_sublist {s s' : System} (h : Ordered s) (hh : s'.heldQueries.Sublist s.heldQueries)
    (hn : s'.nextToken = s.nextToken) (hc : s'.closeCall = s.closeCall)
    (ho : s'.opened = true → s.opened = true)
    (hw : s'.opened = true → ∀ w, s'.closeCall = some (some w) → (w, .noreplyWait) ∈ s.heldQueries →
      (w, .noreplyWait) ∈ s'.heldQueries ∨ ∀ x ∈ s'.heldQueries, w < x.1) : Ordered s' := by
  refine ⟨h.sorted.sublist hh, fun x hx => hn ▸ h.below x (hh.subset hx), hc ▸ hn ▸ h.called,
    fun hopen w hcall => ?_⟩
  rcases h.waiter (ho hopen) w (hc ▸ hcall) with hm | hm
  · exact hw hopen w hcall hm
  · exact .inr fun x hx => hm x (hh.subset hx)

lemma Ordered.removed {s s' : System} {front back : List (ℕ × Query)} {m : ℕ × Query}
    (h : Ordered s) (hold : s.heldQueries = front ++ ([m].filter (fun m => held m.2) ++ back))
    (hnew : s'.heldQueries = front ++ back) (hn : s'.nextToken = s.nextToken)
    (hc : s'.closeCall = s.closeCall) (ho : s'.opened = true → s.opened = true)
    (hfront : s'.opened = true → ∀ w, m = (w, .noreplyWait) → front = []) : Ordered s' := by
  refine h.of_sublist ?_ hn hc ho fun hopen w _ hm => ?_
  · rw [hold, hnew]
    exact (List.Sublist.refl _).append (List.sublist_append_right _ _)
  · rw [hnew]
    by_cases hmw : m = (w, .noreplyWait)
    · -- it is the oldest held query, so that all others are younger
      have hsorted := h.sorted
      rw [hold, hfront hopen w hmw, hmw] at hsorted
      rw [hfront hopen w hmw]
      exact .inr (List.pairwise_cons.mp hsorted).1
    · left
      rw [hold] at hm
      rcases List.mem_append.mp hm with hm | hm
      · exact List.mem_append_left _ hm
      · rcases List.mem_append.mp hm with hm | hm
        · exact absurd (List.mem_singleton.mp (List.mem_filter.mp hm).1).symm hmw
        · exact List.mem_append_right _ hm

lemma heldQueries_onClient {s : System} {t : ℕ} {f : Client → Client}
    (hf : ∀ x ∈ (f (s.client t)).sent, FollowUp x) :
    (s.onClient t f).heldQueries = s.heldQueries := by
  have hnil : ((f (s.client t)).sent.map (t, ·)).filter (fun m => held m.2) = [] := by
    rw [List.filter_eq_nil_iff]
    intro m hm
    obtain ⟨x, hx, rfl⟩ := List.mem_map.mp hm
    simp [(hf x hx).not_held]
  simp [heldQueries, onClient, hnil]

lemma heldQueries_send (s : System) (q : Client) (query : Query) : (s.send q query).heldQueries =
    s.heldQueries ++ if held query then [(s.nextToken, query)] else [] := by
  simp only [heldQueries, send, ← List.append_assoc, List.filter_append]
  congr 1
  cases h : held query <;> simp [h]

lemma Ordered.send {s : System} (h : Ordered s) (q : Client) (query : Query) :
    Ordered (s.send q query) := by
  have hnew : ∀ x ∈ (if held query then [(s.nextToken, query)] else []), x.1 = s.nextToken := by
    intro x hx
    split_ifs at hx
    · rw [List.mem_singleton.mp hx]
    · cases hx
  have hn : (s.send q query).nextToken = s.nextToken + 1 := rfl
  refine ⟨?_, ?_, fun w hw => ?_, fun ho w hw => ?_⟩
  · rw [heldQueries_send, List.pairwise_append]
    refine ⟨h.sorted, ?_, fun x hx y hy => hnew y hy ▸ h.below x hx⟩
    split_ifs <;> simp
  · rw [heldQueries_send, hn]
    intro x hx
    rcases List.mem_append.mp hx with hx | hx
    · exact Nat.lt_succ_of_lt (h.below x hx)
    · rw [hnew x hx]
      exact Nat.lt_succ_self _
  · rw [hn]
    exact Nat.lt_succ_of_lt (h.called w hw)
  · rw [heldQueries_send]
    refine (h.waiter ho w hw).imp (List.mem_append_left _) fun hall x hx => ?_
    rcases List.mem_append.mp hx with hx | hx
    · exact hall x hx
    · rw [hnew x hx]
      exact h.called w hw

lemma Ordered.close {s : System} (h : Ordered s) (wait : Bool) : Ordered (s.close wait) := by
  rw [System.close]
  split_ifs with hc hw
  · exact h
  · -- the `NOREPLY_WAIT` of `close` is the youngest held query
    have hnone : s.closeCall = none := by simpa using hc
    have h' : Ordered { s with closing := true } := h.of_eq rfl rfl rfl id
    have hs := h'.send ⟨some .callback, none, []⟩ .noreplyWait
    refine ⟨hs.sorted, hs.below, fun w hw' => ?_, fun _ w hw' => .inl ?_⟩
    · obtain rfl : s.nextToken = w := by simpa [System.send] using hw'
      exact Nat.lt_succ_self _
    · obtain rfl : s.nextToken = w := by simpa [System.send] using hw'
      rw [heldQueries_send]
      exact List.mem_append_right _ (List.mem_singleton_self _)
  · have hnone : s.closeCall = none := by simpa using hc
    exact ⟨h.sorted, h.below, fun w hw' => by simp [System.cancel] at hw',
      fun ho => by simp [System.cancel] at ho⟩

lemma Ordered.cancel {s : System} (h : Ordered s) : Ordered s.cancel :=
  h.of_eq rfl rfl rfl fun ho => by simp [System.cancel] at ho

variable (plan : ℕ → Plan)

lemma Ordered.arrive {s : System} (h : Ordered s)
    (hw : s.opened = true → ∀ w rest, s.toServer = (w, .noreplyWait) :: rest → s.queries w = none) :
    Ordered (s.arrive plan) := by
  -- an arrival keeps the order; what ends there is not held any more
  rw [System.arrive]
  split
  · exact h
  · next t query rest hs =>
    have hheld : s.heldQueries = s.jobs.filter (fun m => held m.2) ++
        ([(t, query)].filter (fun m => held m.2) ++ rest.filter (fun m => held m.2)) := by
      rw [heldQueries, hs, ← List.filter_append, ← List.filter_append]
      rfl
    cases ha : (arrival (plan t) t (s.queries t) query).2 with
    | none =>
      refine h.of_eq ?_ rfl rfl id
      rw [hheld, ← List.filter_append, ← List.filter_append, ← List.append_assoc]
      simp only [heldQueries, ha, Option.isSome_none, Bool.false_eq_true, if_false]
    | some response =>
      refine h.removed hheld ?_ rfl rfl id fun ho w hm => ?_
      · simp only [heldQueries, ha, Option.isSome_some, if_true, List.append_nil,
          List.filter_append]
      · -- the `NOREPLY_WAIT` of `close` does not end there
        obtain ⟨rfl, rfl⟩ := Prod.mk.inj hm
        rw [hw ho t rest hs] at ha
        cases ha

lemma jobs_split {s : System} {t t' : ℕ} {query : Query}
    (h : (s.jobs.find? fun job => job.1 = t) = some (t', query)) :
    ∃ before after, s.jobs = before ++ (t, query) :: after ∧ dropJob t s.jobs = before ++ after ∧
      s.jobs.takeWhile (fun job => job.1 ≠ t) = before := by
  obtain ⟨ht, before, after, hj, hb⟩ := List.find?_eq_some_iff_append.mp h
  obtain rfl : t' = t := by simpa using ht
  have hb' : ∀ job ∈ before, decide (job.1 ≠ t') = true :=
    fun job hjob => by simpa using hb job hjob
  refine ⟨before, after, hj, ?_, ?_⟩
  · rw [dropJob, hj, List.eraseP_append_right _ (fun job hjob => by simpa using hb job hjob),
      List.eraseP_cons_of_pos (by simp)]
  · rw [hj, List.takeWhile_append_of_pos hb', List.takeWhile_cons_of_neg (by simp), List.append_nil]

lemma Ordered.finish {s : System} (h : Ordered s) (t : ℕ) (interrupted : Bool) :
    Ordered (s.finish plan t interrupted) := by
  rw [System.finish]
  split
  · exact h
  · next t' query hfind =>
    by_cases hwait : query = .noreplyWait ∧ heldBefore s.jobs t = true
    · rw [if_pos hwait]
      exact h
    · rw [if_neg hwait]
      split
      · exact h
      obtain ⟨before, after, hj, hd, htw⟩ := jobs_split hfind
      have hold : s.heldQueries = before.filter (fun m => held m.2) ++
          ([(t, query)].filter (fun m => held m.2) ++
            (after ++ s.toServer).filter (fun m => held m.2)) := by
        rw [heldQueries, hj, ← List.filter_append, ← List.filter_append]
        simp
      refine h.removed hold ?_ rfl rfl id fun _ w hm => ?_
      · simp only [heldQueries, hd, List.append_assoc, List.filter_append]
      · obtain ⟨rfl, rfl⟩ := Prod.mk.inj hm
        have hb : heldBefore s.jobs t = false := by simpa using hwait
        rw [heldBefore, htw, List.any_eq_false] at hb
        rw [List.filter_eq_nil_iff]
        exact fun m hm => by simpa [held] using hb m hm

lemma client_sent (actions : List Action) (t : ℕ) :
    ((initial.exec plan actions).client t).sent = [] := by
  cases hc : ((initial.exec plan actions).client t).cursor with
  | none => simp [Client.sent, hc]
  | some c => exact (view_inv plan actions t hc).client_sent

end System

lemma Inv.awaiting {plan : Plan} {v : Session} (h : Inv plan v) (ho : v.opened = true)
    (hm : .noreplyWait ∈ v.toServer ∨ .noreplyWait ∈ v.jobs) : Awaiting v := by
  have ruled_out : ∀ {l : List Query}, (∀ q ∈ l, q = .continue ∨ q = .stop) → .noreplyWait ∉ l :=
    fun hl hq => by simpa using hl _ hq
  cases h with
  | live _ h =>
    cases h with
    | noreply h =>
      rcases h.place with ⟨h1, h2, -⟩ | ⟨h1, h2, -⟩ | ⟨h1, h2, -⟩ <;> simp [h1, h2] at hm
    | awaiting h => exact h
    | asking _ hf =>
      cases hf with
      | startAsked h1 _ h3 => simp [h1, h3] at hm
      | startServed h1 _ h3 => simp [h1, h3] at hm
      | answered _ _ _ _ h1 h2 => simp [h1, h2] at hm
    | reading c rest h =>
      obtain ⟨hS, hJ, -⟩ := h.places
      exact (hm.elim (ruled_out fun q hq => .inl (hS q hq))
        (ruled_out fun q hq => .inl (hJ q hq))).elim
    | answered _ _ h => simp [h.toServer, h.jobs] at hm
    | ended c h => simp [h.still.toServer, h.still.jobs] at hm
  | shutting c _ h => exact (hm.elim (ruled_out h.toServer) (ruled_out h.jobs)).elim
  | finished h =>
    obtain ⟨-, hS, hJ⟩ := h.server ho
    exact (hm.elim (ruled_out hS) (ruled_out hJ)).elim

namespace System

variable (plan : ℕ → Plan)

lemma awaiting_of_wait (actions : List Action) {w : ℕ}
    (ho : (initial.exec plan actions).opened = true)
    (hm : .noreplyWait ∈ ((initial.exec plan actions).view w).toServer ∨
      .noreplyWait ∈ ((initial.exec plan actions).view w).jobs) :
    Awaiting ((initial.exec plan actions).view w) := by
  rcases view_cases plan actions w with ⟨-, o, cl, h⟩ | ⟨-, -, h⟩
  · rw [h] at hm
    simp [Session.unborn] at hm
  · exact h.awaiting ho hm

lemma mem_ofToken {α : Type} {t : ℕ} {x : α} {l : List (ℕ × α)} : x ∈ ofToken t l ↔ (t, x) ∈ l := by
  simp [ofToken]

lemma Ordered.onClient {s : System} {t : ℕ} {f : Client → Client} (h : Ordered s)
    (hs : (s.client t).sent = [])
    (hf : ∀ x ∈ (f (s.client t)).sent, x ∈ (s.client t).sent ∨ FollowUp x) :
    Ordered (s.onClient t f) := by
  refine h.of_eq (heldQueries_onClient fun x hx => ?_) rfl rfl id
  rcases hf x hx with hx | hx
  · simp [hs] at hx
  · exact hx

theorem exec_ordered (actions : List Action) : Ordered (initial.exec plan actions) := by
  induction actions using List.reverseRecOn with
  | nil =>
    exact ⟨List.Pairwise.nil, fun x hx => by simp [System.exec, initial, heldQueries] at hx,
      fun w hw => by simp [System.exec, initial] at hw,
      fun _ w hw => by simp [System.exec, initial] at hw⟩
  | append_singleton actions a ih =>
    have hsent := client_sent plan actions
    rw [exec_concat]
    set s := initial.exec plan actions with hs
    cases a with
    | run noreply =>
      rw [System.step]
      split_ifs
      · exact ih.send _ _
      · exact ih.send _ _
      · exact ih
    | noreplyWait =>
      rw [System.step]
      split_ifs
      · exact ih.send _ _
      · exact ih
    | next t cb =>
      exact ih.onClient (hsent t) fun x hx => onCursor_sent (fun c _ h => Cursor.next_sent h) hx
    | closeCursor t =>
      exact ih.onClient (hsent t) fun x hx => onCursor_sent (fun c _ h => Cursor.close_sent h) hx
    | chained t =>
      refine ih.onClient (hsent t) fun x hx => onCursor_sent (fun c _ h => ?_) hx
      split_ifs at h
      · exact .inl h
      · exact .inl h
    | immediate t =>
      exact ih.onClient (hsent t) fun x hx =>
        onCursor_sent (f := Cursor.immediate) (fun _ _ h => .inl h) hx
    | closeConnection wait => exact ih.close wait
    | shut =>
      rw [System.step]
      split
      · split_ifs
        · exact ih.cancel
        · exact ih
      · exact ih
    | arrive =>
      refine ih.arrive plan fun ho w rest hw => ?_
      have hm : Query.noreplyWait ∈ (s.view w).toServer := mem_ofToken.mpr (by simp [hw])
      exact (awaiting_of_wait plan actions ho (.inl hm)).entry
    | finish t interrupted => exact ih.finish plan t interrupted
    | deliver =>
      rw [System.step, System.deliver]
      split
      · exact ih
      · next t response rest ht =>
        split_ifs
        · have h' : Ordered { s with toClient := rest } := ih.of_eq rfl rfl rfl id
          exact h'.onClient (hsent t) fun x hx => processResponse_sent hx
        · exact ih

end System

/-- When `close` shuts the connection after its `NOREPLY_WAIT`, every query sent
before it that wants no reply is done with. -/
theorem close_waits (plan : ℕ → Plan) (actions : List Action) {w : ℕ}
    (hw : (System.initial.exec plan actions).closeCall = some (some w))
    (ho : (System.initial.exec plan actions).opened = true)
    (hr : ((System.initial.exec plan actions).client w).results ≠ []) {t : ℕ}
    (ht : (t, .start true) ∈ (System.initial.exec plan actions).toServer ∨
      (t, .start true) ∈ (System.initial.exec plan actions).jobs) : w < t := by
  have hord := System.exec_ordered plan actions
  have hmem : (t, .start true) ∈ (System.initial.exec plan actions).heldQueries := by
    refine List.mem_filter.mpr ⟨List.mem_append.mpr ht.symm, rfl⟩
  rcases hord.waiter ho w hw with h | h
  · have hplace := List.mem_append.mp (List.mem_filter.mp h).1
    have haw := System.awaiting_of_wait plan actions ho
      (hplace.symm.imp System.mem_ofToken.mpr System.mem_ofToken.mpr)
    have hcl : (System.initial.exec plan actions).client w = ⟨some .callback, none, []⟩ :=
      haw.client
    exact absurd (congrArg Client.results hcl) hr
  · exact h _ hmem

theorem close_waits_later :
    (System.initial.exec (fun _ => twoBatches)
      [.closeConnection true, .run true, .arrive, .finish 1 false, .deliver]).toServer =
        [(2, .start true)] ∧ 1 < 2 :=
  ⟨rfl, close_waits (fun _ => twoBatches) [.closeConnection true, .run true, .arrive,
    .finish 1 false, .deliver]
    (w := 1) rfl rfl (by decide) (t := 2) (.inl List.mem_cons_self)⟩

end PersonnelBackend.Connections
