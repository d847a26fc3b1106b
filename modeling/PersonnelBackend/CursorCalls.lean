import Mathlib.Data.List.Infix
import PersonnelBackend.DriverCursor

/-! When the callbacks of a cursor are called. They are taken off the queue in the
order they were given to `next`; all but every hundredth are called there and then,
the others by `setImmediate` at some later time. -/
namespace PersonnelBackend.Cursors

/-- The calls made at once, by their places in the order of the queue. -/
def promptCalls (calls : List (ℕ × Reply)) : List (ℕ × Reply) :=
  (calls.zipIdx.filter fun call => !deferred call.2).map Prod.fst

def lateCalls (calls : List (ℕ × Reply)) : List (ℕ × Reply) :=
  (calls.zipIdx.filter fun call => deferred call.2).map Prod.fst

lemma promptCalls_append (calls : List (ℕ × Reply)) (call : ℕ × Reply) :
    promptCalls (calls ++ [call]) =
      promptCalls calls ++ if deferred calls.length then [] else [call] := by
  cases h : deferred calls.length <;> simp [promptCalls, List.zipIdx_append, h]

lemma lateCalls_append (calls : List (ℕ × Reply)) (call : ℕ × Reply) :
    lateCalls (calls ++ [call]) =
      lateCalls calls ++ if deferred calls.length then [call] else [] := by
  cases h : deferred calls.length <;> simp [lateCalls, List.zipIdx_append, h]

namespace Cursor

/-- Every callback taken off the queue is called once: those called at once and
those left to `setImmediate` each in the order of the queue. -/
structure Accounted (c : Cursor) : Prop where
  iterations : c.iterations = c.calls.length
  once : (c.called ++ c.immediates).Perm c.calls
  prompt : (promptCalls c.calls).Sublist c.called
  late : ∃ ran, lateCalls c.calls = ran ++ c.immediates ∧ ran.Sublist c.called

/-- The calls are in order as long as no method has thrown. -/
def Tallied (c : Cursor) : Prop := c.thrown = false → c.Accounted

def waiting (c : Cursor) : ℕ := c.cbQueue.length + c.immediates.length

/-- What a method does about callbacks: it calls some from the head of the queue,
and may drop others. -/
inductive Serves : Cursor → Cursor → Prop
  | idle {c c' : Cursor} : c'.iterations = c.iterations → c'.calls = c.calls →
      c'.immediates = c.immediates → c'.called = c.called → c'.thrown = c.thrown →
      c'.cbQueue.length ≤ c.cbQueue.length → Serves c c'
  | call {c c' : Cursor} (reply : Reply) : Serves (c.call reply) c' → Serves c c'
  | trans {a b c : Cursor} : Serves a b → Serves b c → Serves a c

lemma new_tallied : Cursor.new.Tallied := fun _ =>
  ⟨rfl, .refl _, .refl _, [], rfl, .refl _⟩

lemma Accounted.of_eq {c c' : Cursor} (h : c.Accounted) (h1 : c'.iterations = c.iterations)
    (h2 : c'.calls = c.calls) (h3 : c'.immediates = c.immediates) (h4 : c'.called = c.called) :
    c'.Accounted := by
  obtain ⟨g1, g2, g3, g4⟩ := h
  exact ⟨by rw [h1, h2, g1], by rwa [h2, h3, h4], by rwa [h2, h4], by rwa [h2, h3, h4]⟩

lemma Tallied.of_eq {c c' : Cursor} (h : c.Tallied) (h1 : c'.iterations = c.iterations)
    (h2 : c'.calls = c.calls) (h3 : c'.immediates = c.immediates) (h4 : c'.called = c.called)
    (h5 : c'.thrown = c.thrown) : c'.Tallied :=
  fun ht => (h (h5.symm.trans ht)).of_eq h1 h2 h3 h4

lemma Tallied.call {c : Cursor} (h : c.Tallied) (reply : Reply) : (c.call reply).Tallied := by
  cases hq : c.cbQueue with
  | nil =>
    intro ht
    simp [Cursor.call, hq] at ht
  | cons cb rest =>
    rw [call_of_queue hq]
    intro ht
    obtain ⟨h1, h2, h3, ran, h4, h5⟩ := h ht
    have hp := promptCalls_append c.calls (cb, reply)
    have hl := lateCalls_append c.calls (cb, reply)
    rw [← h1] at hp hl
    cases hd : deferred c.iterations with
    | true =>
      simp only [hd, if_true, List.append_nil] at hp hl ⊢
      refine ⟨by simp [h1], ?_, hp ▸ h3, ran, by rw [hl, h4, List.append_assoc], h5⟩
      rw [← List.append_assoc]
      exact h2.append_right _
    | false =>
      simp only [hd, Bool.false_eq_true, if_false, List.append_nil] at hp hl ⊢
      refine ⟨by simp [h1], ?_, hp ▸ h3.append (.refl _), ran, by rw [hl, h4],
        h5.trans (List.sublist_append_left _ _)⟩
      rw [List.append_assoc]
      exact ((List.perm_append_comm.append_left _).trans (by rw [List.append_assoc])).trans
        (h2.append_right _)

lemma immediate_of_nil {c : Cursor} (h : c.immediates = []) : c.immediate = c := by
  cases c
  simp_all [Cursor.immediate]

lemma Tallied.immediate {c : Cursor} (h : c.Tallied) : c.immediate.Tallied := by
  intro ht
  obtain ⟨h1, h2, h3, ran, h4, h5⟩ := h ht
  cases hi : c.immediates with
  | nil =>
    rw [immediate_of_nil hi]
    exact ⟨h1, h2, h3, ran, h4, h5⟩
  | cons call rest =>
    have hcalled : c.immediate.called = c.called ++ [call] := by simp [Cursor.immediate, hi]
    have himmediates : c.immediate.immediates = rest := by simp [Cursor.immediate, hi]
    rw [hi] at h2 h4
    refine ⟨h1, ?_, ?_, ran ++ [call], ?_, ?_⟩
    · rw [hcalled, himmediates, List.append_assoc]
      exact h2
    · rw [hcalled]
      exact h3.trans (List.sublist_append_left _ _)
    · rw [himmediates, List.append_assoc]
      exact h4
    · rw [hcalled]
      exact h5.append (.refl _)

lemma Serves.tallied {c c' : Cursor} (h : Serves c c') (ht : c.Tallied) : c'.Tallied := by
  induction h with
  | idle h1 h2 h3 h4 h5 h6 => exact ht.of_eq h1 h2 h3 h4 h5
  | call reply _ ih => exact ih (ht.call reply)
  | trans _ _ ih1 ih2 => exact ih2 (ih1 ht)

lemma waiting_call_le (c : Cursor) (reply : Reply) : (c.call reply).waiting ≤ c.waiting := by
  cases hq : c.cbQueue with
  | nil => simp [Cursor.call, waiting, hq]
  | cons cb rest =>
    rw [call_of_queue hq, waiting, waiting, hq]
    cases deferred c.iterations
    · simp
    · simp only [if_true, List.length_cons, List.length_append, List.length_nil]
      omega

lemma Serves.waiting_le {c c' : Cursor} (h : Serves c c') : c'.waiting ≤ c.waiting := by
  induction h with
  | idle h1 h2 h3 h4 h5 h6 =>
    rw [waiting, waiting, h3]
    omega
  | @call c c' reply _ ih => exact ih.trans (waiting_call_le c reply)
  | trans _ _ ih1 ih2 => exact ih2.trans ih1

lemma waiting_immediate {c : Cursor} (h : c.immediates ≠ []) : c.immediate.waiting < c.waiting := by
  have hpos := List.length_pos_of_ne_nil h
  simp only [waiting, Cursor.immediate, List.length_tail]
  omega

/-! ### What the methods of a cursor do about callbacks -/

lemma Serves.refl (c : Cursor) : Serves c c := .idle rfl rfl rfl rfl rfl le_rfl

lemma call_serves (c : Cursor) (reply : Reply) : Serves c (c.call reply) := .call reply (.refl _)

lemma handleRow_serves (c : Cursor) (response : Response) (later : List Response) :
    Serves c (c.handleRow response later) := by
  rw [Cursor.handleRow]
  refine (call_serves c (.row (response.r.getD c.responseIndex .null))).trans ?_
  split_ifs
  · exact .idle rfl rfl rfl rfl rfl le_rfl
  · exact .idle rfl rfl rfl rfl rfl le_rfl

lemma deliver_serves (c : Cursor) (response : Response) (later : List Response) :
    Serves c (c.deliver response later) := by
  rw [Cursor.deliver]
  split_ifs
  · exact handleRow_serves c response later
  · refine Serves.trans (b := { c with responses := later }) ?_ (call_serves _ _)
    exact .idle rfl rfl rfl rfl rfl le_rfl

lemma promptCont_serves (c : Cursor) (isOpen : Bool) : Serves c (c.promptCont isOpen) := by
  rw [Cursor.promptCont]
  split_ifs
  · exact .idle rfl rfl rfl rfl rfl le_rfl
  · exact .refl c

lemma promptLoop_serves (isOpen : Bool) (queue : List ℕ) (c : Cursor) :
    Serves c (promptLoop isOpen queue c) := by
  induction queue generalizing c with
  | nil => exact .refl c
  | cons cb rest ih =>
    rw [Cursor.promptLoop]
    split
    · split_ifs
      · exact call_serves c _
      · exact promptCont_serves c isOpen
    · split_ifs
      · exact call_serves c _
      · exact promptCont_serves c isOpen
      · exact .refl c
      · exact ((promptCont_serves c isOpen).trans (deliver_serves _ _ _)).trans (ih _)
      · exact (deliver_serves _ _ _).trans (ih _)

lemma promptNext_serves (c : Cursor) (isOpen : Bool) : Serves c (c.promptNext isOpen) := by
  rw [Cursor.promptNext]
  split_ifs
  · exact (call_serves c _).trans (promptLoop_serves _ _ _)
  · exact promptLoop_serves _ _ _

lemma runCloseCb_serves (c : Cursor) (outcome : Promise) : Serves c (c.runCloseCb outcome) :=
  .idle rfl rfl rfl rfl rfl (Nat.zero_le _)

lemma close_serves (c : Cursor) (connOpen : Bool) : Serves c (c.close connOpen) := by
  rw [Cursor.close]
  split
  · exact .refl c
  · exact .idle rfl rfl rfl rfl rfl le_rfl
  · split_ifs <;> exact .idle rfl rfl rfl rfl rfl le_rfl

lemma received_serves (c : Cursor) (response : Response) : Serves c (c.received response) := by
  have hpush : Serves c (c.push response) := .idle rfl rfl rfl rfl rfl le_rfl
  have hfinish : Serves (c.push response) ((c.push response).finish response) := by
    have hend : Serves (c.push response) { c.push response with endFlag := true } :=
      .idle rfl rfl rfl rfl rfl le_rfl
    by_cases ht : response.t = .successPartial
    · rw [Cursor.finish, if_pos ht]
      exact .refl _
    · cases hcb : (c.push response).closeCb with
      | false =>
        rw [finish_of_open ht hcb]
        exact hend
      | true =>
        rw [finish_of_closing ht hcb]
        exact hend.trans (runCloseCb_serves _ _)
  exact (hpush.trans hfinish).trans (.idle rfl rfl rfl rfl rfl le_rfl)

lemma addResponse_serves (c : Cursor) (isOpen connOpen : Bool) (response : Response) :
    Serves c (c.addResponse isOpen connOpen response) := by
  rw [Cursor.addResponse]
  split_ifs
  · exact (received_serves c response).trans (close_serves _ _)
  · exact (received_serves c response).trans (promptNext_serves _ _)

lemma Tallied.next {c : Cursor} (h : c.Tallied) (isOpen : Bool) (cb : ℕ) :
    (c.next isOpen cb).Tallied :=
  (promptNext_serves _ isOpen).tallied (h.of_eq rfl rfl rfl rfl rfl)

end Cursor

end PersonnelBackend.Cursors
