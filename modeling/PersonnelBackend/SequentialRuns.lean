import PersonnelBackend.ControllerHandlers

/-! Requests served one after the other, each run to its end before the next one
arrives. A history is a list of requests, every one with the identifiers that
the server would generate for it. -/
namespace PersonnelBackend.Histories
open Database Express Resumption Router

structure Entry where
  ids : ℕ → String
  request : Request

variable (dash : Driver)

def respond (s : Store) (e : Entry) : Outcome × Store :=
  (process dash e.request).run (serve e.ids) s

def after (s : Store) (history : List Entry) : Store :=
  history.foldl (fun s e => (respond dash s e).2) s

variable {dash}

lemma after_concat (s : Store) (history : List Entry) (e : Entry) :
    after dash s (history ++ [e]) = (respond dash (after dash s history) e).2 := by
  simp [after]

theorem after_invariant {I : Store → Prop} {s : Store} {history : List Entry} (hs : I s)
    (hstep : ∀ pre e post, history = pre ++ e :: post → I (after dash s pre) →
      I (respond dash (after dash s pre) e).2) : I (after dash s history) := by
  induction history using List.reverseRecOn with
  | nil => exact hs
  | append_singleton history e ih =>
    rw [after_concat]
    refine hstep history e [] rfl (ih fun pre e' post he => ?_)
    exact hstep pre e' (post ++ [e]) (by simp [he])

lemma concat_eq_split {α : Type} {history pre post : List α} {a b : α} :
    history ++ [a] = pre ++ b :: post ↔
      (history = pre ∧ a = b ∧ post = []) ∨ ∃ post', post = post' ++ [a] ∧
      history = pre ++ b :: post' := by
  constructor
  · intro h
    rcases List.eq_nil_or_concat post with rfl | ⟨post', c, rfl⟩
    · obtain ⟨hpre, hlast⟩ := List.append_inj' h rfl
      exact Or.inl ⟨hpre, List.head_eq_of_cons_eq hlast, rfl⟩
    · rw [List.concat_eq_append] at h ⊢
      rw [← List.cons_append, ← List.append_assoc] at h
      obtain ⟨hpre, hlast⟩ := List.append_inj' h rfl
      exact Or.inr ⟨post', by rw [List.head_eq_of_cons_eq hlast], hpre⟩
  · rintro (⟨rfl, rfl, rfl⟩ | ⟨post', rfl, rfl⟩) <;> simp

end PersonnelBackend.Histories
