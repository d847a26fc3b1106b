import Mathlib.Logic.Function.Basic
import Mathlib.Data.List.Basic

/-! Resumptions over a typed interface of calls. A program either ends with a
value or hands one call to its environment and continues with the reply; a
server answers each call atomically on a state. Nothing here depends on which
calls there are. -/
namespace PersonnelBackend.Resumption

universe u v w x

/-- A program that has ended, or that waits for the reply to one call. -/
inductive Prog (Op : Type u) (Reply : Op → Type v) (α : Type w)
  | pure (value : α)
  | call (op : Op) (next : Reply op → Prog Op Reply α)

/-- One atomic answer per call, together with the state it leaves behind. -/
abbrev Server (Op : Type u) (Reply : Op → Type v) (σ : Type x) :=
  (op : Op) → σ → Reply op × σ

namespace Prog

variable {Op : Type u} {Reply : Op → Type v} {α β : Type w} {σ : Type x}

def bind : Prog Op Reply α → (α → Prog Op Reply β) → Prog Op Reply β
  | .pure value, f => f value
  | .call op next, f => .call op fun reply => (next reply).bind f

instance : Monad (Prog Op Reply) where
  pure := Prog.pure
  bind := Prog.bind

lemma bind_assoc {γ : Type w} (p : Prog Op Reply α) (f : α → Prog Op Reply β)
    (g : β → Prog Op Reply γ) : (p.bind f).bind g = p.bind fun value => (f value).bind g := by
  induction p with
  | pure value => rfl
  | call op next ih => exact congrArg (Prog.call op) (funext ih)

/-- The program run alone, from its first call to its end. -/
def run (serve : Server Op Reply σ) : Prog Op Reply α → σ → α × σ
  | .pure value, s => (value, s)
  | .call op next, s => (next (serve op s).1).run serve (serve op s).2

@[simp] lemma run_pure (serve : Server Op Reply σ) (value : α) (s : σ) :
    (Prog.pure value : Prog Op Reply α).run serve s = (value, s) := rfl

def value? : Prog Op Reply α → Option α
  | .pure value => some value
  | .call _ _ => none

/-- Every call the program can reach, whatever the replies, satisfies `P`. -/
def Calls (P : Op → Prop) : Prog Op Reply α → Prop
  | .pure _ => True
  | .call op next => P op ∧ ∀ reply, (next reply).Calls P

end Prog

end PersonnelBackend.Resumption
