import Mathlib.Logic.Basic

/-!
# Interactive Programs

A program that asks its environment for one thing after the other and goes on with the answers
is an `Interaction`: a tree that branches on the answers. Programs in sequence are its `bind`,
so that code with local variables can be written down as it stands.

What such a program does is specified along an observer, whose state moves with each query and
its answer. `code.Meets moves admits post s` says that, watched from the state `s`, the program
asks only what the observer expects, whatever admitted answers it gets, and returns with `post`.

## Main results

* `Interaction.Meets.bind`: programs in sequence.
* `Interaction.Meets.mono`: a weaker condition on the result.
-/

namespace Interactions

/-- A program with queries `q`, answered by a `Reply q`, and a result of type `α`. -/
inductive Interaction (Query : Type) (Reply : Query → Type) (α : Type) where
  | pure (result : α)
  | ask (query : Query) (next : Reply query → Interaction Query Reply α)

namespace Interaction

variable {Query State α β : Type} {Reply : Query → Type}

/-- Go on with the result of a program. -/
def bind (code : Interaction Query Reply α) (f : α → Interaction Query Reply β) :
    Interaction Query Reply β :=
  match code with
  | .pure result => f result
  | .ask query next => .ask query fun reply => (next reply).bind f

instance : Monad (Interaction Query Reply) where
  pure := .pure
  bind := .bind

@[simp] theorem pure_eq (result : α) :
    (Pure.pure result : Interaction Query Reply α) = .pure result := rfl

@[simp] theorem pure_bind (result : α) (f : α → Interaction Query Reply β) :
    (Interaction.pure result >>= f) = f result := rfl

@[simp] theorem ask_bind (query : Query) (next : Reply query → Interaction Query Reply α)
    (f : α → Interaction Query Reply β) :
    (Interaction.ask query next >>= f) = .ask query fun reply => next reply >>= f := rfl

/-- What a program asks next. -/
def query? : Interaction Query Reply α → Option Query
  | .pure _ => none
  | .ask query _ => some query

/-- A program goes on with the answer to what it asks. -/
def resume (answer : (query : Query) → Reply query) :
    Interaction Query Reply α → Interaction Query Reply α
  | .pure result => .pure result
  | .ask query next => next (answer query)

/-! ### Observers -/

section Observers

variable (moves : State → (query : Query) → Reply query → State → Prop)
variable (admits : (query : Query) → Reply query → Prop)

/-- Watched from `s`, the program asks what the observer expects and returns with `post`. -/
def Meets (post : State → α → Prop) : State → Interaction Query Reply α → Prop
  | s, .pure result => post s result
  | s, .ask query next =>
    ∀ reply, admits query reply → ∃ t, moves s query reply t ∧ Meets post t (next reply)

variable {moves admits} {post : State → α → Prop} {s : State}

/-- **Programs in sequence.** -/
theorem Meets.bind {code : Interaction Query Reply α} {f : α → Interaction Query Reply β}
    {post' : State → β → Prop} (h : Meets moves admits post s code)
    (hf : ∀ t result, post t result → Meets moves admits post' t (f result)) :
    Meets moves admits post' s (code >>= f) := by
  induction code generalizing s with
  | pure result => exact hf s result h
  | ask query next ih =>
      intro reply hreply
      obtain ⟨t, ht, hnext⟩ := h reply hreply
      exact ⟨t, ht, ih reply hnext⟩

/-- **The next query**: the observer expects it, and the program goes on with its answer. -/
theorem Meets.resume {code : Interaction Query Reply α} (h : Meets moves admits post s code)
    {query : Query} (hquery : code.query? = some query)
    {answer : (query : Query) → Reply query} (hanswer : admits query (answer query)) :
    ∃ t, moves s query (answer query) t ∧ Meets moves admits post t (code.resume answer) := by
  cases code with
  | pure result => cases hquery
  | ask query' next =>
      cases hquery
      exact h (answer query) hanswer

/-- A weaker condition on the result. -/
theorem Meets.mono {code : Interaction Query Reply α} {post' : State → α → Prop}
    (h : Meets moves admits post s code) (hpost : ∀ t result, post t result → post' t result) :
    Meets moves admits post' s code := by
  induction code generalizing s with
  | pure result => exact hpost s result h
  | ask query next ih =>
      intro reply hreply
      obtain ⟨t, ht, hnext⟩ := h reply hreply
      exact ⟨t, ht, ih reply hnext⟩

end Observers

end Interaction

end Interactions
