import KvmHypervisor.Transitions

/-!
# Nested Calls on a Stack of Results

A machine whose steps are the two halves of calls: a `call` computes a result and keeps it, a
`ret` hands out the result kept last, and `fallback` if there is none. Callers may interrupt
each other: between the halves of a call any number of complete calls may happen, which are
nested in the same way.

The traces are those of `Transitions`, newest first. `Nested` says how calls and returns stand
in a trace, and not what they return; `Matched` that every `ret` returns what its `call` has
computed.

## Main results

* `KeepsResults.matched`: a nested path is matched, and leaves the stack as it was.
-/

open Transitions

namespace NestedCalls

/-- The halves of a call, with what was computed and what is returned. -/
inductive CallEvent (β : Type) where
  | call (computed : β)
  | ret (returned : β)
deriving DecidableEq

variable {β : Type}

/-- Complete calls, one after the other, each with complete calls between its halves. -/
inductive Nested : List (CallEvent β) → Prop
  | nil : Nested []
  | pair {before inner : List (CallEvent β)} {computed returned : β} :
      Nested before → Nested inner →
      Nested (.ret returned :: (inner ++ .call computed :: before))

/-- Complete calls that return what they have computed. -/
inductive Matched : List (CallEvent β) → Prop
  | nil : Matched []
  | pair {before inner : List (CallEvent β)} {computed : β} :
      Matched before → Matched inner →
      Matched (.ret computed :: (inner ++ .call computed :: before))

/-- Matched calls are nested. -/
theorem Matched.nested {tr : List (CallEvent β)} (h : Matched tr) : Nested tr := by
  induction h with
  | nil => exact .nil
  | pair _ _ hbefore hinner => exact .pair hbefore hinner

section Machine

variable {State Action : Type} {M : Machine State Action (CallEvent β)}
variable {ok : State → Action → Prop} {I : State → Prop} {stack : State → List β} {fallback : β}

/-- The steps of `M` keep results on `stack`, under the invariant `I`. -/
structure KeepsResults (M : Machine State Action (CallEvent β)) (I : State → Prop)
    (stack : State → List β) (fallback : β) : Prop where
  step : ∀ s a e t, I s → M.step s a = some (e, t) → I t
  call : ∀ s a computed t, I s → M.step s a = some (.call computed, t) →
    stack t = stack s ++ [computed]
  ret : ∀ s a returned t, I s → M.step s a = some (.ret returned, t) →
    returned = (stack s).getLast?.getD fallback ∧ stack t = (stack s).dropLast

/-- The invariant along a path. -/
theorem KeepsResults.along (hM : KeepsResults M I stack fallback) {s t : State}
    {tr : List (CallEvent β)} (hs : I s) (h : M.Path ok s tr t) : I t :=
  h.invariant hs fun _ _ _ _ hI _ hstep => hM.step _ _ _ _ hI hstep

/-- **Nested calls are matched**, and leave the stack of results as it was. Induction on the
nesting: the calls between the halves of a call leave its result on top. -/
theorem KeepsResults.matched (hM : KeepsResults M I stack fallback) {s t : State}
    {tr : List (CallEvent β)} (hs : I s) (h : M.Path ok s tr t) (hnested : Nested tr) :
    Matched tr ∧ stack t = stack s := by
  induction hnested generalizing s t with
  | nil =>
      cases h
      exact ⟨.nil, rfl⟩
  | @pair before inner computed returned _ _ ihbefore ihinner =>
      obtain ⟨v, a, hpath, -, hret⟩ := h.of_cons
      obtain ⟨u', hfirst, hinner⟩ := hpath.of_append
      obtain ⟨u, b, hbefore, -, hcall⟩ := hfirst.of_cons
      have hu := hM.along hs hbefore
      have hu' := hM.step _ _ _ _ hu hcall
      have hv := hM.along hu' hinner
      obtain ⟨hmatched, hstack⟩ := ihbefore hs hbefore
      obtain ⟨hmatched', hstack'⟩ := ihinner hu' hinner
      obtain ⟨hreturned, hpopped⟩ := hM.ret _ _ _ _ hv hret
      rw [hstack', hM.call _ _ _ _ hu hcall, hstack] at hreturned hpopped
      rw [List.getLast?_concat, Option.getD_some] at hreturned
      rw [List.dropLast_concat] at hpopped
      subst hreturned
      exact ⟨.pair hmatched hmatched', hpopped⟩

/-- Nothing is returned that was not computed: without a result kept, the fallback is. -/
theorem KeepsResults.fallback_of_empty (hM : KeepsResults M I stack fallback) {s t : State}
    {a : Action} {returned : β} (hs : I s) (hempty : stack s = [])
    (h : M.step s a = some (.ret returned, t)) : returned = fallback ∧ stack t = [] := by
  obtain ⟨hreturned, hpopped⟩ := hM.ret _ _ _ _ hs h
  rw [hempty] at hreturned hpopped
  exact ⟨hreturned, hpopped⟩

end Machine

end NestedCalls
