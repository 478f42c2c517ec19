import DerivedQuery.Store.Basic

/-!
# Watched and failing stores

Two stores built around another one. `DocumentStore.recorded` keeps a record of the calls it is asked,
and `DocumentStore.failing` fails some of its calls before they reach the store inside.
-/

namespace DerivedQuery.DocumentStore

variable {σ : Type}

/-- Keeps the calls, the last one first. -/
def recorded (store : DocumentStore σ) : DocumentStore (σ × List StoreCall) where
  answer call state :=
    let (answer, inner) := store.answer call state.1
    (answer, inner, call :: state.2)
  walkBound state := store.walkBound state.1

/-- Counts the calls, and fails the one with number `n`, counted from one, if `fault n` says so. -/
def failing (store : DocumentStore σ) (fault : Nat → Option StoreError) :
    DocumentStore (σ × Nat) where
  answer call state :=
    let number := state.2 + 1
    match fault number with
    | some error => (.error error, state.1, number)
    | none =>
      let (answer, inner) := store.answer call state.1
      (answer, inner, number)
  walkBound state := store.walkBound state.1

end DerivedQuery.DocumentStore
