import DerivedQuery.Engine.Basic

/-!
# Exchanges with a store

What passes between an engine and its store is a list of exchanges: calls, each with the answer to it. A
witnessed store (`DocumentStore.witnessed`) answers like the store inside and keeps its exchanges, so
what is stated about them is stated for any store.
-/

namespace DerivedQuery

/-- A call and the answer of the store. -/
structure Exchange where
  call : StoreCall
  answer : Except StoreError call.Answer

namespace Exchange

/-- The failure that the store reported. -/
def fault? : Exchange → Option StoreError
  | ⟨_, .ok _⟩ => none
  | ⟨_, .error error⟩ => some error

/-- The results of a query that the store returned. -/
def batch? : Exchange → Option Batch
  | ⟨.execute .., .ok (batch : Batch)⟩ => some batch
  | _ => none

/-- The store removed a document. -/
def removes : Exchange → Bool
  | ⟨.pointDelete .., .ok (deleted : Bool)⟩ => deleted
  | _ => false

end Exchange

variable {σ : Type}

/-- Keeps what the store was asked and what it answered, the last exchange first. -/
def DocumentStore.witnessed (store : DocumentStore σ) : DocumentStore (σ × List Exchange) where
  answer call state :=
    let (answer, inner) := store.answer call state.1
    (answer, inner, ⟨call, answer⟩ :: state.2)
  walkBound state := store.walkBound state.1

/-- Each answer adds one exchange. -/
theorem DocumentStore.exchanges_answer {store : DocumentStore σ} {call : StoreCall}
    {answer : Except StoreError call.Answer} {state later : σ × List Exchange}
    (h : store.witnessed.answer call state = (answer, later)) :
    later.2 = ⟨call, answer⟩ :: state.2 := by
  cases h
  rfl

/-- Answers queries from a script. All other calls fail, and so do queries behind its end. -/
def DocumentStore.scripted : DocumentStore (List (Except StoreError Batch)) where
  answer
    | .execute .., answer :: script => (answer, script)
    | call, script => (.error (.unavailable call.name), script)
  walkBound script := script.length

/-- The engine with its exchanges kept. -/
def Engine.witnessed (e : Engine σ) : Engine (σ × List Exchange) := { e with store := e.store.witnessed }

end DerivedQuery
