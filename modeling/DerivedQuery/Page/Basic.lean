import DerivedQuery.Error
import DerivedQuery.Page.Token
import DerivedQuery.Sorting

/-!
# Pages

Results come in pages. A `PageRequest` is what a caller asks for, a `PageState` is what a query carries,
and a `Page` is what comes back, with the token for the page after it unless it is the last one.

The sort order of a call is the explicit one if there is one, else that of the page request, else that
of the method name; an empty order counts as none (`PageState.choose`). A page keeps the order, so that
the request for the next page goes on in it.
-/

namespace DerivedQuery

/-- A page that a caller asks for. -/
structure PageRequest where
  size : Nat
  continuation : Option ContinuationToken := none
  sort : Option Sorting := none
  deriving DecidableEq, Repr

/-- The request for a first page. The size is positive and has 32 bits. -/
def PageRequest.of (size : Int) : Except QueryError PageRequest :=
  if 0 < size ∧ size < UInt32.size then .ok { size := size.toNat } else .error (.invalidPageSize size)

/-- The page that a query asks the store for. -/
structure PageState where
  size : Nat
  continuation : Option ContinuationToken
  sort : Sorting
  deriving DecidableEq, Repr

namespace PageState

/-- The same pages, going on at a token. -/
def resume (state : PageState) (token : ContinuationToken) : PageState :=
  { state with continuation := some token }

/-- The first page of another size in the same order. -/
def restart (state : PageState) (size : Nat) : PageState :=
  { state with continuation := none, size := max size 1 }

/-- Without a token it is the first page. -/
def isFirst (state : PageState) : Bool := state.continuation.isNone

/-- The first order that is not empty; an empty one that is the last choice is no order either. -/
def chooseSort (explicit ofPage ofName : Option Sorting) : Sorting :=
  ((explicit.filter (!·.isEmpty)).or ((ofPage.filter (!·.isEmpty)).or ofName)).getD []

/-- The page state of a call. -/
def choose (defaultSize : Nat) (ofName explicit : Option Sorting) (request : Option PageRequest) :
    PageState :=
  let sort := chooseSort explicit (request.bind (·.sort)) ofName
  match request with
  | some request => { size := request.size, continuation := request.continuation, sort }
  | none => { size := max defaultSize 1, continuation := none, sort }

end PageState

/-- A page of results. -/
structure Page (α : Type) where
  items : List α
  size : Nat
  sort : Sorting
  next : Option ContinuationToken
  deriving DecidableEq, Repr

namespace Page

variable {α β : Type}

/-- The page with some items that a query in a page state was answered with. -/
def ofState (state : PageState) (items : List α) (next : Option ContinuationToken) : Page α :=
  { items, size := state.size, sort := state.sort, next }

/-- There is no page after it. -/
def isLast (page : Page α) : Bool := page.next.isNone

/-- The request for the next page. -/
def nextRequest (page : Page α) : Option PageRequest :=
  page.next.map fun token =>
    { size := page.size, continuation := some token,
      sort := if page.sort.isEmpty then none else some page.sort }

/-- The page with every item mapped, or the first error. -/
def mapM {ε : Type} (f : α → Except ε β) (page : Page α) : Except ε (Page β) := do
  .ok { page with items := ← page.items.mapM f }

end Page

end DerivedQuery
