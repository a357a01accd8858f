import Grm.Runtime.Requests

/-!
# Batches against single requests

The purpose of a batch, said without its bookkeeping: every operation stands for one
plain request, once its refs are replaced by the ids created earlier; the operations
are executed one after the other, and those that fail are passed over. A batch leaves
the session where that leads, or, when it is atomic and something failed, where it was.
-/

set_option autoImplicit false

namespace SessionBatchOp

/-- The refs after the request of an operation was answered. -/
def refsAfter (refs : BatchRefs) : SessionBatchOp → RuntimeResponse → BatchRefs
  | nodeCreate _ _ localRef, .nodeCreate node => bindRef refs localRef node.id
  | _, _ => refs

end SessionBatchOp

/-- The session and the refs after a request was answered; nothing when it failed. -/
def SessionBatchOp.answered (op : SessionBatchOp) (refs : BatchRefs)
    (result : SessionState × GrmResult RuntimeDispatchOutcome) : Option (SessionState × BatchRefs) :=
  match result with
  | (s, .ok outcome) => some (s, op.refsAfter refs outcome.response)
  | (_, .error _) => none

section Sequential
variable [Externals]

end Sequential
