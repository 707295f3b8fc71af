import IngressControl.Choice
/-!
The provisioning states of a stack.
-/

namespace IngressControl

inductive StackStatus where
  | createInProgress
  | createComplete
  | createFailed
  | rollbackInProgress
  | rollbackComplete
  | rollbackFailed
  | updateInProgress
  | updateComplete
  | updateRollbackInProgress
  | updateRollbackComplete
  | deleteInProgress
  | deleteFailed
  deriving DecidableEq, Repr, Ord

instance : Choice StackStatus where
  label := "StackStatus"
  values :=
    [.createInProgress, .createComplete, .createFailed, .rollbackInProgress, .rollbackComplete,
      .rollbackFailed, .updateInProgress, .updateComplete, .updateRollbackInProgress,
      .updateRollbackComplete, .deleteInProgress, .deleteFailed]
  name
    | .createInProgress => "CREATE_IN_PROGRESS"
    | .createComplete => "CREATE_COMPLETE"
    | .createFailed => "CREATE_FAILED"
    | .rollbackInProgress => "ROLLBACK_IN_PROGRESS"
    | .rollbackComplete => "ROLLBACK_COMPLETE"
    | .rollbackFailed => "ROLLBACK_FAILED"
    | .updateInProgress => "UPDATE_IN_PROGRESS"
    | .updateComplete => "UPDATE_COMPLETE"
    | .updateRollbackInProgress => "UPDATE_ROLLBACK_IN_PROGRESS"
    | .updateRollbackComplete => "UPDATE_ROLLBACK_COMPLETE"
    | .deleteInProgress => "DELETE_IN_PROGRESS"
    | .deleteFailed => "DELETE_FAILED"

namespace StackStatus

def isComplete : StackStatus → Bool
  | .createComplete => true
  | .updateComplete => true
  | .updateRollbackComplete => true
  | _ => false

def isInProgress : StackStatus → Bool
  | .createInProgress => true
  | .rollbackInProgress => true
  | .updateInProgress => true
  | .updateRollbackInProgress => true
  | _ => false

def isFailed : StackStatus → Bool
  | .createFailed => true
  | .rollbackComplete => true
  | .rollbackFailed => true
  | .deleteFailed => true
  | _ => false

def isDeleting : StackStatus → Bool
  | .deleteInProgress => true
  | _ => false

end StackStatus

end IngressControl
