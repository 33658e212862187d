import BankingAgent.Json

/-!
# `auth.py`, `actor_resolver.py`: who decides

A gateway wraps a policy, a deterministic decision procedure chosen at
deployment. Nothing below fixes one: a decision is an answer of the environment.
-/

namespace BankingAgent

/-- `ApprovalDecision`. -/
inductive ApprovalDecision : Type where
  | approved
  | denied
  | pending
  deriving DecidableEq, Repr

/-- `OperationKind`. -/
inductive OperationKind : Type where
  | read
  | write
  | transfer
  | delete
  | config
  deriving DecidableEq, Repr

/-- `Operation`, named as the tool is. -/
structure Operation : Type where
  kind : OperationKind
  name : Json
  target : String
  details : Json

/-- `AuthorizationDecision`, without its audit columns. -/
structure AuthorizationDecision : Type where
  decision : ApprovalDecision
  reason : String

/-- `TrustedActor`. -/
structure TrustedActor : Type where
  actorId : String
  source : String

end BankingAgent
