import BankingAgent.ApprovalExecutor
import BankingAgent.Recording
import BankingAgent.Tools

/-!
# The service

The calls that run concurrently against one database, each with the coroutine it
runs. Every claim about interleavings is about the runs of this machine, under a
discipline that says which calls take part and whether the process may die.
-/

namespace BankingAgent

open Async

/-- What is fixed when the service starts. -/
structure Deployment : Type where
  py : PyLib
  toolRegistry : Option ToolRegistry

/-- The calls. -/
inductive Call : Type where
  /-- `HITLApprovalExecutor.approve` -/
  | approve (sessionId : String) (context : Option Json)
  /-- `HITLApprovalExecutor.reject` -/
  | reject (sessionId : String) (context : Option Json)
  /-- `SqliteHITLStore.expire_stale_sessions` -/
  | expireStaleSessions

/-- What a call returns. -/
inductive Reply : Type where
  | approval (r : ApprovalResult)
  | swept (count : ℕ)

/-- The coroutine a call runs. -/
def code (dep : Deployment) : Call → Co Reply
  | .approve sid context => .approval <$> HITLApprovalExecutor.approve dep.py sid context
  | .reject sid context => .approval <$> HITLApprovalExecutor.reject dep.py sid context
  | .expireStaleSessions => .swept <$> SqliteHITLStore.expireStaleSessions dep.py

/-- The service: every call against the one database. -/
def service (dep : Deployment) : Machine Op Op.Res Exn Reply Call Env Db := ⟨exec, code dep⟩

/-- The calls of the human side: decisions and sweeps. -/
def Call.IsDecision : Call → Prop
  | approve _ _ => True
  | reject _ _ => True
  | expireStaleSessions => True

instance : DecidablePred Call.IsDecision
  | .approve _ _ => instDecidableTrue
  | .reject _ _ => instDecidableTrue
  | .expireStaleSessions => instDecidableTrue

/-- The deployment of the concrete runs below: no registry, the library of `demoPy`. -/
def demo : Deployment := ⟨demoPy, none⟩

end BankingAgent
