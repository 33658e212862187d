import BankingAgent.Service
import BankingAgent.Rules

/-!
# The protocol of the decision calls

What `approve`, `reject` and the sweep may do where. A position remembers the
session as it was loaded, the grant as it was claimed and the outcome of the tool
call; a move names the statement that is executed there and the answers that lead
on. The walk over the text of the calls is done once, in `decision_follows`; the
proofs about interleavings use the moves only.
-/

namespace BankingAgent

open Async

/-! ## Outcomes of the tool call -/

/-- The three ways a dispatch ends for `approve`. -/
inductive Verdict : Type where
  | succeeded (content : String)
  | failed (error : Option String)
  | raised
  deriving DecidableEq

namespace Verdict

/-- The verdict on what `call_tool` did. -/
def of : Except Exn ToolResult → Verdict
  | .ok r => if r.success then succeeded r.content else failed r.error
  | .error _ => raised

/-- What becomes of the idempotency record. -/
def idem (now : String) : Verdict → IdempotencyUpdate
  | succeeded content => .succeeded content now
  | failed error => .failed (orElse error "unknown") now
  | raised => .unknown

/-- What becomes of the grant. -/
def mark : Verdict → GrantMark
  | succeeded _ => .consumed
  | failed _ => .failed
  | raised => .unknown

/-- What becomes of the session. -/
def status : Verdict → HITLSessionStatus
  | succeeded _ => .resumed
  | failed _ => .failed
  | raised => .failed

/-- What `approve` returns. -/
def result (sid : String) : Verdict → ApprovalResult
  | succeeded content => .ofApproved sid content
  | failed error => .ofError sid ("MCP failed: " ++ error.getD "None")
  | raised => .ofError sid "MCP dispatch failed — outcome unknown"

end Verdict

/-- What `atomic_consume` is called with. -/
def HITLSession.consumeParams (py : PyLib) (s : HITLSession) (sid actorId : String) :
    ConsumeParams :=
  { userId := s.userId, approvingActorId := actorId, threadId := s.threadId, runId := sid,
    checkpointId := "", toolCallId := s.toolCallId, toolName := s.toolName,
    digest := py.digest s.toolArgs, idempotencyKey := s.grantKey, version := 1 }

/-! ## Positions and moves -/

/-- How far a decision call is. -/
inductive Pos : Type where
  /-- nothing has been awaited -/
  | start
  /-- nothing is left to do but to return or raise -/
  | finished
  /-- the session was read and is not terminal -/
  | loaded (s : HITLSession)
  /-- the session without a tool call id was marked; its grant is next -/
  | reconciling (s : HITLSession)
  /-- this call approved the grant -/
  | granted (s : HITLSession) (actorId : String)
  /-- this call approved the session too -/
  | approved (s : HITLSession) (actorId : String)
  /-- this call moved the grant to `CONSUMING` -/
  | consuming (s : HITLSession)
  /-- this call has the claimed grant in hand -/
  | claimed (s : HITLSession) (g : GrantRecord)
  /-- the idempotency record could not be read -/
  | broken
  /-- the idempotency record says `SUCCEEDED` -/
  | replayed (s : HITLSession)
  /-- the idempotency record forbids the dispatch; the grant is next -/
  | denying (s : HITLSession)
  /-- … the session is next -/
  | denied (s : HITLSession)
  /-- the idempotency record allows the dispatch; `retry` if it says `FAILED` -/
  | looked (s : HITLSession) (g : GrantRecord) (retry : Bool)
  /-- the key is reserved; the record is read back next -/
  | reserving (s : HITLSession) (g : GrantRecord) (retry : Bool)
  /-- the tool is called next -/
  | reserved (s : HITLSession) (g : GrantRecord) (retry : Bool)
  /-- the tool was called; the idempotency record is next -/
  | dispatched (s : HITLSession) (retry : Bool) (v : Verdict)
  /-- … the grant is next -/
  | idemMarked (s : HITLSession) (retry : Bool) (v : Verdict)
  /-- … the session is next -/
  | grantMarked (s : HITLSession) (retry : Bool) (v : Verdict)
  /-- the outcome is recorded in all three stores -/
  | closed (s : HITLSession) (retry : Bool) (v : Verdict)
  /-- this call rejected the session; the grant is next -/
  | rejecting (s : HITLSession)
  /-- the session is rejected and the grant was marked -/
  | rejected

/-- The call decides on the session. -/
def Call.Decides (sid : String) : Call → Prop
  | approve sid' _ => sid' = sid
  | reject sid' _ => sid' = sid
  | expireStaleSessions => False

/-- A call decides on one session. -/
theorem Call.Decides.unique {sid sid' : String} {c : Call} (h : c.Decides sid)
    (h' : c.Decides sid') : sid = sid' := by
  cases c with
  | approve => exact Eq.trans (Eq.symm h) h'
  | reject => exact Eq.trans (Eq.symm h) h'
  | expireStaleSessions => exact h.elim

/-- The moves of the decision calls. -/
inductive Move (py : PyLib) : Call → Pos → (o : Op) → o.Res → Pos → Prop
  | idle {c : Call} {p : Pos} {o : Op} (r : o.Res) (quiet : o.Quiet) : Move py c p o r p
  | dismiss {c : Call} {sid : String} (row : Option HITLRow) (dec : c.Decides sid) :
      Move py c .start (.hitl (.select sid)) row .finished
  | load {c : Call} {sid : String} {row : HITLRow} {s : HITLSession} (dec : c.Decides sid)
      (row_eq : row.toSession py = some s) (live : s.isTerminal = false) :
      Move py c .start (.hitl (.select sid)) (some row) (.loaded s)
  | expire {sid : String} {ctx : Option Json} {s : HITLSession} (now : String) (hit : Bool)
      (deadline : s.expiresAt.isSome) :
      Move py (.approve sid ctx) (.loaded s)
        (.hitl (.updateStatus sid .expired now s.version)) hit .finished
  | reconcile {sid : String} {ctx : Option Json} {s : HITLSession} (now : String) (hit : Bool)
      (historical : s.toolCallId = "") :
      Move py (.approve sid ctx) (.loaded s)
        (.hitl (.updateStatus sid .reconciliationRequired now s.version)) hit (.reconciling s)
  | reconcileGrant {sid : String} {ctx : Option Json} {s : HITLSession} (now : String)
      (hit : Bool) :
      Move py (.approve sid ctx) (.reconciling s)
        (.grant (.update (.mark .reconciliationRequired sid now))) hit .finished
  | grant {sid : String} {ctx : Option Json} {s : HITLSession} (actorId now : String)
      (known : s.toolCallId ≠ "") :
      Move py (.approve sid ctx) (.loaded s)
        (.grant (.update (.approvePending sid actorId 1 now))) true (.granted s actorId)
  | grantRefused {sid : String} {ctx : Option Json} {s : HITLSession} (actorId now : String) :
      Move py (.approve sid ctx) (.loaded s)
        (.grant (.update (.approvePending sid actorId 1 now))) false .finished
  | approve {sid : String} {ctx : Option Json} {s : HITLSession} {actorId : String}
      (now : String) :
      Move py (.approve sid ctx) (.granted s actorId)
        (.hitl (.updateStatus sid .approved now s.version)) true (.approved s actorId)
  | approveRefused {sid : String} {ctx : Option Json} {s : HITLSession} {actorId : String}
      (now : String) :
      Move py (.approve sid ctx) (.granted s actorId)
        (.hitl (.updateStatus sid .approved now s.version)) false .finished
  | consume {sid : String} {ctx : Option Json} {s : HITLSession} {actorId : String}
      (now : String) :
      Move py (.approve sid ctx) (.approved s actorId)
        (.grant (.update (.consume sid (s.consumeParams py sid actorId) now))) true (.consuming s)
  | consumeRefused {sid : String} {ctx : Option Json} {s : HITLSession} {actorId : String}
      (now : String) :
      Move py (.approve sid ctx) (.approved s actorId)
        (.grant (.update (.consume sid (s.consumeParams py sid actorId) now))) false .finished
  | claim {sid : String} {ctx : Option Json} {s : HITLSession} (g : GrantRecord) :
      Move py (.approve sid ctx) (.consuming s) (.grant (.selectConsuming sid)) (some g)
        (.claimed s g)
  | claimLost {sid : String} {ctx : Option Json} {s : HITLSession} :
      Move py (.approve sid ctx) (.consuming s) (.grant (.selectConsuming sid)) none .finished
  | lookupNone {sid : String} {ctx : Option Json} {s : HITLSession} {g : GrantRecord} :
      Move py (.approve sid ctx) (.claimed s g) (.idem (.select s.idemKey)) none
        (.looked s g false)
  | lookupFailed {sid : String} {ctx : Option Json} {s : HITLSession} {g : GrantRecord}
      {row : IdempotencyRow} (status : row.status = .failed) :
      Move py (.approve sid ctx) (.claimed s g) (.idem (.select s.idemKey)) (some row)
        (.looked s g true)
  | lookupSucceeded {sid : String} {ctx : Option Json} {s : HITLSession} {g : GrantRecord}
      {row : IdempotencyRow} (status : row.status = .succeeded) :
      Move py (.approve sid ctx) (.claimed s g) (.idem (.select s.idemKey)) (some row)
        (.replayed s)
  | lookupDenied {sid : String} {ctx : Option Json} {s : HITLSession} {g : GrantRecord}
      {row : IdempotencyRow} (open_ : row.status ≠ .failed) (undone : row.status ≠ .succeeded) :
      Move py (.approve sid ctx) (.claimed s g) (.idem (.select s.idemKey)) (some row)
        (.denying s)
  | lookupBroken {sid : String} {ctx : Option Json} {s : HITLSession} {g : GrantRecord}
      {row : IdempotencyRow} (bad : row.toRecord py = none) :
      Move py (.approve sid ctx) (.claimed s g) (.idem (.select s.idemKey)) (some row) .broken
  | deny {sid : String} {ctx : Option Json} {s : HITLSession} (now : String) (hit : Bool) :
      Move py (.approve sid ctx) (.denying s) (.grant (.update (.mark .failed sid now))) hit
        (.denied s)
  | denySession {sid : String} {ctx : Option Json} {s : HITLSession} (now : String)
      (hit : Bool) :
      Move py (.approve sid ctx) (.denied s)
        (.hitl (.updateStatus sid .failed now (s.version + 1))) hit .finished
  | reserve {sid : String} {ctx : Option Json} {s : HITLSession} {g : GrantRecord} {retry : Bool}
      (text now : String) (hit : Bool) :
      Move py (.approve sid ctx) (.looked s g retry)
        (.idem (.reserve s.idemKey s.toolName text now)) hit (.reserving s g retry)
  | reread {sid : String} {ctx : Option Json} {s : HITLSession} {g : GrantRecord} {retry : Bool}
      (row : IdempotencyRow) :
      Move py (.approve sid ctx) (.reserving s g retry) (.idem (.select s.idemKey)) (some row)
        (.reserved s g retry)
  | rereadBroken {sid : String} {ctx : Option Json} {s : HITLSession} {g : GrantRecord}
      {retry : Bool} {row : Option IdempotencyRow}
      (bad : ∀ r, row = some r → r.toRecord py = none) :
      Move py (.approve sid ctx) (.reserving s g retry) (.idem (.select s.idemKey)) row .broken
  | dispatch {sid : String} {ctx : Option Json} {s : HITLSession} {g : GrantRecord} {retry : Bool}
      {args : Json} (answer : Except Exn ToolResult)
      (args_eq : py.loads g.canonicalToolArgs = some args) :
      Move py (.approve sid ctx) (.reserved s g retry)
        (.callTool (.executor sid s.idemKey) ⟨.str g.toolName, args⟩) answer
        (.dispatched s retry (Verdict.of answer))
  | markIdem {sid : String} {ctx : Option Json} {s : HITLSession} {retry : Bool} {v : Verdict}
      (now : String) (hit : Bool) :
      Move py (.approve sid ctx) (.dispatched s retry v)
        (.idem (.update s.idemKey (v.idem now))) hit (.idemMarked s retry v)
  | markGrant {sid : String} {ctx : Option Json} {s : HITLSession} {retry : Bool} {v : Verdict}
      (now : String) (hit : Bool) :
      Move py (.approve sid ctx) (.idemMarked s retry v)
        (.grant (.update (.mark v.mark sid now))) hit (.grantMarked s retry v)
  | markSession {sid : String} {ctx : Option Json} {s : HITLSession} {retry : Bool} {v : Verdict}
      (now : String) (hit : Bool) :
      Move py (.approve sid ctx) (.grantMarked s retry v)
        (.hitl (.updateStatus sid v.status now (s.version + 1))) hit (.closed s retry v)
  | reject {sid : String} {ctx : Option Json} {s : HITLSession} (now : String) :
      Move py (.reject sid ctx) (.loaded s)
        (.hitl (.updateStatus sid .rejected now s.version)) true (.rejecting s)
  | rejectRefused {sid : String} {ctx : Option Json} {s : HITLSession} (now : String) :
      Move py (.reject sid ctx) (.loaded s)
        (.hitl (.updateStatus sid .rejected now s.version)) false .finished
  | rejectGrant {sid : String} {ctx : Option Json} {s : HITLSession} (now : String) (hit : Bool) :
      Move py (.reject sid ctx) (.rejecting s) (.grant (.update (.mark .rejected sid now))) hit
        .rejected
  | sweep (now : String) (n : ℕ) :
      Move py .expireStaleSessions .start (.hitl (.expireStale now)) n .finished

theorem idles_move (py : PyLib) (c : Call) : Idles (Move py c) := fun _ _ r quiet => .idle r quiet

/-! ## How the calls end -/

/-- The call returned an error result, or raised. -/
def Refused (out : Except Exn ApprovalResult) : Prop :=
  ∀ r, out = .ok r → r.error.isSome ∧ r.decision ≠ .approved ∧ r.decision ≠ .rejected

theorem refused_error (e : Exn) : Refused (.error e) := fun _ h => nomatch h

theorem refused_ofError (sid error : String) : Refused (.ok (.ofError sid error)) := by
  rintro _ ⟨⟩
  exact ⟨rfl, nofun, nofun⟩

/-- What a decision on `sid` may return, or raise, at each position. -/
def Pos.Ends (py : PyLib) (sid : String) : Pos → Except Exn ApprovalResult → Prop
  | finished, out => Refused out
  | loaded _, out => Refused out
  | broken, out => Refused out
  | reserved _ g _, out => py.loads g.canonicalToolArgs = none ∧ Refused out
  | replayed _, out => ∃ answer, out = .ok (.ofApproved sid answer)
  | closed _ _ v, out => out = .ok (v.result sid)
  | rejected, out => ∃ r : ApprovalResult, out = .ok r ∧ r.decision = .rejected ∧ r.error = none
  | _, _ => False

/-- The positions at which a rejection ends. -/
def Pos.EndsReject (py : PyLib) (sid : String) (p : Pos) (out : Except Exn ApprovalResult) :
    Prop :=
  p.Ends py sid out ∧ match p with
    | finished => True
    | loaded _ => True
    | rejected => True
    | _ => False

/-- The result of a call, as the service returns it. -/
def Pos.EndsCall (py : PyLib) : Call → Pos → Except Exn Reply → Prop
  | .approve sid _, p, out => ∃ res, out = res.map .approval ∧ p.Ends py sid res
  | .reject sid _, p, out => ∃ res, out = res.map .approval ∧ p.EndsReject py sid res
  | .expireStaleSessions, p, _ => p = .finished

/-! ## The walk -/

section Walk

variable {py : PyLib} {sid : String} {ctx : Option Json} {s : HITLSession} {g : GrantRecord}

/-- Recording the outcome. -/
theorem settle_follows {retry : Bool} (answer : Except Exn ToolResult) :
    Follows (Move py (.approve sid ctx)) (Pos.Ends py sid)
      (HITLApprovalExecutor.settle py s sid s.idemKey answer)
      (.dispatched s retry (Verdict.of answer)) := by
  have idle := idles_move py (.approve sid ctx)
  cases answer with
  | error e =>
    refine Walk.perform fun hit => ⟨_, .markIdem "" hit, ?_⟩
    refine Walk.grantMark idle fun now hit => ⟨_, .markGrant now hit, ?_⟩
    refine Walk.updateStatus idle fun now hit => ⟨_, .markSession now hit, ?_⟩
    exact Walk.persistEvent idle rfl
  | ok r =>
    obtain ⟨name, success, content, error⟩ := r
    cases success with
    | true =>
      refine Walk.markSucceeded idle fun now hit => ⟨_, .markIdem now hit, ?_⟩
      refine Walk.grantMark idle fun now hit => ⟨_, .markGrant now hit, ?_⟩
      refine Walk.updateStatus idle fun now hit => ⟨_, .markSession now hit, ?_⟩
      exact Walk.persistEvent idle rfl
    | false =>
      refine Walk.markFailed idle fun now hit => ⟨_, .markIdem now hit, ?_⟩
      refine Walk.grantMark idle fun now hit => ⟨_, .markGrant now hit, ?_⟩
      refine Walk.updateStatus idle fun now hit => ⟨_, .markSession now hit, ?_⟩
      exact Walk.persistEvent idle rfl

/-- From the reservation to the outcome. -/
theorem dispatch_follows (retry : Bool) :
    Follows (Move py (.approve sid ctx)) (Pos.Ends py sid)
      (HITLApprovalExecutor.dispatch py s sid s.idemKey g) (.looked s g retry) := by
  have idle := idles_move py (.approve sid ctx)
  refine Walk.reserve idle fun text now hit => ⟨_, .reserve text now hit, ?_, ?_, ?_⟩
  · exact ⟨_, .rereadBroken nofun, refused_error _⟩
  · rintro row hrow
    exact ⟨_, .rereadBroken (by rintro _ ⟨⟩; exact hrow), refused_error _⟩
  · intro row _ _
    refine ⟨_, .reread row, ?_⟩
    refine Walk.decoded (fun h => ⟨h, refused_error _⟩) fun args hargs => ?_
    refine Walk.persistEvent idle ?_
    exact Walk.attemptCallTool fun answer => ⟨_, .dispatch answer hargs, settle_follows answer⟩

/-- The idempotency check and what follows from it. -/
theorem checkAndDispatch_follows :
    Follows (Move py (.approve sid ctx)) (Pos.Ends py sid)
      (HITLApprovalExecutor.checkAndDispatch py s sid g) (.claimed s g) := by
  have idle := idles_move py (.approve sid ctx)
  refine Walk.persistEvent idle (Walk.idemGet ?_ ?_ ?_)
  · exact ⟨_, .lookupNone, dispatch_follows false⟩
  · intro row hrow
    exact ⟨_, .lookupBroken hrow, refused_error _⟩
  · intro row r hr
    have hstatus := IdempotencyRow.status_toRecord hr
    obtain ⟨key, status, name, args, result, error, created, completed⟩ := r
    -- the three statuses that deny the dispatch share their continuation
    have denies (hf : row.status ≠ .failed) (hs : row.status ≠ .succeeded) :
        ∃ q, Move py (.approve sid ctx) (.claimed s g) (.idem (.select s.idemKey)) (some row) q ∧
          Follows (Move py (.approve sid ctx)) (Pos.Ends py sid) (do
            GrantRepository.markFailed py sid
            let _ ← SqliteHITLStore.updateStatus py sid .failed (s.version + 1)
            persistEvent sid 2 .checkpoint [("kind", .str "REPLAY_DENIED")]
            return .ofError sid s!"Idempotency {status.value} — fails closed") q := by
      refine ⟨_, .lookupDenied hf hs, ?_⟩
      refine Walk.grantMark idle fun now hit => ⟨_, .deny now hit, ?_⟩
      refine Walk.updateStatus idle fun now hit => ⟨_, .denySession now hit, ?_⟩
      exact Walk.persistEvent idle (refused_ofError _ _)
    subst hstatus
    cases hrow : row.status with
    | succeeded => exact ⟨_, .lookupSucceeded hrow, _, rfl⟩
    | failed => exact ⟨_, .lookupFailed hrow, dispatch_follows true⟩
    | reserved => simpa [hrow] using denies (by simp [hrow]) (by simp [hrow])
    | executing => simpa [hrow] using denies (by simp [hrow]) (by simp [hrow])
    | unknown => simpa [hrow] using denies (by simp [hrow]) (by simp [hrow])

/-- From the approval of the grant on. -/
theorem approveAs_follows (actor : TrustedActor) (known : s.toolCallId ≠ "") :
    Follows (Move py (.approve sid ctx)) (Pos.Ends py sid)
      (HITLApprovalExecutor.approveAs py s sid actor) (.loaded s) := by
  have idle := idles_move py (.approve sid ctx)
  refine Walk.approvePending idle fun now hit => ?_
  cases hit with
  | false => exact ⟨_, .grantRefused _ now, refused_ofError _ _⟩
  | true =>
    refine ⟨_, .grant _ now known, Walk.updateStatus idle fun now hit => ?_⟩
    cases hit with
    | false => exact ⟨_, .approveRefused now, refused_ofError _ _⟩
    | true =>
      refine ⟨_, .approve now, Walk.persistEvent idle ?_⟩
      refine Walk.atomicConsume idle (fun now => ?_) fun now => ?_
      · exact ⟨_, .consumeRefused now, refused_ofError _ _⟩
      · refine ⟨_, .consume now, fun claimed => ?_⟩
        cases claimed with
        | none => exact ⟨_, .claimLost, refused_ofError _ _⟩
        | some g => exact ⟨_, .claim g, checkAndDispatch_follows⟩

/-- The reconciliation gate. -/
theorem reconcile_follows (historical : s.toolCallId = "") :
    Follows (Move py (.approve sid ctx)) (Pos.Ends py sid)
      (HITLApprovalExecutor.reconcile py s sid) (.loaded s) := by
  have idle := idles_move py (.approve sid ctx)
  refine Walk.updateStatus idle fun now hit => ⟨_, .reconcile now hit historical, ?_⟩
  refine Walk.grantMark idle fun now hit => ⟨_, .reconcileGrant now hit, ?_⟩
  refine Walk.persistEvent idle ?_
  rintro _ ⟨⟩
  exact ⟨rfl, nofun, nofun⟩

theorem approve_follows :
    Follows (Move py (.approve sid ctx)) (Pos.Ends py sid)
      (HITLApprovalExecutor.approve py sid ctx) .start := by
  have idle := idles_move py (.approve sid ctx)
  refine Walk.hitlGet ?_ ?_ ?_
  · exact ⟨_, .dismiss none rfl, refused_ofError _ _⟩
  · exact fun row _ => ⟨_, .dismiss (some row) rfl, refused_error _⟩
  · intro row s hrow
    cases hterm : s.isTerminal with
    | true =>
      refine ⟨_, .dismiss (some row) rfl, ?_⟩
      simp only [hterm, if_true]
      exact refused_ofError _ _
    | false =>
      refine ⟨_, .load rfl hrow hterm, ?_⟩
      simp only [hterm, Bool.false_eq_true, if_false]
      refine Walk.isExpired idle (refused_error _) fun expired hexp => ?_
      cases expired with
      | true =>
        refine Walk.updateStatus idle fun now hit => ⟨_, .expire now hit (hexp rfl), ?_⟩
        exact refused_ofError _ _
      | false =>
        simp only [Bool.false_eq_true, if_false]
        by_cases hist : s.toolCallId = ""
        · rw [if_pos hist]
          exact reconcile_follows hist
        · rw [if_neg hist]
          refine Walk.quiet idle trivial fun actor => ?_
          cases actor with
          | none => exact refused_ofError _ _
          | some actor => exact approveAs_follows actor hist

theorem reject_follows :
    Follows (Move py (.reject sid ctx)) (Pos.EndsReject py sid)
      (HITLApprovalExecutor.reject py sid ctx) .start := by
  have idle := idles_move py (.reject sid ctx)
  refine Walk.hitlGet ?_ ?_ ?_
  · exact ⟨_, .dismiss none rfl, refused_ofError _ _, trivial⟩
  · exact fun row _ => ⟨_, .dismiss (some row) rfl, refused_error _, trivial⟩
  · intro row s hrow
    cases hterm : s.isTerminal with
    | true =>
      refine ⟨_, .dismiss (some row) rfl, ?_⟩
      simp only [hterm, if_true]
      exact ⟨refused_ofError _ _, trivial⟩
    | false =>
      refine ⟨_, .load rfl hrow hterm, ?_⟩
      simp only [hterm, Bool.false_eq_true, if_false]
      refine Walk.quiet idle trivial fun actor => ?_
      cases actor with
      | none => exact ⟨refused_ofError _ _, trivial⟩
      | some actor =>
        refine Walk.updateStatus idle fun now hit => ?_
        cases hit with
        | false => exact ⟨_, .rejectRefused now, refused_ofError _ _, trivial⟩
        | true =>
          refine ⟨_, .reject now, Walk.grantMark idle fun now hit => ⟨_, .rejectGrant now hit, ?_⟩⟩
          exact Walk.persistEvent idle ⟨⟨_, rfl, rfl, rfl⟩, trivial⟩

end Walk

/-- Every decision call obeys the protocol, whatever its awaits answer. -/
theorem decision_follows (dep : Deployment) (c : Call) (dec : c.IsDecision) :
    Follows (Move dep.py c) (Pos.EndsCall dep.py c) (code dep c) .start := by
  cases c with
  | approve sid ctx =>
    exact Follows.map (Follows.mono id (fun h => ⟨_, rfl, h⟩) approve_follows)
  | reject sid ctx =>
    exact Follows.map (Follows.mono id (fun h => ⟨_, rfl, h⟩) reject_follows)
  | expireStaleSessions =>
    refine fun t => ⟨_, .idle t trivial, fun n => ⟨_, .sweep _ n, rfl⟩⟩

end BankingAgent
