import BankingAgent.Numbers.IsoFormat
import BankingAgent.Stores.Grant
import BankingAgent.Stores.Hitl

/-!
# Three tests of a deadline

Whether a deadline has passed is decided in three places: `HITLSession.is_expired` compares
moments, `atomic_consume` and `expire_stale_sessions` compare their texts. The texts are ordered
like the moments, so only the moment of the deadline itself can be judged in two ways; there
`atomic_consume` takes the deadline for passed, and the two others do not.

* `tests_agree_iff` — the three tests agree exactly if the clock does not stand at the deadline.
-/

namespace BankingAgent

open UtcDatetime

/-! ## The tests -/

/-- `HITLSession.is_expired` at a reading of the clock; `none` stands for `ValueError`. -/
def HITLSession.isExpiredAt (s : HITLSession) (now : UtcDatetime) : Option Bool :=
  match s.expiresAt with
  | none => some false
  | some text =>
    if text = "" then some false
    else (fromisoformat text).map fun deadline => decide (deadline < now)

/-- The three tests of the deadline `e` at the time `t` give one verdict, on every session, on
every grant that matches but for its deadline, and on every row that is pending. -/
def TestsAgree (e t : UtcDatetime) : Prop :=
  ∀ (s : HITLSession) (p : ConsumeParams) (g : GrantRecord) (row : HITLRow),
    (GrantRecord.consume p t.isoformat).guard { g with expiresAt := none } = true →
    row.status = .pending →
      ∃ passed : Bool,
        HITLSession.isExpiredAt { s with expiresAt := some e.isoformat } t = some passed ∧
        (GrantRecord.consume p t.isoformat).guard { g with expiresAt := some e.isoformat } =
          !passed ∧
        (HITLRow.expireStale t.isoformat).guard { row with expiresAt := some e.isoformat } = passed

/-! ## Their verdicts -/

section Verdicts

variable {e t : UtcDatetime}

theorem isoformat_ne_empty (e : UtcDatetime) : e.isoformat ≠ "" := by
  intro h
  have htext := congrArg String.toList h
  simp [isoformat, fixedDigits] at htext

/-- The session has expired if its deadline comes before the reading. -/
theorem isExpiredAt_isoformat (s : HITLSession) :
    HITLSession.isExpiredAt { s with expiresAt := some e.isoformat } t = some (decide (e < t)) := by
  simp [HITLSession.isExpiredAt, isoformat_ne_empty, fromisoformat_isoformat]

/-- The grant is consumed if its deadline comes after the reading. -/
theorem consume_isoformat {p : ConsumeParams} {g : GrantRecord}
    (h : (GrantRecord.consume p t.isoformat).guard { g with expiresAt := none } = true) :
    (GrantRecord.consume p t.isoformat).guard { g with expiresAt := some e.isoformat } =
      decide (t < e) := by
  have hguard : (GrantRecord.consume p t.isoformat).guard
        { g with expiresAt := some e.isoformat } =
      ((GrantRecord.consume p t.isoformat).guard { g with expiresAt := none } &&
        decide (t.isoformat < e.isoformat)) := by
    simp [GrantRecord.consume]
  rw [hguard, h, Bool.true_and, decide_eq_decide]
  exact isoformat_lt_iff t e

/-- The row is swept if its deadline comes before the reading. -/
theorem expireStale_isoformat {row : HITLRow} (h : row.status = .pending) :
    (HITLRow.expireStale t.isoformat).guard { row with expiresAt := some e.isoformat } =
      decide (e < t) := by
  simp only [HITLRow.expireStale, h, decide_true, Bool.true_and, decide_eq_decide]
  exact isoformat_lt_iff e t

theorem testsAgree_of_ne (h : e ≠ t) : TestsAgree e t := by
  intro s p g row hgrant hrow
  refine ⟨decide (e < t), isExpiredAt_isoformat s, ?_, expireStale_isoformat hrow⟩
  rw [consume_isoformat hgrant, ← decide_not, decide_eq_decide, not_lt]
  exact ⟨le_of_lt, fun hle => hle.lt_of_ne h.symm⟩

/-- A session without a deadline. -/
def openSession : HITLSession :=
  { sessionId := "s", userId := "alice", threadId := "t", status := .pending,
    toolName := "submit_transfer", toolArgs := .obj [], authorizationDecision := none,
    approvalRequirement := none, idempotencyKey := none, version := 1, createdAt := "",
    updatedAt := "", expiresAt := none, toolCallId := "call-1" }

/-- A grant that is approved. -/
def openGrant : GrantRecord :=
  { sessionId := "s", requestingUserId := "alice", approvingActorId := "bob", threadId := "t",
    runId := none, checkpointId := none, toolCallId := "call-1", toolName := "submit_transfer",
    canonicalToolArgs := "", argumentDigest := "", idempotencyKey := "", decision := "approved",
    status := .approved, createdAt := "", approvedAt := none, expiresAt := none,
    consumingAt := none, consumedAt := none, failedAt := none, version := 1 }

/-- What it is asked for. -/
def openParams : ConsumeParams :=
  ⟨"alice", "bob", "t", "", "", "call-1", "submit_transfer", "", "", 1⟩

/-- At the deadline the grant is not consumed, and the session has not expired. -/
theorem not_testsAgree_self (t : UtcDatetime) : ¬ TestsAgree t t := by
  intro h
  obtain ⟨passed, hsession, hgrant, -⟩ :=
    h openSession openParams openGrant { openSession with toolArgs := "" } rfl rfl
  rw [isExpiredAt_isoformat, Option.some_inj] at hsession
  rw [consume_isoformat rfl, ← hsession] at hgrant
  simp at hgrant

end Verdicts

/-- **Three tests of a deadline** agree at every time but the deadline itself. -/
theorem tests_agree_iff (e t : UtcDatetime) : TestsAgree e t ↔ e ≠ t := by
  refine ⟨?_, testsAgree_of_ne⟩
  rintro h rfl
  exact not_testsAgree_self e h

/-- A deadline. -/
def demoDeadline : UtcDatetime :=
  { year := 2027, month := 6, day := 7, hour := 8, minute := 9, second := 10, microsecond := 11,
    year_lt := by decide, month_lt := by decide, day_lt := by decide, hour_lt := by decide,
    minute_lt := by decide, second_lt := by decide, microsecond_lt := by decide }

/-- At its deadline a session is still open, and its grant cannot be consumed any more. -/
theorem grant_over_before_session :
    HITLSession.isExpiredAt { openSession with expiresAt := some demoDeadline.isoformat }
        demoDeadline = some false ∧
      (GrantRecord.consume openParams demoDeadline.isoformat).guard
        { openGrant with expiresAt := some demoDeadline.isoformat } = false ∧
      ¬ TestsAgree demoDeadline demoDeadline :=
  ⟨by decide +kernel, by decide +kernel, not_testsAgree_self demoDeadline⟩

end BankingAgent
