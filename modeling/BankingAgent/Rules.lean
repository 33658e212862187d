import BankingAgent.Repositories

/-!
# Protocol rules for the store methods

One rule per method: to walk over a call of the method, say where its statement
leads for each of its answers. The looks at the clock and the events on the way
are idle steps, of which every protocol of the service has its own.
-/

namespace BankingAgent

open Async

variable {Pos α : Type} {T : Pos → (o : Op) → o.Res → Pos → Prop} {Q : Pos → Except Exn α → Prop}
  {p : Pos} {py : PyLib} {sid : String}

/-- Quiet operations may be performed anywhere and lead nowhere. -/
def Idles (T : Pos → (o : Op) → o.Res → Pos → Prop) : Prop :=
  ∀ (p : Pos) (o : Op) (r : o.Res), o.Quiet → T p o r p

namespace Walk

/-- An operation leads where the protocol says, for each of its answers. -/
theorem perform {o : Op} {k : o.Res → Co α}
    (h : ∀ r, ∃ q, T p o r q ∧ Follows T Q (k r) q) :
    Follows T Q (perform o >>= k) p := h

/-- A quiet operation leaves the position, whatever it answers. -/
theorem quiet (idle : Idles T) {o : Op} {k : o.Res → Co α} (ho : o.Quiet)
    (h : ∀ r, Follows T Q (k r) p) : Follows T Q (BankingAgent.perform o >>= k) p :=
  fun r => ⟨p, idle p o r ho, h r⟩

/-- A look at the clock. -/
theorem isoNow (idle : Idles T) {k : String → Co α} (h : ∀ now, Follows T Q (k now) p) :
    Follows T Q (isoNow py >>= k) p :=
  fun t => ⟨p, idle p .now t trivial, h _⟩

/-- An event is logged or refused; either way the walk goes on from where it stood. -/
theorem persistEvent (idle : Idles T) {runId : String} {seq : ℕ} {kind : EventKind}
    {payload : List (String × Json)} {k : Unit → Co α} (h : Follows T Q (k ()) p) :
    Follows T Q (persistEvent runId seq kind payload >>= k) p :=
  fun r => ⟨p, idle p (.event _) r trivial, h⟩

/-- A text read as JSON: it raises, or goes on with what it read. -/
theorem decoded {β : Type} {a : Option β} {k : β → Co α}
    (hbad : a = none → Q p (.error .jsonDecode))
    (hok : ∀ b, a = some b → Follows T Q (k b) p) : Follows T Q (decoded a >>= k) p := by
  cases a with
  | none => exact hbad rfl
  | some b => exact hok b rfl

/-- `SqliteHITLStore.get`: no row, a row that is unreadable, or a session. -/
theorem hitlGet {k : Option HITLSession → Co α}
    (hnone : ∃ q, T p (.hitl (.select sid)) none q ∧ Follows T Q (k none) q)
    (hbad : ∀ row : HITLRow, row.toSession py = none →
      ∃ q, T p (.hitl (.select sid)) (some row) q ∧ Q q (.error .jsonDecode))
    (hsome : ∀ (row : HITLRow) (s : HITLSession), row.toSession py = some s →
      ∃ q, T p (.hitl (.select sid)) (some row) q ∧ Follows T Q (k (some s)) q) :
    Follows T Q (SqliteHITLStore.get py sid >>= k) p := by
  intro row
  cases row with
  | none => exact hnone
  | some row =>
    cases hrow : row.toSession py with
    | none =>
      obtain ⟨q, hq, hk⟩ := hbad row hrow
      refine ⟨q, hq, ?_⟩
      simp only [Prog.ret_bind, hrow]
      exact hk
    | some s =>
      obtain ⟨q, hq, hk⟩ := hsome row s hrow
      refine ⟨q, hq, ?_⟩
      simp only [Prog.ret_bind, hrow]
      exact hk

/-- `SqliteHITLStore.update_status`, for both answers of its statement. -/
theorem updateStatus (idle : Idles T) {status : HITLSessionStatus} {v : ℕ} {k : Bool → Co α}
    (h : ∀ now hit, ∃ q, T p (.hitl (.updateStatus sid status now v)) hit q ∧
      Follows T Q (k hit) q) :
    Follows T Q (SqliteHITLStore.updateStatus py sid status v >>= k) p :=
  fun t => ⟨p, idle p .now t trivial, h _⟩

/-- The methods of the grants that mark one. -/
theorem grantMark (idle : Idles T) {m : GrantMark} {k : Unit → Co α}
    (h : ∀ now hit, ∃ q, T p (.grant (.update (.mark m sid now))) hit q ∧
      Follows T Q (k ()) q) :
    Follows T Q (GrantRepository.mark py m sid >>= k) p :=
  fun t => ⟨p, idle p .now t trivial, h _⟩

/-- `approve_pending` of the grants. -/
theorem approvePending (idle : Idles T) {actorId : String} {v : ℕ} {k : Bool → Co α}
    (h : ∀ now hit, ∃ q, T p (.grant (.update (.approvePending sid actorId v now))) hit q ∧
      Follows T Q (k hit) q) :
    Follows T Q (GrantRepository.approvePending py sid actorId v >>= k) p :=
  fun t => ⟨p, idle p .now t trivial, h _⟩

/-- `atomic_consume`: the update misses, or the grant it claimed is read back. -/
theorem atomicConsume (idle : Idles T) {userId actorId threadId runId checkpointId toolCallId
    toolName key : String} {args : Json} {v : ℕ} {k : Option GrantRecord → Co α}
    (hmiss : ∀ now, ∃ q, T p (.grant (.update (.consume sid
      ⟨userId, actorId, threadId, runId, checkpointId, toolCallId, toolName, py.digest args, key, v⟩
      now))) false q ∧ Follows T Q (k none) q)
    (hhit : ∀ now, ∃ q, T p (.grant (.update (.consume sid
      ⟨userId, actorId, threadId, runId, checkpointId, toolCallId, toolName, py.digest args, key, v⟩
      now))) true q ∧
      ∀ claimed, ∃ q', T q (.grant (.selectConsuming sid)) claimed q' ∧
        Follows T Q (k claimed) q') :
    Follows T Q (GrantRepository.atomicConsume py sid userId actorId threadId runId checkpointId
      toolCallId toolName args key v >>= k) p := by
  refine fun t => ⟨p, idle p .now t trivial, fun hit => ?_⟩
  cases hit with
  | false => exact hmiss _
  | true => exact hhit _

/-- `SqliteIdempotencyStore.get`: no row, a row that is unreadable, or a record. -/
theorem idemGet {key : String} {k : Option IdempotencyRecord → Co α}
    (hnone : ∃ q, T p (.idem (.select key)) none q ∧ Follows T Q (k none) q)
    (hbad : ∀ row : IdempotencyRow, row.toRecord py = none →
      ∃ q, T p (.idem (.select key)) (some row) q ∧ Q q (.error .jsonDecode))
    (hsome : ∀ (row : IdempotencyRow) (r : IdempotencyRecord), row.toRecord py = some r →
      ∃ q, T p (.idem (.select key)) (some row) q ∧ Follows T Q (k (some r)) q) :
    Follows T Q (SqliteIdempotencyStore.get py key >>= k) p := by
  intro row
  cases row with
  | none => exact hnone
  | some row =>
    cases hrow : row.toRecord py with
    | none =>
      obtain ⟨q, hq, hk⟩ := hbad row hrow
      refine ⟨q, hq, ?_⟩
      simp only [Prog.ret_bind, hrow]
      exact hk
    | some r =>
      obtain ⟨q, hq, hk⟩ := hsome row r hrow
      refine ⟨q, hq, ?_⟩
      simp only [Prog.ret_bind, hrow]
      exact hk

/-- `reserve`: the record is inserted unless there is one, and what is there then is read. -/
theorem reserve (idle : Idles T) {key toolName : String} {args : Option Json}
    {k : IdempotencyRecord → Co α}
    (h : ∀ text now hit, ∃ q, T p (.idem (.reserve key toolName text now)) hit q ∧
      (∃ q', T q (.idem (.select key)) none q' ∧ Q q' (.error .typeError)) ∧
      (∀ row : IdempotencyRow, row.toRecord py = none →
        ∃ q', T q (.idem (.select key)) (some row) q' ∧ Q q' (.error .jsonDecode)) ∧
      ∀ (row : IdempotencyRow) (r : IdempotencyRecord), row.toRecord py = some r →
        ∃ q', T q (.idem (.select key)) (some row) q' ∧ Follows T Q (k r) q') :
    Follows T Q (SqliteIdempotencyStore.reserve py key toolName args >>= k) p := by
  refine fun t => ⟨p, idle p .now t trivial, fun hit => ?_⟩
  obtain ⟨q, hq, hnone, hbad, hsome⟩ := h (py.dumps (SqliteIdempotencyStore.argsOrEmpty args)) _ hit
  refine ⟨q, hq, fun row => ?_⟩
  cases row with
  | none => exact hnone
  | some row =>
    cases hrow : row.toRecord py with
    | none =>
      obtain ⟨q', hq', hk⟩ := hbad row hrow
      refine ⟨q', hq', ?_⟩
      simp only [Prog.ret_bind, hrow]
      exact hk
    | some r =>
      obtain ⟨q', hq', hk⟩ := hsome row r hrow
      refine ⟨q', hq', ?_⟩
      simp only [Prog.ret_bind, hrow]
      exact hk

/-- `mark_succeeded` of the records. -/
theorem markSucceeded (idle : Idles T) {key result : String} {k : Bool → Co α}
    (h : ∀ now hit, ∃ q, T p (.idem (.update key (.succeeded result now))) hit q ∧
      Follows T Q (k hit) q) :
    Follows T Q (SqliteIdempotencyStore.markSucceeded py key result >>= k) p :=
  fun t => ⟨p, idle p .now t trivial, h _⟩

/-- `mark_failed` of the records. -/
theorem markFailed (idle : Idles T) {key error : String} {k : Bool → Co α}
    (h : ∀ now hit, ∃ q, T p (.idem (.update key (.failed error now))) hit q ∧
      Follows T Q (k hit) q) :
    Follows T Q (SqliteIdempotencyStore.markFailed py key error >>= k) p :=
  fun t => ⟨p, idle p .now t trivial, h _⟩

/-- A tool call whose exceptions are caught. -/
theorem attemptCallTool {site : Site} {call : ToolCall} {k : Except Exn ToolResult → Co α}
    (h : ∀ answer, ∃ q, T p (.callTool site call) answer q ∧ Follows T Q (k answer) q) :
    Follows T Q ((MCPClient.callTool site call).attempt >>= k) p := by
  intro answer
  obtain ⟨q, hq, hk⟩ := h answer
  refine ⟨q, hq, ?_⟩
  cases answer with
  | ok result => exact hk
  | error exc => exact hk

/-- A tool call whose exceptions are not. -/
theorem callTool {site : Site} {call : ToolCall} {k : ToolResult → Co α}
    (hok : ∀ result, ∃ q, T p (.callTool site call) (.ok result) q ∧ Follows T Q (k result) q)
    (herr : ∀ exc, ∃ q, T p (.callTool site call) (.error exc) q ∧ Q q (.error exc)) :
    Follows T Q (MCPClient.callTool site call >>= k) p := by
  intro answer
  cases answer with
  | ok result => exact hok result
  | error exc => exact herr exc

/-- `is_expired`: an unreadable deadline raises, and only a session with a deadline expires. -/
theorem isExpired (idle : Idles T) {s : HITLSession} {k : Bool → Co α}
    (hbad : Q p (.error .valueError))
    (h : ∀ b, (b = true → s.expiresAt.isSome) → Follows T Q (k b) p) :
    Follows T Q (s.isExpired py >>= k) p := by
  rw [HITLSession.isExpired]
  cases hexp : s.expiresAt with
  | none => exact h false nofun
  | some text =>
    by_cases htext : text = ""
    · simp only [htext, if_pos]
      exact h false nofun
    · simp only [htext, if_neg, not_false_eq_true]
      intro t
      refine ⟨p, idle p .now t trivial, ?_⟩
      simp only [Prog.ret_bind]
      cases py.fromisoformat text with
      | none => exact hbad
      | some deadline => exact h _ fun _ => by rw [hexp]; rfl

end Walk

end BankingAgent
