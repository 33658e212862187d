import BankingAgent.AuthorizedEffects
import BankingAgent.Banking.Repository

/-!
# The direct route

The direct route asks nobody before it calls a tool. What keeps it harmless is the agreement of
three tables: an intent that goes the direct way suggests tools that only read.

* `direct_route_reads` — whatever the message says, and whatever a model makes of it, the tool
  that is called is `READ_ONLY`, and a call of such a tool leaves the repository as it is.
-/

namespace BankingAgent

open Async

/-! ## The risk of a tool -/

/-- `RiskClassification`. -/
inductive RiskClassification : Type where
  | readOnly
  | reversibleWrite
  | sideEffecting
  | highRisk
  deriving DecidableEq, Repr

/-- `TOOL_RISK`; it has no entry for any other tool. -/
def toolRisk : String → Option RiskClassification
  | "get_account_summary" => some .readOnly
  | "get_balance" => some .readOnly
  | "list_transactions" => some .readOnly
  | "find_beneficiary" => some .readOnly
  | "create_transfer_draft" => some .reversibleWrite
  | "get_transfer_status" => some .readOnly
  | "cancel_transfer" => some .sideEffecting
  | "report_suspicious_transaction" => some .sideEffecting
  | "submit_transfer" => some .highRisk
  | _ => none

/-- The name a tool is registered under. -/
def BankingTool.name : BankingTool → String
  | getAccountSummary _ => "get_account_summary"
  | getBalance _ => "get_balance"
  | listTransactions _ _ => "list_transactions"
  | findBeneficiary _ => "find_beneficiary"
  | createTransferDraft _ _ _ _ _ _ => "create_transfer_draft"
  | submitTransfer _ => "submit_transfer"
  | cancelTransfer _ => "cancel_transfer"
  | getTransferStatus _ => "get_transfer_status"
  | reportSuspiciousTransaction _ _ _ => "report_suspicious_transaction"

/-- **A `READ_ONLY` tool** leaves the repository as it is. -/
theorem Invocation.exec_of_readOnly (fmt : TextFormat) {i : Invocation}
    (h : toolRisk i.tool.name = some .readOnly) (repo : BankingRepository) :
    (i.exec fmt repo).2 = repo := by
  rw [Invocation.exec]
  cases htool : i.tool with
  | getAccountSummary accountId => simp only; cases repo.ownAccount accountId i.user <;> rfl
  | getBalance accountId => simp only; cases repo.ownAccount accountId i.user <;> rfl
  | listTransactions accountId limit =>
    simp only
    cases repo.listTransactions accountId i.user (limit.getD 20) <;> rfl
  | findBeneficiary beneficiaryId =>
    simp only
    cases repo.beneficiaries.lookup beneficiaryId <;> rfl
  | getTransferStatus draftId => simp only; cases repo.transferDrafts.lookup draftId <;> rfl
  | reportSuspiciousTransaction => rfl
  | _ =>
    -- the writing tools have another risk
    rw [htool] at h
    simp [BankingTool.name, toolRisk] at h

/-! ## The tables agree -/

/-- An intent that goes the direct way suggests a tool, and the first one only reads. -/
theorem suggestTools_readOnly {intent : Intent} (h : routeKind intent = .direct) :
    ∃ toolName rest, suggestTools intent = toolName :: rest ∧
      toolRisk toolName = some .readOnly := by
  cases intent with
  | accountQuery => exact ⟨_, _, rfl, rfl⟩
  | transactionQuery => exact ⟨_, _, rfl, rfl⟩
  | beneficiaryQuery => exact ⟨_, _, rfl, rfl⟩
  | transferStatus => exact ⟨_, _, rfl, rfl⟩
  | _ => cases h

/-! ## The calls of the direct route -/

/-- The call is one of a `READ_ONLY` tool. -/
def ToolCall.ReadsOnly (call : ToolCall) : Prop :=
  ∃ toolName, call.name = .str toolName ∧ toolRisk toolName = some .readOnly

/-- If it is a call of a tool, the tool only reads. -/
def Op.Reads : Op → Prop
  | callTool _ call => call.ReadsOnly
  | _ => True

/-- The run goes the direct way. -/
def AgentRuntime.GoesDirect (rt : AgentRuntime) (args : RunArgs) : Prop :=
  args.resumeFromState = none ∧ ∃ route, rt.routeOf args = some route ∧ route.kind = .direct

section Walk

variable {rt : AgentRuntime} {args : RunArgs}

theorem persistEvent_reads {runId : String} {seq : ℕ} {kind : EventKind}
    {payload : List (String × Json)} : (persistEvent runId seq kind payload).Only Op.Reads :=
  ⟨trivial, fun _ => trivial⟩

theorem executeDirect_reads {toolName : String} (hrisk : toolRisk toolName = some .readOnly) :
    (rt.executeDirect args toolName).Only Op.Reads := by
  unfold AgentRuntime.executeDirect
  extract_lets unauthenticated
  split
  · exact trivial
  · refine ⟨trivial, fun reply => ?_⟩
    simp only [Prog.ret_bind]
    split
    · exact trivial
    · rename_i extracted _
      cases AgentRuntime.injectIdentity toolName args.trustedContext extracted with
      | error exc => exact trivial
      | ok toolArgs =>
        refine ⟨⟨toolName, rfl, hrisk⟩, fun answer => ?_⟩
        cases answer with
        | error exc => exact trivial
        | ok result => exact ⟨trivial, fun _ => trivial⟩

theorem runRoute_reads {intent : Intent} (hresume : args.resumeFromState = none)
    (hdirect : routeKind intent = .direct) :
    (rt.runRoute args (routeFromIntent intent)).Only Op.Reads := by
  obtain ⟨toolName, rest, htools, hrisk⟩ := suggestTools_readOnly hdirect
  rw [AgentRuntime.runRoute]
  simp only [routeFromIntent, hdirect, hresume, htools]
  exact executeDirect_reads hrisk

theorem run_reads (h : rt.GoesDirect args) : (rt.run args).Only Op.Reads := by
  obtain ⟨hresume, route, hroute, hdirect⟩ := h
  rw [AgentRuntime.run]
  cases hrouter : rt.router with
  | none => rw [AgentRuntime.routeOf, hrouter] at hroute; cases hroute
  | some router =>
    rw [AgentRuntime.routeOf, hrouter] at hroute
    obtain rfl := Option.some.inj hroute
    have routed : (rt.runRoute args (router.route rt.py args.userMessage)).Only Op.Reads :=
      runRoute_reads hresume hdirect
    simp only [hresume]
    exact persistEvent_reads.bind fun _ => persistEvent_reads.bind fun _ => routed

end Walk

/-- **The direct route only reads**: for every message and every model the classifier may fall
back on, the first tool that is suggested is `READ_ONLY`, no run calls another one, and a call
of it changes nothing. -/
theorem direct_route_reads (rt : AgentRuntime) (fmt : TextFormat) :
    (∀ (router : Router) (message : String), (router.route rt.py message).kind = .direct →
      ∃ toolName rest, (router.route rt.py message).suggestedTools = toolName :: rest ∧
        toolRisk toolName = some .readOnly) ∧
    (∀ args es c, rt.GoesDirect args → Trace (rt.run args) es c →
      ∀ site call answer, ⟨.callTool site call, answer⟩ ∈ es → call.ReadsOnly) ∧
    ∀ (i : Invocation) (repo : BankingRepository), toolRisk i.tool.name = some .readOnly →
      (i.exec fmt repo).2 = repo :=
  ⟨fun _ _ h => suggestTools_readOnly h,
    fun _ _ _ hdirect ht _ _ _ he => (run_reads hdirect).trace ht _ he,
    fun _ repo h => Invocation.exec_of_readOnly fmt h repo⟩

/-- The tool that is asked for the balance is called. -/
def asksBalance (es : List (Event Op Op.Res)) : Bool :=
  es.any fun e =>
    match e.op with
    | .callTool .direct call => call.name = .str "get_balance"
    | _ => false

/-- A request for a balance takes the direct way to the end, and only reads. -/
theorem balance_request_reads :
    ∃ es c, Trace ((registeredRuntime demoPy).run (firstRequest "balance")) es c ∧
      asksBalance es = true ∧
      ∀ site call answer, ⟨.callTool site call, answer⟩ ∈ es → call.ReadsOnly := by
  have hrun : ((runAlone exec (answering (.ai (demoDumps demoArgs) []) .approved) 40
    ((registeredRuntime demoPy).run (firstRequest "balance")) Db.empty).map
    fun x => asksBalance x.1).getD false = true := by decide +kernel
  obtain ⟨es, c, ht, hes⟩ := exists_trace (P := asksBalance) hrun
  have hdirect : (registeredRuntime demoPy).GoesDirect (firstRequest "balance") :=
    ⟨rfl, _, rfl, by decide +kernel⟩
  exact ⟨es, c, ht, hes,
    (direct_route_reads (registeredRuntime demoPy) ⟨toString, fun _ => ""⟩).2.1 _ es c hdirect ht⟩

end BankingAgent
