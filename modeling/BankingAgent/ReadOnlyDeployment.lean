import BankingAgent.Confinement

/-!
# The bootstrapped application only reads

`bootstrap_app` puts `ReadOnlyPolicy` behind the gateway and registers the tools of the bank under
risks it takes from their names. Together they confine every run to the `READ_ONLY` tools: the tool
node and the planner are denied the others, the direct route suggests none, and no call is ever left
waiting for a human.

* `bootstrap_reads_only` — from a database without sessions, whatever is requested and whatever the
  model says, the bank stays as it is and there is never anything to approve.
-/

namespace BankingAgent

open Async

/-! ## The tools that read -/

/-- The handler leaves the repository as it is, unless it raises. -/
def Handler.Reads (handler : Handler) : Prop :=
  ∀ args input repo outcome, handler args input repo = .ok outcome → outcome.2 = repo

theorem strItem_bind {α : Type} {key : String} {args : Json} {f : String → Except HandlerExn α}
    {a : α} (h : (strItem key args >>= f) = .ok a) : ∃ s, f s = .ok a := by
  cases hitem : strItem key args with
  | error exc => rw [hitem] at h; cases h
  | ok s => rw [hitem] at h; exact ⟨s, h⟩

theorem toolGetAccountSummary_reads (lib : BankLib) : (toolGetAccountSummary lib).Reads := by
  intro args input repo outcome h
  obtain ⟨accountId, h⟩ := strItem_bind h
  obtain ⟨userId, h⟩ := strItem_bind h
  cases hacc : repo.ownAccount accountId userId <;> simp only [hacc] at h <;> cases h <;> rfl

theorem toolGetBalance_reads (lib : BankLib) : (toolGetBalance lib).Reads := by
  intro args input repo outcome h
  obtain ⟨accountId, h⟩ := strItem_bind h
  obtain ⟨userId, h⟩ := strItem_bind h
  cases hacc : repo.ownAccount accountId userId <;> simp only [hacc] at h <;> cases h <;> rfl

theorem toolListTransactions_reads (lib : BankLib) : (toolListTransactions lib).Reads := by
  intro args input repo outcome h
  rw [toolListTransactions] at h
  cases hlimit : intItemOr "limit" 20 args with
  | error exc => rw [hlimit] at h; cases h
  | ok limit =>
    rw [hlimit] at h
    obtain ⟨accountId, h⟩ := strItem_bind h
    obtain ⟨userId, h⟩ := strItem_bind h
    cases hacc : repo.ownAccount accountId userId <;> simp only [hacc] at h <;> cases h <;> rfl

theorem toolFindBeneficiary_reads : toolFindBeneficiary.Reads := by
  intro args input repo outcome h
  obtain ⟨beneficiaryId, h⟩ := strItem_bind h
  cases hben : repo.beneficiaries.lookup beneficiaryId <;> simp only [hben] at h <;> cases h <;> rfl

theorem toolGetTransferStatus_reads (lib : BankLib) : (toolGetTransferStatus lib).Reads := by
  intro args input repo outcome h
  obtain ⟨draftId, h⟩ := strItem_bind h
  cases hdraft : repo.transferDrafts.lookup draftId <;> simp only [hdraft] at h <;> cases h <;> rfl

theorem executeTool_of_reads {lib : BankLib} {toolName : String} {handler : Handler}
    (hfn : toolFunction lib toolName = some handler) (hreads : handler.Reads) (args : Json)
    (input : HandlerInput) (repo : StoredBank) :
    (executeTool lib toolName args input repo).2 = repo := by
  rw [executeTool, hfn]
  simp only
  cases hrun : handler args input repo with
  | error exc => rfl
  | ok outcome => exact hreads args input repo outcome hrun

/-- **A `READ_ONLY` tool** leaves the repository as it is, whatever its arguments. -/
theorem executeTool_of_readOnly (lib : BankLib) {toolName : String}
    (h : toolRisk toolName = some .readOnly) (args : Json) (input : HandlerInput)
    (repo : StoredBank) : (executeTool lib toolName args input repo).2 = repo := by
  unfold toolRisk at h
  split at h
  · exact executeTool_of_reads rfl (toolGetAccountSummary_reads lib) args input repo
  · exact executeTool_of_reads rfl (toolGetBalance_reads lib) args input repo
  · exact executeTool_of_reads rfl (toolListTransactions_reads lib) args input repo
  · exact executeTool_of_reads rfl toolFindBeneficiary_reads args input repo
  · cases h
  · exact executeTool_of_reads rfl (toolGetTransferStatus_reads lib) args input repo
  all_goals cases h

/-! ## The confinement -/

/-- The answers of the deployment: the policy's, and that no session is stored. What only an
interrupt raises comes from no client and no model. -/
def ReadOnlyAnswer : (o : Op) → o.Res → Prop
  | .authorize operation, d => d = readOnlyPolicy operation
  | .hitl (.select _), row => row = none
  | .callTool _ _, answer => ∀ payload, answer ≠ .error (.graphInterrupt payload)
  | .llm _, reply => ∀ payload, reply ≠ .error (.graphInterrupt payload)
  | _, _ => True

section Confined

variable {rt : AgentRuntime}

/-- A registered tool that is classified as a read is `READ_ONLY`. -/
theorem readOnly_of_kind (hregistry : rt.toolRegistry = some bootstrapRegistry) {toolName : String}
    (hhas : bootstrapRegistry.has toolName = true) (hkind : rt.operationKind toolName = .read) :
    toolRisk toolName = some .readOnly := by
  obtain ⟨definition, hget⟩ := Option.isSome_iff_exists.mp hhas
  have hname : definition.name = toolName := by simpa using List.find?_some hget
  have heffect : definition.sideEffect = false := by
    by_contra hne
    refine kindFromMetadata_ne_read (t := definition) (by simpa using hne) ?_
    rwa [AgentRuntime.operationKind, hregistry, Option.bind_some, hget] at hkind
  rw [← hname]
  exact (bootstrapSideEffect_iff (List.mem_of_find?_eq_some hget)).mp heffect

/-- The policy denies everything but a read. -/
theorem read_of_not_denied {operation : Operation} {d : AuthorizationDecision}
    (hd : d = readOnlyPolicy operation) (h : d.decision ≠ .denied) : operation.kind = .read := by
  by_contra hkind
  exact h (hd ▸ readOnlyPolicy_denied_iff.mpr hkind)

/-- With the tools of the bank and `ReadOnlyPolicy`, a runtime is confined to the tools that
read. -/
def readOnlyConfinement (hregistry : rt.toolRegistry = some bootstrapRegistry) :
    Confinement rt where
  assumes := ReadOnlyAnswer
  tools name := ∃ toolName, name = .str toolName ∧ toolRisk toolName = some .readOnly
  waits := False
  node := by
    intro tc operation d hvalid hkind hd hdenied
    refine ⟨?_, fun hpending => readOnlyPolicy_ne_pending operation (hd ▸ hpending)⟩
    have hhas := has_of_valid hvalid hregistry
    exact ⟨_, rfl, readOnly_of_kind hregistry hhas (hkind ▸ read_of_not_denied hd hdenied)⟩
  step := by
    intro name operation d hknown hkind hd hdenied
    have hhas := hknown bootstrapRegistry hregistry
    -- what the registry has is a string
    cases name with
    | str toolName =>
      refine ⟨toolName, rfl, readOnly_of_kind hregistry hhas ?_⟩
      rw [stepKind_eq_of_has hregistry hhas, read_of_not_denied hd hdenied] at hkind
      exact Except.ok.inj hkind
    | _ => cases hhas
  direct := by
    intro intent toolName rest hdirect htools
    obtain ⟨toolName', rest', htools', hrisk⟩ := suggestTools_readOnly hdirect
    rw [htools] at htools'
    cases htools'
    exact ⟨_, rfl, hrisk⟩
  client := fun h => h _ rfl
  model := fun h => h _ rfl

/-! ## The requests -/

/-- What is done where nothing waits: the tools that are called only read, and of the sessions and
the grants nothing is written. -/
def Op.OnlyReads : Op → Prop
  | hitl (.select _) => True
  | hitl _ | grant _ | resolveActor _ | interrupt _ _ => False
  | callTool _ call => call.ReadsOnly
  | _ => True

theorem onlyReads_of_records {hregistry : rt.toolRegistry = some bootstrapRegistry} {o : Op}
    (h : (readOnlyConfinement hregistry).Records o) : o.OnlyReads := by
  cases o with
  | hitl o =>
    cases o with
    | insert row => exact h.1.elim
    | select sessionId => exact trivial
    | _ => exact h.elim
  | grant o => cases o <;> exact h.elim
  | callTool site call => exact h.1
  | _ => exact h

/-- What the requests are answered with where nothing waits: no run is suspended, nobody is asked
to approve anything, and there is nothing to decide. -/
def NothingWaits : Request → Except Exn Response → Prop
  | .agent _, .ok (.agent result) => result.interrupt = none
  | .agent _, .ok (.decision _) => False
  | .agent _, .error (.http status _) => status ≠ 202
  | .agent _, .error _ => True
  | .approve _ _, out => out = .error (.http 500 "Session not found")
  | .reject _ _, out => out = .error (.http 500 "Session not found")

theorem serve_reads (hregistry : rt.toolRegistry = some bootstrapRegistry) (req : Request) :
    Relies ReadOnlyAnswer Op.OnlyReads (NothingWaits req) (rt.serve req) := by
  cases req with
  | agent r =>
    refine Relies.bind (fun result h => ?_) (fun exc h => ?_)
      (Relies.weaken onlyReads_of_records
        (Confinement.agentEndpoint_keeps (D := readOnlyConfinement hregistry) (r := r)))
    · cases hinfo : result.interrupt with
      | none => exact hinfo
      | some info => exact (h (by rw [hinfo]; rfl)).elim
    · cases exc with
      | http status detail => exact h
      | _ => exact trivial
  | approve sessionId runId =>
    refine ⟨trivial, fun row hrow => ?_⟩
    obtain rfl := hrow
    exact rfl
  | reject sessionId runId =>
    refine ⟨trivial, fun row hrow => ?_⟩
    obtain rfl := hrow
    exact rfl

end Confined

/-! ## The application -/

/-- The world as it was found: the same bank and the same grants, and no session. -/
structure Untouched (w w' : World) : Prop where
  bank : w'.bank = w.bank
  sessions : w'.db.hitl = .empty
  grants : w'.db.grants = w.db.grants

/-- The bank after an operation of a confined run. -/
theorem bankAfter_of_reads {app : Application} {o : Op} {choice : Choice} {bank : StoredBank}
    (h : o.OnlyReads) : app.bankAfter o choice bank = bank := by
  cases o with
  | callTool site call =>
    cases choice with
    | input i =>
      obtain ⟨toolName, hname, hrisk⟩ := h
      rw [Application.bankAfter, BankingMCPServer.invokeTool, hname]
      exact executeTool_of_readOnly app.lib hrisk call.arguments i bank
    | _ => rfl
  | _ => rfl

/-- The answers of the application, where no session is stored. -/
theorem answer_of_exec {app : Application} (hpolicy : app.policy = readOnlyPolicy) {w w' : World}
    {o : Op} {choice : Choice} {r : o.Res} (hempty : w.db.hitl = .empty)
    (h : app.exec o choice w = some (r, w')) : ReadOnlyAnswer o r := by
  obtain ⟨env, henv, hexec, -⟩ := Application.of_exec h
  generalize w'.db = db' at hexec
  cases o with
  | authorize operation =>
    cases choice <;> cases henv
    cases hexec
    exact congrFun hpolicy operation
  | hitl o =>
    cases o with
    | select sessionId =>
      obtain ⟨rfl, -⟩ := exec_hitl hexec
      rw [ReadOnlyAnswer, HITLOp.exec_select, hempty]
      rfl
    | _ => exact trivial
  | callTool site call =>
    -- the client is the adapter, which raises only when it is not connected
    cases choice <;> cases henv
    cases hexec
    rintro payload ⟨⟩
  | llm messages =>
    cases choice <;> cases henv <;> cases hexec <;> rintro payload ⟨⟩
  | _ => exact trivial

/-- An operation of a confined run leaves the world as it was found. -/
theorem exec_untouched {app : Application} {w w₁ w₂ : World} {o : Op} {choice : Choice}
    {r : o.Res} (hw : Untouched w w₁) (hG : o.OnlyReads)
    (h : app.exec o choice w₁ = some (r, w₂)) : Untouched w w₂ := by
  obtain ⟨env, -, hexec, hbank⟩ := Application.of_exec h
  have hframe := exec_frame hexec
  have hsessions : o.hitlAfter w₁.db.hitl = w₁.db.hitl := by
    cases o with
    | hitl o =>
      cases o with
      | select sessionId => rfl
      | _ => exact hG.elim
    | _ => rfl
  have hgrants : o.grantsAfter w₁.db.grants = w₁.db.grants := by
    cases o with
    | grant o => exact hG.elim
    | _ => rfl
  refine ⟨hbank.trans ((bankAfter_of_reads hG).trans hw.bank), ?_, ?_⟩
  · rw [hframe.1, hsessions, hw.sessions]
  · rw [hframe.2.1, hgrants, hw.grants]

/-- **The bootstrapped application only reads**: from a database without sessions, every call of a
tool is one of a `READ_ONLY` tool, the bank and the grants stay as they are, no session is ever
stored, and no request is left waiting. -/
theorem bootstrap_reads_only (py : PyLib) (lib : BankLib) (resolver : ActorResolver)
    (maxAgentSteps recursionLimit : ℕ) {w : World} (hempty : w.db.hitl = .empty)
    {c : (bootstrapApp py lib resolver maxAgentSteps recursionLimit).machine.Config}
    (h : (bootstrapApp py lib resolver maxAgentSteps recursionLimit).machine.Reach
      (.crashing fun _ => True) (Pool.init w) c) :
    Untouched w c.shared ∧
      (∀ e ∈ c.hist, ∀ site call, e.op = .callTool site call → call.ReadsOnly) ∧
      ∀ i req p out, c.At i req p → p.outcome? = some out → NothingWaits req out := by
  have hregistry : (bootstrapApp py lib resolver maxAgentSteps recursionLimit).toolRegistry =
      some bootstrapRegistry := rfl
  obtain ⟨hshared, hhist, hthreads⟩ := Machine.Reach.relies (J := Untouched w)
    (fun req _ => serve_reads hregistry req) ⟨rfl, hempty, rfl⟩
    (fun hw hG hexec _ => ⟨answer_of_exec rfl hw.sessions hexec, exec_untouched hw hG hexec⟩) h
  refine ⟨hshared, fun e he site call hop => ?_, fun i req p out hat hout => ?_⟩
  · have hG := hhist e he
    rw [hop] at hG
    exact hG
  · have hp := hthreads hat
    cases p with
    | ret a => cases hout; exact hp
    | raise e => cases hout; exact hp
    | op o k => cases hout

/-! ## A run of it -/

section Demo

/-- A bank library of texts. -/
def bootstrapLib : BankLib :=
  ⟨fun _ => floatZero, fun _ => "0.0", toString, fun _ => .invalid, fun _ => "invalid arguments"⟩

/-- A bank without accounts, and an empty database. -/
def bootstrapWorld : World := ⟨Db.empty, ⟨∅, ∅, ∅, ∅, ∅⟩⟩

/-- A request for a balance. -/
def balanceRequest : AgentRequest :=
  ⟨"show balance", none, ⟨"alice", "default"⟩, "run", by decide, "plan"⟩

/-- The model extracts no arguments. -/
def bootstrapChoice : Op → Choice
  | .now => .instant 0
  | .callTool _ _ => .input ⟨0, 0, "id"⟩
  | .llm _ => .reply (.ai (braced "") [])
  | _ => .silent

/-- Somebody asks for a balance, and somebody approves of what nobody asked for. -/
def bootstrapSchedule : List (Machine.Act Request Op Choice) :=
  [.spawn (.agent balanceRequest), .steps 0 20 bootstrapChoice,
    .spawn (.approve "run" "resumed"), .steps 1 5 bootstrapChoice]

/-- The balance was looked up, and there was nothing to approve. -/
def looksUp {M : Machine Op Op.Res Exn Response Request Choice World} (c : M.Config) : Bool :=
  (c.hist.any fun e => match e.op with
    | .callTool .direct call => call.name = .str "get_balance"
    | _ => false) &&
  match M.result? c 1 with
  | some (_, .error (.http status _)) => status = 500
  | _ => false

/-- A request for a balance is served, an approval is turned away, and the bank is as it was. -/
theorem bootstrap_serves_balance :
    ∃ c : (bootstrapApp demoPy bootstrapLib (developmentHeaderResolver "x-approver-identity") 50
        25).machine.Config,
      (bootstrapApp demoPy bootstrapLib (developmentHeaderResolver "x-approver-identity") 50
        25).machine.Reach (.crashing fun _ => True) (Pool.init bootstrapWorld) c ∧
      looksUp c = true ∧ Untouched bootstrapWorld c.shared := by
  have hrun : (((bootstrapApp demoPy bootstrapLib (developmentHeaderResolver "x-approver-identity")
      50 25).machine.run? (.crashing fun _ => True) bootstrapSchedule
      (Pool.init bootstrapWorld)).map looksUp).getD false = true := by decide +kernel
  obtain ⟨c, hreach, hc⟩ := Machine.exists_reach_of_run? hrun
  exact ⟨c, hreach, hc, (bootstrap_reads_only _ _ _ _ _ rfl hreach).1⟩

end Demo

end BankingAgent
