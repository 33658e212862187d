import BankingAgent.Async.Sequential
import BankingAgent.GraphProtocol

/-!
# Which calls the tool node dispatches

Five gates stand before the tool server, and `_tool_node` puts every call through them,
one call after the other. What an earlier call leaves behind, its id among the executed
ones and its record, is nothing to a later one with another id: so each call is judged by
what was there when the node began.

* `AgentRuntime.PassesGates` — the gates, for one call.
* `GatesUntouched` — the invariant of the loop.
* `tool_node_exact` — one answer for each call, and a dispatch for those that pass.
-/

namespace BankingAgent

open Async

/-! ## The gates -/

/-- `message.tool_call_id`, of a `ToolMessage`. -/
def Message.toolCallId? : Message → Option String
  | tool _ toolCallId _ => some toolCallId
  | _ => none

/-- The tool server is called. -/
def Op.callsTool : Op → Bool
  | callTool _ _ => true
  | _ => false

/-- A record with the status keeps a call of the kind from being executed. -/
def RecordStops (kind : OperationKind) (status : Option IdempotencyStatus) : Prop :=
  status = some .succeeded ∨ (status = some .executing ∨ status = some .unknown) ∧ kind ≠ .read

namespace AgentRuntime

variable (rt : AgentRuntime) (s : AgentState)

/-- The operation the gateway is asked about. -/
def operationOf (tc : ToolRequest) : Operation :=
  ⟨rt.operationKind tc.name, .str tc.name, s!"tool:{tc.name}", .obj [("args", tc.args)]⟩

/-- The status of the durable record of the call, if there is one. -/
def recordStatus (db : Db) (tc : ToolRequest) : Option IdempotencyStatus :=
  (rt.recordKey s.sessionId tc.id).bind db.idem.status?

/-- Among the events are an approval of the call by the gateway, or its request for a
human and an answer that approves. -/
def ApprovedIn (tc : ToolRequest) (es : List (Event Op Op.Res)) : Prop :=
  ∃ d : AuthorizationDecision, ⟨.authorize (rt.operationOf tc), d⟩ ∈ es ∧
    (d.decision = .approved ∨ d.decision = .pending ∧
      ∃ v : Json, ⟨.interrupt (interruptPayload s.sessionId tc) (some v), ()⟩ ∈ es ∧
        v.get? "decision" = some (.str "approved"))

/-- The gates let the call through that is handled in the events, with what was executed
before and with the database as it was before. -/
structure PassesGates (executedIds : List String) (db : Db) (tc : ToolRequest)
    (es : List (Event Op Op.Res)) : Prop where
  valid : rt.validationError tc = none
  fresh : tc.id ∉ executedIds
  approved : rt.ApprovedIn s tc es
  record : ¬ RecordStops (rt.operationKind tc.name) (rt.recordStatus s db tc)

/-- The call is sent to the tool server, with arguments that an approval may have given. -/
def Dispatches (tc : ToolRequest) (e : Event Op Op.Res) : Prop :=
  ∃ args, e.op = .callTool (.node s.messages.length tc.id (rt.recordKey s.sessionId tc.id))
    ⟨.str tc.name, args⟩

/-- The events handle one call: no other is dispatched, and it is where the gates let it
through. -/
structure HandledExactly (executedIds : List String) (db : Db) (tc : ToolRequest)
    (es : List (Event Op Op.Res)) : Prop where
  own : ∀ e ∈ es, e.op.callsTool = true → rt.Dispatches s tc e
  exact : (∃ e ∈ es, rt.Dispatches s tc e) ↔ rt.PassesGates s executedIds db tc es

end AgentRuntime

/-! ## One call -/

section Call

variable {rt : AgentRuntime} {s : AgentState} {db db' : Db} {tc : ToolRequest}
  {es : List (Event Op Op.Res)}

/-- Neither the gateway nor a human changes the database. -/
theorem exec_authorize {operation : Operation} {env : Env} {d : AuthorizationDecision}
    (h : exec (.authorize operation) env db = some (d, db')) : db' = db := by
  cases env <;> cases h
  rfl

theorem exec_interrupt {payload : Json} {answer : Option Json} {env : Env} {r : Unit}
    (h : exec (.interrupt payload answer) env db = some (r, db')) : db' = db := by
  cases env <;> cases h
  rfl

/-- An answer goes ahead exactly if it approves, with the same call but for its arguments. -/
theorem readApproval_goes_ahead_iff {py : PyLib} {approval : Json} :
    (∃ call, readApproval py tc approval = .ok call) ↔
      approval.get? "decision" = some (.str "approved") := by
  constructor
  · rintro ⟨call, h⟩
    rw [readApproval] at h
    split at h
    · assumption
    · cases h
    · cases h
  · intro h
    exact ⟨_, by simp only [readApproval, h]; rfl⟩

/-- What `authorizeCall` lets through is the call it was asked about. -/
def SameCall (tc call : ToolRequest) : Prop := call.id = tc.id ∧ call.name = tc.name

theorem sameCall_of_readApproval {py : PyLib} {approval : Json} {call : ToolRequest}
    (h : readApproval py tc approval = .ok call) : SameCall tc call := by
  rw [readApproval] at h
  split at h <;> cases h
  exact ⟨rfl, rfl⟩

/-- **The gateway**: it goes ahead exactly if the events say so. -/
theorem authorizeCall_run {resumes : List Json} {n m : ℕ} {gate : Except Answer ToolRequest}
    (run : Runs exec (rt.authorizeCall s.sessionId resumes n tc) db es (.ok (gate, m)) db') :
    db' = db ∧ (∀ e ∈ es, e.op.callsTool = false) ∧
      ((∃ call, gate = .ok call) ↔ rt.ApprovedIn s tc es) ∧
      ∀ call, gate = .ok call → SameCall tc call := by
  obtain ⟨env, d, db₁, es₁, he, rfl, run₁⟩ := Runs.of_op run
  obtain rfl := exec_authorize he
  simp only [Prog.ret_bind] at run₁
  cases hd : d.decision with
  | approved =>
    simp only [hd] at run₁
    obtain ⟨rfl, hout, rfl⟩ := run₁.of_ret
    cases hout
    refine ⟨rfl, by simp [Op.callsTool], ⟨fun _ => ?_, fun _ => ⟨tc, rfl⟩⟩, ?_⟩
    · exact ⟨d, List.mem_cons_self, .inl hd⟩
    · rintro _ ⟨⟩
      exact ⟨rfl, rfl⟩
  | denied =>
    simp only [hd] at run₁
    obtain ⟨rfl, hout, rfl⟩ := run₁.of_ret
    cases hout
    refine ⟨rfl, by simp [Op.callsTool], ⟨?_, ?_⟩, ?_⟩
    · rintro ⟨call, ⟨⟩⟩
    · rintro ⟨d', hmem, hdecision⟩
      obtain ⟨⟩ := List.mem_singleton.mp hmem
      rcases hdecision with h | ⟨h, -⟩
      · rw [hd] at h
        cases h
      · rw [hd] at h
        cases h
    · rintro _ ⟨⟩
  | pending =>
    simp only [hd] at run₁
    obtain ⟨env₂, r, db₂, es₂, he₂, rfl, run₂⟩ := Runs.of_op run₁
    obtain rfl := exec_interrupt he₂
    cases hanswer : resumes[n]? with
    | none =>
      simp only [hanswer] at run₂
      cases run₂
    | some v =>
      simp only [hanswer] at run₂
      obtain ⟨rfl, hout, rfl⟩ := run₂.of_ret
      obtain ⟨hgate, -⟩ := Prod.ext_iff.mp (Except.ok.inj hout)
      obtain rfl : gate = readApproval rt.py tc v := hgate
      refine ⟨rfl, by simp [Op.callsTool], ?_, fun call h => sameCall_of_readApproval h⟩
      rw [readApproval_goes_ahead_iff]
      constructor
      · intro h
        exact ⟨d, List.mem_cons_self, .inr ⟨hd, v, by simp, h⟩⟩
      · rintro ⟨d', hmem, hdecision⟩
        obtain ⟨-, rfl⟩ : rt.operationOf tc = _ ∧ d' = d := by simpa using hmem
        rcases hdecision with h | ⟨-, v', hmem', h⟩
        · rw [hd] at h
          cases h
        · have hv : v' = v := by simpa using hmem'
          rwa [hv] at h

theorem Op.OnRecords.callsTool_eq {o : Op} (h : o.OnRecords) : o.callsTool = false := by
  cases o <;> first | rfl | exact h.elim

/-- What is read back has the status that is stored. -/
theorem idemGet_run {py : PyLib} {key : String} {existing : Option IdempotencyRecord}
    (run : Runs exec (SqliteIdempotencyStore.get py key) db es (.ok existing) db') :
    existing.map (·.status) = db.idem.status? key := by
  obtain ⟨env, row, db₁, es₁, he, rfl, run₁⟩ := Runs.of_op run
  obtain ⟨rfl, rfl⟩ := exec_idem he
  rw [IdempotencyTable.status?]
  simp only [IdempotencyOp.exec, Prog.ret_bind] at run₁
  cases hrow : db.idem.get key with
  | none =>
    simp only [hrow] at run₁
    obtain ⟨-, hout, -⟩ := run₁.of_ret
    cases hout
    rfl
  | some row =>
    simp only [hrow] at run₁
    cases hrecord : row.toRecord py with
    | none =>
      simp only [hrecord] at run₁
      cases run₁
    | some record =>
      simp only [hrecord] at run₁
      obtain ⟨-, hout, -⟩ := run₁.of_ret
      cases hout
      exact congrArg some (IdempotencyRow.status_toRecord hrecord)

/-- **The record**: the call is left alone exactly if the record stops it. -/
theorem checkRecord_run {kind : OperationKind} {key : Option String} {answer : Option Answer}
    (run : Runs exec (rt.checkRecord kind key) db es (.ok answer) db') :
    answer = none ↔ ¬ RecordStops kind (key.bind db.idem.status?) := by
  cases key with
  | none =>
    obtain ⟨-, hout, -⟩ := run.of_ret
    cases hout
    simp [RecordStops]
  | some key =>
    obtain ⟨existing, es₁, es₂, db₁, rfl, hget, hrest⟩ := Runs.of_bind run
    have hstatus := idemGet_run hget
    rw [Option.bind_some, ← hstatus]
    cases existing with
    | none =>
      obtain ⟨-, hout, -⟩ := hrest.of_ret
      cases hout
      simp [RecordStops]
    | some existing =>
      simp only at hrest
      have retried (hrest : Runs exec (SqliteIdempotencyStore.markExecuting key >>= fun _ =>
          (Prog.ret none : Co (Option Answer))) db₁ es₂ (.ok answer) db') : answer = none := by
        obtain ⟨_, _, _, _, _, _, hret⟩ := Runs.of_bind hrest
        obtain ⟨-, hout, -⟩ := hret.of_ret
        exact Except.ok.inj hout
      cases hst : existing.status with
      | succeeded =>
        simp only [hst] at hrest
        obtain ⟨-, hout, -⟩ := hrest.of_ret
        cases hout
        simp [RecordStops, hst]
      | failed =>
        simp only [hst] at hrest
        simp [RecordStops, hst, retried hrest]
      | reserved =>
        simp only [hst] at hrest
        simp [RecordStops, hst, retried hrest]
      | executing =>
        simp only [hst] at hrest
        obtain ⟨-, hout, -⟩ := hrest.of_ret
        cases hout
        by_cases hkind : kind = .read <;> simp [RecordStops, hst, hkind]
      | unknown =>
        simp only [hst] at hrest
        obtain ⟨-, hout, -⟩ := hrest.of_ret
        cases hout
        by_cases hkind : kind = .read <;> simp [RecordStops, hst, hkind]

/-- Executing a call sends it to the tool server. -/
theorem executeCall_run {number : ℕ} {key : Option String} {result : ToolResult}
    (run : Runs exec (rt.executeCall number key tc) db es (.ok result) db') :
    ∃ e ∈ es, e.op.callsTool = true := by
  obtain ⟨_, es₁, es₂, _, rfl, -, hrest⟩ := Runs.of_bind run
  obtain ⟨_, es₃, es₄, _, rfl, hcall, -⟩ := Runs.of_bind hrest
  obtain ⟨_, r, _, es₅, -, rfl, -⟩ := Runs.of_op hcall
  exact ⟨_, List.mem_append_right _ List.mem_cons_self, rfl⟩

/-- **An approved call** is sent to the tool server exactly if its record does not stop it. -/
theorem answerCall_run {number : ℕ} {sessionId : Option String} {answer : Answer}
    (run : Runs exec (rt.answerCall number sessionId tc) db es (.ok answer) db') :
    (∃ e ∈ es, e.op.callsTool = true) ↔
      ¬ RecordStops (rt.operationKind tc.name)
        ((rt.recordKey sessionId tc.id).bind db.idem.status?) := by
  obtain ⟨known, es₁, es₂, db₁, rfl, hcheck, hrest⟩ := Runs.of_bind run
  have honly := (checkRecord_onRecords _).runs hcheck
  rw [← checkRecord_run hcheck]
  cases known with
  | some known =>
    obtain ⟨rfl, -, -⟩ := hrest.of_ret
    refine ⟨?_, fun h => nomatch h⟩
    rintro ⟨e, he, hcalls⟩
    rw [List.append_nil] at he
    rw [(honly e he).callsTool_eq] at hcalls
    cases hcalls
  | none =>
    obtain ⟨result, es₃, es₄, _, rfl, hexecute, -⟩ := Runs.of_bind hrest
    obtain ⟨e, he, hcalls⟩ := executeCall_run hexecute
    exact ⟨fun _ => rfl, fun _ =>
      ⟨e, List.mem_append_right _ (List.mem_append_left _ he), hcalls⟩⟩

/-! ### What a call leaves behind -/

theorem Progress.mem_after {p : Progress} {h : Handled} {id : String} (hne : id ≠ h.call.id) :
    id ∈ (p.after h).executedIds ↔ id ∈ p.executedIds := by
  rw [Progress.after]
  split
  · simp [hne]
  · exact Iff.rfl

/-- The status of a record is moved by statements about its key only. -/
theorem status?_of_exec {o : Op} {env : Env} {r : o.Res} {key : String}
    (ho : ∀ i, o = .idem i → i.key ≠ key) (h : exec o env db = some (r, db')) :
    db'.idem.status? key = db.idem.status? key := by
  rw [exec_idemAfter h]
  cases o with
  | idem i =>
    exact congrArg (Option.map (·.status)) (IdempotencyOp.get_exec_of_ne (ho i rfl))
  | _ => rfl

/-- A call that is not let through, and whose events call no tool. -/
theorem handledExactly_of_refused {executedIds : List String}
    (haway : ∀ e ∈ es, e.op.callsTool = false) (hpass : ¬ rt.PassesGates s executedIds db tc es) :
    rt.HandledExactly s executedIds db tc es where
  own e he hcalls := by
    rw [haway e he] at hcalls
    cases hcalls
  exact := by
    refine ⟨?_, fun h => absurd h hpass⟩
    rintro ⟨e, he, args, hop⟩
    have := haway e he
    rw [hop] at this
    cases this

/-- A call the gateway lets through: after that its record alone decides. -/
theorem handledExactly_of_approved {executedIds : List String} {es' : List (Event Op Op.Res)}
    {call : ToolRequest} {answer : Answer} (hvalid : rt.validationError tc = none)
    (hfresh : tc.id ∉ executedIds) (haway : ∀ e ∈ es, e.op.callsTool = false)
    (happroved : rt.ApprovedIn s tc es) (hsame : SameCall tc call)
    (run : Runs exec (rt.answerCall s.messages.length s.sessionId call) db es' (.ok answer) db') :
    rt.HandledExactly s executedIds db tc (es ++ es') := by
  obtain ⟨hid, hname⟩ := hsame
  have honly := answerCall_ofAnswer.runs run
  have hsent := answerCall_run run
  rw [hid] at honly
  rw [hid, hname] at hsent
  have hown {e : Event Op Op.Res} (he : e ∈ es ++ es') (hcalls : e.op.callsTool = true) :
      rt.Dispatches s tc e := by
    rcases List.mem_append.mp he with he | he
    · rw [haway e he] at hcalls
      cases hcalls
    · have hof := honly e he
      cases hop : e.op with
      | callTool site toolCall =>
        rw [hop] at hof
        obtain ⟨rfl, rfl⟩ := hof
        exact ⟨call.args, by rw [hop, hid, hname]⟩
      | _ =>
        rw [hop] at hcalls
        cases hcalls
  refine ⟨fun e => hown, ?_, fun hpass => ?_⟩
  · rintro ⟨e, he, args, hop⟩
    obtain ⟨d, hd, hdecision⟩ := happroved
    refine ⟨hvalid, hfresh, ⟨d, List.mem_append_left _ hd, ?_⟩, hsent.mp ⟨e, ?_, by rw [hop]; rfl⟩⟩
    · rcases hdecision with h | ⟨h, v, hv, hv'⟩
      · exact .inl h
      · exact .inr ⟨h, v, List.mem_append_left _ hv, hv'⟩
    · rcases List.mem_append.mp he with he | he
      · have := haway e he
        rw [hop] at this
        cases this
      · exact he
  · obtain ⟨e, he, hcalls⟩ := hsent.mpr hpass.record
    exact ⟨e, List.mem_append_right _ he, hown (List.mem_append_right _ he) hcalls⟩

/-- **One turn of the loop**: what it does for its call, and what it leaves to others. -/
theorem handleCall_run {resumes : List Json} {p p' : Progress} {h : Handled} (hid : tc.id ≠ "")
    (run : Runs exec (rt.handleCall s resumes p tc) db es (.ok (h, p')) db') :
    SameCall tc h.call ∧ rt.HandledExactly s p.executedIds db tc es ∧
      (∀ id, id ≠ tc.id → (id ∈ p'.executedIds ↔ id ∈ p.executedIds)) ∧
      ∀ key, rt.recordKey s.sessionId tc.id ≠ some key →
        db'.idem.status? key = db.idem.status? key := by
  rw [AgentRuntime.handleCall] at run
  cases hvalid : rt.validationError tc with
  | some error =>
    simp only [hvalid] at run
    obtain ⟨rfl, hout, rfl⟩ := run.of_ret
    cases hout
    refine ⟨⟨rfl, rfl⟩, handledExactly_of_refused (by simp) fun hpass => ?_, fun _ _ => Iff.rfl,
      fun _ _ => rfl⟩
    rw [hpass.valid] at hvalid
    cases hvalid
  | none =>
    simp only [hvalid] at run
    by_cases hdone : tc.id ≠ "" ∧ tc.id ∈ p.executedIds
    · simp only [if_pos hdone] at run
      obtain ⟨rfl, hout, rfl⟩ := run.of_ret
      cases hout
      exact ⟨⟨rfl, rfl⟩, handledExactly_of_refused (by simp) fun hpass => hpass.fresh hdone.2,
        fun _ _ => Iff.rfl, fun _ _ => rfl⟩
    · simp only [if_neg hdone] at run
      obtain ⟨⟨gate, interrupts⟩, es₁, es₂, db₁, rfl, hgate, hrest⟩ := Runs.of_bind run
      obtain ⟨rfl, haway, happroved, hsame⟩ := authorizeCall_run hgate
      cases gate with
      | error answer =>
        simp only at hrest
        obtain ⟨rfl, hout, rfl⟩ := hrest.of_ret
        cases hout
        rw [List.append_nil]
        refine ⟨⟨rfl, rfl⟩, handledExactly_of_refused haway fun hpass => ?_,
          fun id hne => Progress.mem_after hne, fun _ _ => rfl⟩
        obtain ⟨call, h⟩ := happroved.mpr hpass.approved
        cases h
      | ok call =>
        obtain ⟨answer, es₃, es₄, db₂, rfl, hanswer, hret⟩ := Runs.of_bind hrest
        obtain ⟨rfl, hout, rfl⟩ := hret.of_ret
        cases hout
        rw [List.append_nil]
        have hcall := hsame call rfl
        have honly : (rt.answerCall s.messages.length s.sessionId call).Only
            (Op.OfAnswer s.messages.length (rt.recordKey s.sessionId call.id) call) :=
          answerCall_ofAnswer
        refine ⟨hcall, handledExactly_of_approved hvalid (fun hmem => hdone ⟨hid, hmem⟩) haway
          (happroved.mp ⟨call, rfl⟩) hcall hanswer, fun id hne => ?_, fun key hkey => ?_⟩
        · exact Progress.mem_after (by rwa [hcall.1])
        · have hkeeps {o : Op} {env : Env} {r : o.Res} {db db' : Db}
              (ho : o.OfAnswer s.messages.length (rt.recordKey s.sessionId call.id) call)
              (he : exec o env db = some (r, db')) :
              db'.idem.status? key = db.idem.status? key := by
            refine status?_of_exec ?_ he
            rintro i rfl rfl
            exact hkey (hcall.1 ▸ ho)
          exact hanswer.keeps (fun db => db.idem.status? key) hkeeps honly

end Call

/-! ## The loop -/

section Loop

variable {rt : AgentRuntime} {s : AgentState} {db₀ db db' : Db} {es : List (Event Op Op.Res)}

/-- Two calls have the same key only if they have the same id. -/
theorem id_eq_of_recordKey {sessionId : Option String} {a b key : String}
    (ha : rt.recordKey sessionId a = some key) (hb : rt.recordKey sessionId b = some key) :
    a = b := by
  simp only [AgentRuntime.recordKey, toolNodeKey] at ha hb
  split_ifs at ha hb
  exact (String.append_right_inj _).mp ((Option.some.inj ha).trans (Option.some.inj hb).symm)

/-- **The invariant of the loop**: what the gates look at for the calls that are still to
come is as it was when the node began. -/
structure GatesUntouched (rt : AgentRuntime) (s : AgentState) (db₀ : Db) (calls : List ToolRequest)
    (p : Progress) (db : Db) : Prop where
  ids : ∀ tc ∈ calls, (tc.id ∈ p.executedIds ↔ tc.id ∈ s.executedToolIds)
  records : ∀ tc ∈ calls, rt.recordStatus s db tc = rt.recordStatus s db₀ tc

/-- A turn keeps the invariant for calls with other ids. -/
theorem GatesUntouched.after {tc : ToolRequest} {rest : List ToolRequest} {p p' : Progress}
    (h : GatesUntouched rt s db₀ (tc :: rest) p db) (hne : ∀ other ∈ rest, other.id ≠ tc.id)
    (hids : ∀ id, id ≠ tc.id → (id ∈ p'.executedIds ↔ id ∈ p.executedIds))
    (hrecords : ∀ key, rt.recordKey s.sessionId tc.id ≠ some key →
      db'.idem.status? key = db.idem.status? key) : GatesUntouched rt s db₀ rest p' db' where
  ids other hother :=
    (hids other.id (hne other hother)).trans (h.ids other (List.mem_cons_of_mem _ hother))
  records other hother := by
    refine Eq.trans ?_ (h.records other (List.mem_cons_of_mem _ hother))
    rw [AgentRuntime.recordStatus, AgentRuntime.recordStatus]
    cases hkey : rt.recordKey s.sessionId other.id with
    | none => rfl
    | some key =>
      apply hrecords
      intro htc
      exact hne other hother (id_eq_of_recordKey hkey htc)

/-- The gates look at nothing else. -/
theorem GatesUntouched.exact {tc : ToolRequest} {calls : List ToolRequest} {p : Progress}
    (h : GatesUntouched rt s db₀ calls p db) (htc : tc ∈ calls)
    (hexact : rt.HandledExactly s p.executedIds db tc es) :
    rt.HandledExactly s s.executedToolIds db₀ tc es where
  own := hexact.own
  exact := by
    rw [hexact.exact]
    have hids := h.ids tc htc
    have hrecord := h.records tc htc
    constructor
    · intro hpass
      exact ⟨hpass.valid, fun hmem => hpass.fresh (hids.mpr hmem), hpass.approved,
        hrecord ▸ hpass.record⟩
    · intro hpass
      exact ⟨hpass.valid, fun hmem => hpass.fresh (hids.mp hmem), hpass.approved,
        hrecord ▸ hpass.record⟩

/-- **The loop**: the events fall into one piece for each call. -/
theorem handleCalls_run {resumes : List Json} (calls : List ToolRequest) :
    ∀ {p : Progress} {db : Db} {es : List (Event Op Op.Res)} {done : List Handled × Progress},
      (∀ tc ∈ calls, tc.id ≠ "") → (calls.map ToolRequest.id).Nodup →
      GatesUntouched rt s db₀ calls p db →
      Runs exec (rt.handleCalls s resumes calls p) db es (.ok done) db' →
      done.1.map (fun h => h.call.id) = calls.map ToolRequest.id ∧
        ∃ segments : List (List (Event Op Op.Res)), es = segments.flatten ∧
          List.Forall₂ (rt.HandledExactly s s.executedToolIds db₀) calls segments := by
  induction calls with
  | nil =>
    intro p db es done _ _ _ run
    obtain ⟨rfl, hout, -⟩ := run.of_ret
    cases hout
    exact ⟨rfl, [], rfl, .nil⟩
  | cons tc rest ih =>
    intro p db es done hids hnodup huntouched run
    obtain ⟨hnot, hrest⟩ := List.nodup_cons.mp hnodup
    have hne (other : ToolRequest) (hother : other ∈ rest) : other.id ≠ tc.id := by
      intro h
      exact hnot (List.mem_map.mpr ⟨other, hother, h⟩)
    obtain ⟨⟨first, p'⟩, es₁, es₂, db₁, rfl, hfirst, run₂⟩ := Runs.of_bind run
    obtain ⟨others, es₃, es₄, db₂, rfl, hothers, hret⟩ := Runs.of_bind run₂
    obtain ⟨rfl, hout, rfl⟩ := hret.of_ret
    cases hout
    obtain ⟨hsame, hexact, hids', hrecords⟩ := handleCall_run (hids tc List.mem_cons_self) hfirst
    obtain ⟨hanswers, segments, rfl, hsegments⟩ :=
      ih (fun other hother => hids other (List.mem_cons_of_mem _ hother)) hrest
        (huntouched.after hne hids' hrecords) hothers
    refine ⟨?_, es₁ :: segments, by simp,
      .cons (huntouched.exact List.mem_cons_self hexact) hsegments⟩
    rw [List.map_cons, List.map_cons, hanswers, hsame.1]

end Loop

/-- A run of the tool node that ends without an exception answers each call of the message,
in their order, and sends to the tool server exactly the calls that pass the gates, as they
stood when it began. -/
theorem tool_node_exact {rt : AgentRuntime} {s : AgentState} {resumes : List Json} {db db' : Db}
    {es : List (Event Op Op.Res)} {done : List Handled × Progress}
    (named : ∀ tc ∈ s.lastCalls, tc.id ≠ "") (distinct : (s.lastCalls.map ToolRequest.id).Nodup)
    (run : Runs exec (rt.runTools s resumes) db es (.ok done) db') :
    (done.1.map Handled.message).map Message.toolCallId? = s.lastCalls.map (fun tc => some tc.id) ∧
      ∃ segments : List (List (Event Op Op.Res)), es = segments.flatten ∧
        List.Forall₂ (rt.HandledExactly s s.executedToolIds db) s.lastCalls segments := by
  have huntouched : GatesUntouched rt s db s.lastCalls ⟨s.executedToolIds, 0⟩ db :=
    ⟨fun _ _ => Iff.rfl, fun _ _ => rfl⟩
  obtain ⟨hids, hsegments⟩ := handleCalls_run s.lastCalls named distinct huntouched run
  refine ⟨?_, hsegments⟩
  calc (done.1.map Handled.message).map Message.toolCallId?
      = (done.1.map fun h => h.call.id).map some := by simp [Function.comp_def, Handled.message,
          Message.toolCallId?]
    _ = s.lastCalls.map (fun tc => some tc.id) := by rw [hids, List.map_map]; rfl

/-! ## Two calls, one of them approved -/

section Demo

/-- A message that asks for a transfer and for a balance. -/
def twoCallState : AgentState :=
  { messages := [.ai "" [⟨"call-1", "submit_transfer", .obj []⟩, ⟨"call-2", "get_balance", .obj []⟩]]
    finalAnswer := none, stepCount := 1, sessionId := some "s", executedToolIds := [] }

/-- The human approves the first call and refuses the second. -/
def twoAnswers : List Json :=
  [.obj [("decision", .str "approved")], .obj [("decision", .str "rejected")]]

/-- Both calls are answered, and one of them is sent to the tool server. -/
theorem tool_node_exact_two_calls :
    ∃ (es : List (Event Op Op.Res)) (done : List Handled × Progress),
      es.countP (fun e => e.op.callsTool) = 1 ∧
      (done.1.map Handled.message).map Message.toolCallId? = [some "call-1", some "call-2"] ∧
        ∃ segments : List (List (Event Op Op.Res)), es = segments.flatten ∧
          List.Forall₂ (demoRuntime.HandledExactly twoCallState [] Db.empty)
            twoCallState.lastCalls segments := by
  have hcomputed : ((runAlone exec (demoEnv demoSuccess) 20
      (demoRuntime.runTools twoCallState twoAnswers) Db.empty).map fun x =>
        x.2.1.toOption.isSome && x.1.countP (fun e => e.op.callsTool) == 1).getD false = true := by
    decide +kernel
  cases hrun : runAlone exec (demoEnv demoSuccess) 20
      (demoRuntime.runTools twoCallState twoAnswers) Db.empty with
  | none =>
    rw [hrun] at hcomputed
    cases hcomputed
  | some y =>
    obtain ⟨es, out, db'⟩ := y
    rw [hrun] at hcomputed
    cases out with
    | error exc => cases hcomputed
    | ok done =>
      have hcount : es.countP (fun e => e.op.callsTool) = 1 := by
        simpa [Except.toOption] using hcomputed
      exact ⟨es, done, hcount,
        tool_node_exact (by decide +kernel) (by decide +kernel) (runs_of_runAlone hrun)⟩

end Demo

end BankingAgent
