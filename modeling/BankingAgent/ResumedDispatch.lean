import BankingAgent.MakerChecker
import BankingAgent.NodeProtocol

/-!
# The approved call and the resumed graph

After `approve` has called the tool, the endpoint resumes the graph, and `_tool_node` comes
to the same call again. What stands between the two is the idempotency record of the call. But
the executor never marks it as executing, so that its `mark_succeeded` passes the record by,
and the node takes a reserved record for one that may be tried.

* `approved_call_dispatched_once` — the call is dispatched once at most, by whomever, as long as
  no record is looked up as one that may be tried after it, nor after a rejection.
-/

namespace BankingAgent

open Async

variable {rt : AgentRuntime} {sid toolCallId key : String}

/-- The graph dispatches the call. -/
def triesCall (rt : AgentRuntime) (toolCallId : String) : Op → Bool
  | .callTool (.node _ id _) call => id = toolCallId && rt.mayChange call
  | _ => false

/-- The executor dispatches the call of the session. -/
def executesCall (sid : String) : Op → Bool
  | .callTool (.executor sessionId _) _ => sessionId = sid
  | _ => false

/-- The call is dispatched, by whomever. -/
def dispatchesCall (rt : AgentRuntime) (sid toolCallId : String) (o : Op) : Bool :=
  executesCall sid o || triesCall rt toolCallId o

/-- How often. -/
def callDispatches (rt : AgentRuntime) (sid toolCallId : String)
    (h : List (LogEntry Request)) : ℕ :=
  h.countP fun e => dispatchesCall rt sid toolCallId e.op

/-- The record of the key is looked up as one that may be tried. -/
def mayBeTried (key : String) : (o : Op) → o.Res → Bool
  | .idem (.select k), some row => k = key && (row.status = .reserved || row.status = .failed)
  | .idem (.select k), none => k = key
  | _, _ => false

/-- The request rejects. -/
def Request.rejects : Request → Bool
  | .reject _ _ => true
  | _ => false

/-- Approvals and rejections of the session, any number of them at the same time. -/
def approvals (sid : String) : Discipline Db Request (LogEntry Request) where
  start req := ∃ runId, req = .approve sid runId ∨ req = .reject sid runId
  crash := True
  sequential := False
  ok _ _ _ := True

/-- Those in which no record is looked up as one that may be tried after a dispatch, nor
after a rejection. -/
def approvalsHeeding (rt : AgentRuntime) (sid toolCallId key : String) :
    Discipline Db Request (LogEntry Request) :=
  { approvals sid with
    ok := fun _ h e => mayBeTried key e.op e.res = true →
      e.call.rejects = false ∧ callDispatches rt sid toolCallId h = 0 }

/-! ## The graph tries what it has looked up -/

/-- The thread belongs to the call. -/
def Checkpoint.ForCall (rt : AgentRuntime) (toolCallId key : String) (cp : Checkpoint) : Prop :=
  rt.recordKey cp.state.sessionId toolCallId = some key

/-- Where a graph stands with the call. -/
inductive TryPos : Type where
  /-- whether the record has been looked up as one that may be tried, since the last dispatch -/
  | at (looked : Bool)
  /-- on a thread that does not belong to the call -/
  | astray

/-- The look at the record lasts until the dispatch. -/
def lookedAfter (rt : AgentRuntime) (toolCallId key : String) (looked : Bool) (o : Op)
    (r : o.Res) : Bool :=
  !triesCall rt toolCallId o && (looked || mayBeTried key o r)

/-- What the graph may do with the thread. -/
def Op.OnThread (rt : AgentRuntime) (sid toolCallId key : String) : (o : Op) → o.Res → Prop
  | .thread (.load threadId), some cp => threadId = sid ∧ cp.ForCall rt toolCallId key
  | .thread (.save cp), _ => cp.ForCall rt toolCallId key
  | .callTool (.executor _ _) _, _ => False
  | _, _ => True

/-- What the graph may do with the call. -/
inductive TryMove (rt : AgentRuntime) (sid toolCallId key : String) :
    TryPos → (o : Op) → o.Res → TryPos → Prop
  | go {looked : Bool} {o : Op} (r : o.Res) (thread : o.OnThread rt sid toolCallId key r)
      (first : triesCall rt toolCallId o = true → looked = true) :
      TryMove rt sid toolCallId key (.at looked) o r
        (.at (lookedAfter rt toolCallId key looked o r))
  | stray {looked : Bool} (cp : Checkpoint) (other : ¬ cp.ForCall rt toolCallId key) :
      TryMove rt sid toolCallId key (.at looked) (.thread (.load sid)) (some cp) .astray
  | astray {o : Op} (r : o.Res) : TryMove rt sid toolCallId key .astray o r .astray

/-- A part of the run ends on a thread of the call. -/
def TryPos.Returns {α : Type} (Q : α → Prop) : TryPos → Except Exn α → Prop
  | .at _, out => ∀ a, out = .ok a → Q a
  | .astray, _ => True

section Walk

variable {looked : Bool} {s : AgentState}

theorem astray_tries {α : Type} {Q : TryPos → Except Exn α → Prop} (hQ : ∀ out, Q .astray out) :
    ∀ c : Co α, Follows (TryMove rt sid toolCallId key) Q c .astray := by
  intro c
  induction c with
  | ret a => exact hQ _
  | raise e => exact hQ _
  | op o k ih => exact fun r => ⟨_, .astray r, ih r⟩

/-- Sequencing, wherever the first part has led. -/
theorem tries_bind {α β : Type} {P : α → Prop} {Q : β → Prop} {c : Co α} {f : α → Co β}
    {p : TryPos} (hc : Follows (TryMove rt sid toolCallId key) (TryPos.Returns P) c p)
    (hf : ∀ looked a, P a →
      Follows (TryMove rt sid toolCallId key) (TryPos.Returns Q) (f a) (.at looked)) :
    Follows (TryMove rt sid toolCallId key) (TryPos.Returns Q) (c >>= f) p := by
  refine Follows.bind ?_ ?_ hc
  · intro p a h
    cases p with
    | «at» looked => exact hf looked a (h a rfl)
    | astray => exact astray_tries (fun _ => trivial) _
  · intro p e h
    cases p with
    | «at» looked => rintro a ⟨⟩
    | astray => exact trivial

/-- What a position of the node knows of the look. -/
def NodePos.Looked (rt : AgentRuntime) (toolCallId : String) (looked : Bool) : NodePos → Prop
  | .cleared _ _ tc _ => tc.id = toolCallId → rt.operationKind tc.name ≠ .read → looked = true
  | _ => True

theorem NodePos.Looked.keep {p : NodePos} {o : Op} (r : o.Res) (h : p.Looked rt toolCallId looked)
    (hno : triesCall rt toolCallId o = false) :
    p.Looked rt toolCallId (lookedAfter rt toolCallId key looked o r) := by
  cases p with
  | cleared A k tc stage =>
    intro hid hkind
    simp [lookedAfter, hno, h hid hkind]
  | _ => exact trivial

/-- The node makes no call it has not looked up. -/
theorem NodeMove.tries {p q : NodePos} {o : Op} {r : o.Res}
    (hs : rt.recordKey s.sessionId toolCallId = some key) (move : NodeMove rt s p o r q)
    (hp : p.Looked rt toolCallId looked) :
    o.OnThread rt sid toolCallId key r ∧ (triesCall rt toolCallId o = true → looked = true) ∧
      q.Looked rt toolCallId (lookedAfter rt toolCallId key looked o r) := by
  have hown {k : String} {tc : ToolRequest} (hkey : rt.recordKey s.sessionId tc.id = some k)
      (hid : tc.id = toolCallId) : k = key := by
    rw [hid, hs] at hkey
    exact (Option.some.inj hkey).symm
  cases move with
  | idle r quiet =>
    have hno : triesCall rt toolCallId o = false := by
      cases o <;> first | rfl | exact quiet.elim
    refine ⟨?_, fun h => absurd (hno.symm.trans h) (by decide), hp.keep r hno⟩
    cases o <;> first | exact trivial | exact quiet.elim
  | lookupBroken row hkey hrow => exact ⟨trivial, by rintro ⟨⟩, trivial⟩
  | lookupSucceeded hkey hrow hst => exact ⟨trivial, by rintro ⟨⟩, trivial⟩
  | lookupUnfinished hkey hst hkind => exact ⟨trivial, by rintro ⟨⟩, trivial⟩
  | lookupNone hkey =>
    refine ⟨trivial, by rintro ⟨⟩, fun hid _ => ?_⟩
    simp [lookedAfter, triesCall, mayBeTried, hown hkey hid]
  | lookupRetry hkey hst =>
    refine ⟨trivial, by rintro ⟨⟩, fun hid _ => ?_⟩
    rcases hst with hst | hst <;> simp [lookedAfter, triesCall, mayBeTried, hown hkey hid, hst]
  | lookupRead hkey hst hkind => exact ⟨trivial, by rintro ⟨⟩, fun _ hne => absurd hkind hne⟩
  | markExecuting hit =>
    exact ⟨trivial, by rintro ⟨⟩, NodePos.Looked.keep (p := .cleared _ _ _ .looked) _ hp rfl⟩
  | recheckSome row =>
    exact ⟨trivial, by rintro ⟨⟩, NodePos.Looked.keep (p := .cleared _ _ _ .present) _ hp rfl⟩
  | recheckNone =>
    exact ⟨trivial, by rintro ⟨⟩, NodePos.Looked.keep (p := .cleared _ _ _ .missing) _ hp rfl⟩
  | reserve text now hit =>
    exact ⟨trivial, by rintro ⟨⟩, NodePos.Looked.keep (p := .cleared _ _ _ .present) _ hp rfl⟩
  | reread row =>
    exact ⟨trivial, by rintro ⟨⟩, NodePos.Looked.keep (p := .cleared _ _ _ .present) _ hp rfl⟩
  | execute result hkey =>
    refine ⟨trivial, fun h => ?_, trivial⟩
    simp only [triesCall, Bool.and_eq_true, decide_eq_true_eq] at h
    exact hp h.1 (of_decide_eq_true h.2)
  | executeRaised exc hkey =>
    refine ⟨trivial, fun h => ?_, trivial⟩
    simp only [triesCall, Bool.and_eq_true, decide_eq_true_eq] at h
    exact hp h.1 (of_decide_eq_true h.2)
  | executeUnrecorded answer hkey =>
    refine ⟨trivial, fun h => ?_, trivial⟩
    simp only [triesCall, Bool.and_eq_true, decide_eq_true_eq] at h
    rw [h.1, hs] at hkey
    cases hkey
  | succeed now hit hsuccess => exact ⟨trivial, by rintro ⟨⟩, trivial⟩
  | fail error now hit hsuccess => exact ⟨trivial, by rintro ⟨⟩, trivial⟩

theorem runTools_tries {resumes : List Json} (hs : rt.recordKey s.sessionId toolCallId = some key) :
    Follows (TryMove rt sid toolCallId key) (TryPos.Returns fun _ => True) (rt.runTools s resumes)
      (.at looked) := by
  refine Follows.mono id (fun h => ?_) (Follows.simulate
    (R := fun p p' => ∃ looked, p' = TryPos.at looked ∧ p.Looked rt toolCallId looked) ?_
    (handleCalls_follows (A := []) s.lastCalls) ⟨looked, rfl, trivial⟩)
  · obtain ⟨p, ⟨looked, rfl, -⟩, -⟩ := h
    exact fun _ _ => trivial
  -- of the node's position only the look is kept
  · rintro p _ o r q ⟨looked, rfl, hp⟩ move
    obtain ⟨hthread, hfirst, hq⟩ := move.tries hs hp
    exact ⟨_, .go r hthread hfirst, _, rfl, hq⟩

theorem runNode_tries {cp : Checkpoint} {node : GraphNode} (hcp : cp.ForCall rt toolCallId key) :
    Follows (TryMove rt sid toolCallId key)
      (TryPos.Returns fun cp' => cp'.ForCall rt toolCallId key) (rt.runNode cp node)
      (.at looked) := by
  cases node with
  | agent =>
    unfold AgentRuntime.runNode AgentRuntime.agentNode
    simp only
    split
    · rintro cp' ⟨⟩
    · refine fun reply => ⟨_, .go _ trivial (by rintro ⟨⟩), ?_⟩
      cases reply with
      | error exc => rintro cp' ⟨⟩
      | ok response =>
        rintro cp' ⟨⟩
        exact hcp
  | tool =>
    refine tries_bind (P := fun s' => rt.recordKey s'.sessionId toolCallId = some key) ?_
      fun looked s' hs' => ?_
    · refine tries_bind (runTools_tries hcp) fun looked done _ => ?_
      rintro s' ⟨⟩
      exact hcp
    · rintro cp' ⟨⟩
      exact hs'

theorem runGraph_tries (fuel : ℕ) : ∀ {cp : Checkpoint} {looked : Bool},
    cp.ForCall rt toolCallId key →
      Follows (TryMove rt sid toolCallId key) (TryPos.Returns fun _ => True) (rt.runGraph fuel cp)
        (.at looked) := by
  induction fuel with
  | zero =>
    intro cp looked _
    rw [AgentRuntime.runGraph]
    cases cp.next with
    | none => exact fun _ _ => trivial
    | some node => rintro a ⟨⟩
  | succ fuel ih =>
    intro cp looked hcp
    rw [AgentRuntime.runGraph]
    cases cp.next with
    | none => exact fun _ _ => trivial
    | some node =>
      refine tries_bind (P := fun out => ∀ cp', out = .ok cp' → cp'.ForCall rt toolCallId key) ?_
        fun looked out hout => ?_
      · refine Follows.attempt (Follows.mono id (fun {p out} h => ?_) (runNode_tries hcp))
        cases p with
        | «at» looked =>
          rintro out' ⟨⟩
          exact h
        | astray => exact trivial
      · cases out with
        | ok cp' =>
          exact fun _ => ⟨_, .go _ (hout cp' rfl) (by rintro ⟨⟩), ih (hout cp' rfl)⟩
        | error exc =>
          cases exc with
          | graphInterrupt payload => exact fun _ _ => trivial
          | _ => rintro a ⟨⟩

/-- **The resumed graph** makes no call it has not looked up, if its thread is the call's. -/
theorem resume_tries {runId : String} {value : Json} :
    Follows (TryMove rt sid toolCallId key) (TryPos.Returns fun _ => True)
      (rt.resume sid value runId) (.at looked) := by
  refine tries_bind (P := fun _ => True) (fun old => ?_) fun looked result _ => ?_
  · cases old with
    | none => exact ⟨_, .go _ trivial (by rintro ⟨⟩), by rintro a ⟨⟩⟩
    | some cp =>
      by_cases hcp : cp.ForCall rt toolCallId key
      · exact ⟨_, .go _ ⟨rfl, hcp⟩ (by rintro ⟨⟩), fun _ =>
          ⟨_, .go _ hcp (by rintro ⟨⟩), runGraph_tries _ hcp⟩⟩
      · exact ⟨_, .stray cp hcp, astray_tries (fun _ => trivial) _⟩
  · exact fun _ => ⟨_, .go _ trivial (by rintro ⟨⟩), fun _ _ => trivial⟩

end Walk

/-! ## The endpoint -/

/-- Where a decision on the session stands: with the executor, or with the graph. -/
inductive ApprovalPos : Type where
  | deciding (p : Pos)
  | resuming (p : TryPos)

/-- The positions at which `approve` returns without an error. -/
def Pos.Approves : Pos → Prop
  | .replayed _ => True
  | .closed _ _ _ => True
  | .rejected => True
  | _ => False

/-- The decision of the request. -/
def decisionOn (sid : String) : Bool → Call
  | false => .approve sid none
  | true => .reject sid none

/-- What `POST /agent/approve` and `POST /agent/reject` may do: first what the executor may, and
then what the graph. -/
inductive ApprovalMove (rt : AgentRuntime) (sid toolCallId key : String) (rejects : Bool) :
    ApprovalPos → (o : Op) → o.Res → ApprovalPos → Prop
  | decide {p q : Pos} {o : Op} {r : o.Res} (move : Move rt.py (decisionOn sid rejects) p o r q) :
      ApprovalMove rt sid toolCallId key rejects (.deciding p) o r (.deciding q)
  | turn {p : Pos} {q : TryPos} {o : Op} {r : o.Res} (done : rejects = false → p.Approves)
      (move : TryMove rt sid toolCallId key (.at false) o r q) :
      ApprovalMove rt sid toolCallId key rejects (.deciding p) o r (.resuming q)
  | resume {p q : TryPos} {o : Op} {r : o.Res} (move : TryMove rt sid toolCallId key p o r q) :
      ApprovalMove rt sid toolCallId key rejects (.resuming p) o r (.resuming q)

/-- The error of a result says something. -/
abbrev SaysError (c : Co ApprovalResult) : Prop :=
  Relies (fun _ _ => True) (fun _ => True) (fun out => ∀ r, out = .ok r → r.error ≠ some "") c

theorem saysError_bind {α : Type} {c : Co α} {f : α → Co ApprovalResult}
    (hf : ∀ a, SaysError (f a)) : SaysError (c >>= f) :=
  Relies.bind (fun a _ => hf a) (by rintro _ _ _ ⟨⟩) (relies_true c)

theorem saysError_ofError {error : String} (h : error ≠ "") :
    SaysError (.ret (.ofError sid error)) := by
  rintro r ⟨⟩ heq
  exact h (Option.some.inj heq)

theorem saysError_ofApproved {answer : String} : SaysError (.ret (.ofApproved sid answer)) := by
  rintro r ⟨⟩ ⟨⟩

section Executor

variable {py : PyLib} {session : HITLSession} {idemKey : String} {claimed : GrantRecord}

theorem settle_saysError (answer : Except Exn ToolResult) :
    SaysError (HITLApprovalExecutor.settle py session sid idemKey answer) := by
  cases answer with
  | error exc =>
    exact saysError_bind fun _ => saysError_bind fun _ => saysError_bind fun _ =>
      saysError_bind fun _ => saysError_ofError (by decide)
  | ok result =>
    unfold HITLApprovalExecutor.settle
    simp only
    split
    · exact saysError_bind fun _ => saysError_bind fun _ => saysError_bind fun _ =>
        saysError_bind fun _ => saysError_ofApproved
    · exact saysError_bind fun _ => saysError_bind fun _ => saysError_bind fun _ =>
        saysError_bind fun _ => saysError_ofError (by simp)

theorem dispatch_saysError :
    SaysError (HITLApprovalExecutor.dispatch py session sid idemKey claimed) :=
  saysError_bind fun _ => saysError_bind fun _ => saysError_bind fun _ =>
    saysError_bind fun answer => settle_saysError answer

theorem checkAndDispatch_saysError :
    SaysError (HITLApprovalExecutor.checkAndDispatch py session sid claimed) := by
  refine saysError_bind fun _ => saysError_bind fun existing => ?_
  cases existing with
  | none => exact dispatch_saysError
  | some existing =>
    have hdenied (text : String) : SaysError (do
        GrantRepository.markFailed py sid
        let _ ← SqliteHITLStore.updateStatus py sid .failed (session.version + 1)
        persistEvent sid 2 .checkpoint [("kind", .str "REPLAY_DENIED")]
        return .ofError sid s!"Idempotency {text} — fails closed") :=
      saysError_bind fun _ => saysError_bind fun _ => saysError_bind fun _ =>
        saysError_ofError (by simp [toString])
    simp only
    cases existing.status with
    | succeeded => exact saysError_ofApproved
    | failed => exact dispatch_saysError
    | _ => exact hdenied _

theorem approveAs_saysError (actor : TrustedActor) :
    SaysError (HITLApprovalExecutor.approveAs py session sid actor) := by
  refine saysError_bind fun hit => ?_
  cases hit with
  | false => exact saysError_ofError (by decide)
  | true =>
    refine saysError_bind fun hit => ?_
    cases hit with
    | false => exact saysError_ofError (by decide)
    | true =>
      refine saysError_bind fun _ => saysError_bind fun claimed => ?_
      cases claimed with
      | none => exact saysError_ofError (by decide)
      | some grant => exact checkAndDispatch_saysError

theorem approve_saysError (ctx : Option Json) :
    SaysError (HITLApprovalExecutor.approve py sid ctx) := by
  refine saysError_bind fun session => ?_
  cases session with
  | none => exact saysError_ofError (by decide)
  | some session =>
    simp only
    split
    · exact saysError_ofError (by simp [toString])
    · refine saysError_bind fun expired => ?_
      cases expired with
      | true => exact saysError_bind fun _ => saysError_ofError (by decide)
      | false =>
        simp only [Bool.false_eq_true, if_false]
        split
        · refine saysError_bind fun _ => saysError_bind fun _ => saysError_bind fun _ => ?_
          rintro r ⟨⟩ heq
          exact absurd (Option.some.inj heq) (by decide)
        · refine saysError_bind fun actor => ?_
          cases actor with
          | none => exact saysError_ofError (by decide)
          | some actor => exact approveAs_saysError actor

end Executor

/-- `approve` ends with an error, or where it has been approved. -/
theorem approve_ends {ctx : Option Json} {py : PyLib} :
    Follows (Move py (.approve sid ctx))
      (fun p out => ∀ r, out = .ok r → (p.Approves ∧ r.sessionId = sid) ∨
        ∃ error, r.error = some error ∧ error ≠ "")
      (HITLApprovalExecutor.approve py sid ctx) .start := by
  have hfollows := Follows.simulate (R := fun p p' => p = p' ∧ p' ≠ .rejected)
    (U := Move py (.approve sid ctx)) (by
      -- no move of an approval leads to the end of a rejection
      rintro p _ o r q ⟨rfl, hp⟩ move
      refine ⟨q, move, rfl, ?_⟩
      cases move with
      | idle r quiet => exact hp
      | _ => rintro ⟨⟩) approve_follows ⟨rfl, by rintro ⟨⟩⟩
  refine Follows.mono id (fun {p out} h => ?_) ((approve_saysError ctx).ends hfollows)
  obtain ⟨⟨p, ⟨rfl, hrejected⟩, hends⟩, hsays⟩ := h
  rintro r rfl
  have hrefused (h : Refused (.ok r)) : ∃ error, r.error = some error ∧ error ≠ "" := by
    obtain ⟨error, herror⟩ := Option.isSome_iff_exists.mp (h r rfl).1
    exact ⟨error, herror, fun hempty => hsays r rfl (hempty ▸ herror)⟩
  cases p with
  | finished => exact .inr (hrefused hends)
  | loaded s => exact .inr (hrefused hends)
  | broken => exact .inr (hrefused hends)
  | reserved s g retry => exact .inr (hrefused hends.2)
  | replayed s =>
    obtain ⟨answer, ⟨⟩⟩ := hends
    exact .inl ⟨trivial, rfl⟩
  | closed s retry v =>
    obtain rfl := Except.ok.inj hends
    refine .inl ⟨trivial, ?_⟩
    cases v <;> rfl
  | rejected => exact absurd rfl hrejected
  | _ => exact hends.elim

/-- After a decision, what the graph may do. -/
theorem turn_follows {α : Type} {Q : α → Prop} {c : Co α} {p : Pos} {rejects : Bool}
    (done : rejects = false → p.Approves)
    (hc : Follows (TryMove rt sid toolCallId key) (TryPos.Returns Q) c (.at false)) :
    Follows (ApprovalMove rt sid toolCallId key rejects) (fun _ _ => True) c (.deciding p) := by
  cases c with
  | ret a => exact trivial
  | raise e => exact trivial
  | op o k =>
    intro r
    obtain ⟨q, hq, hk⟩ := hc r
    exact ⟨_, .turn done hq, follows_embed ApprovalPos.resuming .resume (fun _ => trivial) hk⟩

theorem hitlGet_tries {py : PyLib} {sessionId : String} {looked : Bool} :
    Follows (TryMove rt sid toolCallId key) (TryPos.Returns fun _ => True)
      (SqliteHITLStore.get py sessionId) (.at looked) := by
  refine fun row => ⟨_, .go _ trivial (by rintro ⟨⟩), ?_⟩
  cases row with
  | none => exact fun _ _ => trivial
  | some row =>
    simp only [Prog.ret_bind]
    cases row.toSession py with
    | none => rintro a ⟨⟩
    | some session => exact fun _ _ => trivial

theorem mapExecutorResult_cases (result : ApprovalResult) :
    (∃ exc, mapExecutorResult result = .raise exc) ∨ mapExecutorResult result = .ret () := by
  rw [mapExecutorResult]
  split
  · exact .inr rfl
  · split
    · exact .inr rfl
    · split <;> exact .inl ⟨_, rfl⟩

/-- **The endpoint** comes to the graph only where the executor has approved. -/
theorem approveEndpoint_follows (runId : String) :
    Follows (ApprovalMove rt sid toolCallId key false) (fun _ _ => True)
      (rt.approveEndpoint sid runId) (.deciding .start) := by
  refine Follows.bind (Q := fun p out => ∃ p', p = .deciding p' ∧ ∀ r, out = .ok r →
    (p'.Approves ∧ r.sessionId = sid) ∨ ∃ error, r.error = some error ∧ error ≠ "")
    ?_ (fun _ => trivial) (follows_embed ApprovalPos.deciding
      (fun move => @ApprovalMove.decide rt sid toolCallId key false _ _ _ _ move)
      (fun h => ⟨_, rfl, h⟩) approve_ends)
  rintro _ result ⟨p, rfl, hends⟩
  rcases mapExecutorResult_cases result with ⟨exc, hraise⟩ | hret
  · rw [hraise]
    exact trivial
  · rcases hends result rfl with ⟨done, hsid⟩ | ⟨error, herror, hne⟩
    · rw [hret]
      refine turn_follows (Q := fun _ => True) (fun _ => done) ?_
      change Follows _ _ (SqliteHITLStore.get rt.py sid >>= _) _
      refine tries_bind hitlGet_tries fun looked session _ => ?_
      rw [hsid]
      exact tries_bind resume_tries fun looked result _ => fun _ _ => trivial
    · -- the errors that say something are raised
      simp only [mapExecutorResult, herror, if_neg hne] at hret
      split at hret <;> cases hret

theorem rejectEndpoint_follows (runId : String) :
    Follows (ApprovalMove rt sid toolCallId key true) (fun _ _ => True)
      (rt.rejectEndpoint sid runId) (.deciding .start) := by
  refine Follows.bind (Q := fun p _ => ∃ p', p = .deciding p') ?_ (fun _ => trivial)
    (follows_embed ApprovalPos.deciding
      (fun move => @ApprovalMove.decide rt sid toolCallId key true _ _ _ _ move)
      (fun _ => ⟨_, rfl⟩) reject_follows)
  rintro _ result ⟨p, rfl⟩
  rcases mapExecutorResult_cases result with ⟨exc, hraise⟩ | hret
  · rw [hraise]
    exact trivial
  · rw [hret]
    refine turn_follows (Q := fun _ => True) (by rintro ⟨⟩) ?_
    change Follows _ _ (rt.resume sid AgentRuntime.rejectedValue runId >>= _) _
    exact tries_bind resume_tries fun looked result _ => fun _ _ => trivial

/-! ## The law -/

/-- The positions of the approval that has claimed the grant. -/
def Pos.Claimed : Pos → Prop
  | .consuming _ => True
  | .claimed _ _ => True
  | .replayed _ => True
  | .denying _ => True
  | .denied _ => True
  | .looked _ _ _ => True
  | .reserving _ _ _ => True
  | .reserved _ _ _ => True
  | .dispatched _ _ _ => True
  | .idemMarked _ _ _ => True
  | .grantMarked _ _ _ => True
  | .closed _ _ _ => True
  | _ => False

/-- The approval has claimed the grant. -/
def ApprovalPos.Claimed : ApprovalPos → Prop
  | .deciding p => p.Claimed
  | .resuming _ => True

/-- The approval may dispatch the call. -/
def ApprovalPos.MayDispatch : ApprovalPos → Prop
  | .deciding p => p.Holds
  | .resuming p => p = .at true

/-- What a decision knows: the claim is its own; where it may dispatch the call, it is an
approval, and nobody has; an approval never rejects, and the thread is the call's. -/
structure ApprovalPos.Knows (rt : AgentRuntime) (sid toolCallId : String) (rejects : Bool)
    (p : ApprovalPos) (db : Db) (h : List (LogEntry Request)) : Prop where
  spent : rejects = false → p.Claimed → GrantSpent sid db
  first : p.MayDispatch → rejects = false ∧ callDispatches rt sid toolCallId h = 0
  approving : rejects = false → p ≠ .deciding .rejected
  onThread : p ≠ .resuming .astray

/-- What holds of the store: a dispatch has claimed the grant, and the thread is the call's. -/
structure CallStored (rt : AgentRuntime) (sid toolCallId key : String) (db : Db)
    (h : List (LogEntry Request)) : Prop where
  spent : callDispatches rt sid toolCallId h ≠ 0 → GrantSpent sid db
  once : callDispatches rt sid toolCallId h ≤ 1
  thread : ∀ cp, db.threads.get sid = some cp → cp.ForCall rt toolCallId key

theorem Pos.Holds.claimed {p : Pos} (h : p.Holds) : p.Claimed := by
  cases p <;> first | exact trivial | exact h.elim

section Step

variable {db db' : Db} {h : List (LogEntry Request)} {p q : ApprovalPos} {o : Op} {r : o.Res}
  {env : Env} {rejects : Bool}

theorem callDispatches_cons {e : LogEntry Request}
    (hd : dispatchesCall rt sid toolCallId e.op = true) :
    callDispatches rt sid toolCallId (e :: h) = callDispatches rt sid toolCallId h + 1 :=
  List.countP_cons_of_pos hd

theorem callDispatches_cons_of_not {e : LogEntry Request}
    (hno : dispatchesCall rt sid toolCallId e.op = false) :
    callDispatches rt sid toolCallId (e :: h) = callDispatches rt sid toolCallId h :=
  List.countP_cons_of_neg (by rw [hno]; decide)

/-- The graph dispatches nothing for the executor. -/
theorem triesCall_of_dispatches (hthread : o.OnThread rt sid toolCallId key r)
    (hd : dispatchesCall rt sid toolCallId o = true) : triesCall rt toolCallId o = true := by
  cases o with
  | callTool site call =>
    cases site with
    | executor sessionId idemKey => exact hthread.elim
    | _ => simpa [dispatchesCall, executesCall] using hd
  | _ => cases hd

/-- A dispatch uses what is known up. -/
theorem ApprovalMove.dispatches (move : ApprovalMove rt sid toolCallId key rejects p o r q)
    (hp : p.Knows rt sid toolCallId rejects db h) (hd : dispatchesCall rt sid toolCallId o = true) :
    p.MayDispatch ∧ p.Claimed ∧ ¬ q.MayDispatch := by
  cases move with
  | decide move =>
    cases rejects with
    | false =>
      cases move with
      | dispatch answer hargs => exact ⟨trivial, trivial, id⟩
      | idle r quiet => cases o <;> first | exact quiet.elim | cases hd
      | _ => cases hd
    | true =>
      cases move with
      | idle r quiet => cases o <;> first | exact quiet.elim | cases hd
      | _ => cases hd
  | turn done move =>
    -- the graph starts without a look at the record
    cases move with
    | go r thread first => cases first (triesCall_of_dispatches thread hd)
    | stray cp other => cases hd
  | resume move =>
    cases move with
    | go r thread first =>
      have htries := triesCall_of_dispatches thread hd
      refine ⟨congrArg TryPos.at (first htries), trivial, ?_⟩
      simp [ApprovalPos.MayDispatch, lookedAfter, htries]
    | stray cp other => cases hd
    | astray r => exact absurd rfl hp.onThread

/-- The claim is made once. -/
theorem ApprovalMove.claims (move : ApprovalMove rt sid toolCallId key rejects p o r q)
    (he : exec o env db = some (r, db')) (hp : p.Knows rt sid toolCallId rejects db h)
    (happroves : rejects = false) (hq : q.Claimed) :
    p.Claimed ∨ ¬ GrantSpent sid db ∧ GrantSpent sid db' := by
  subst happroves
  cases move with
  | decide move =>
    cases move with
    | consume now => exact .inr (GrantUpdate.spends_of_consume he)
    | idle => exact .inl hq
    | claim => exact .inl trivial
    | lookupNone => exact .inl trivial
    | lookupFailed => exact .inl trivial
    | lookupSucceeded => exact .inl trivial
    | lookupDenied => exact .inl trivial
    | deny => exact .inl trivial
    | denySession => exact .inl trivial
    | reserve => exact .inl trivial
    | reread => exact .inl trivial
    | dispatch => exact .inl trivial
    | markIdem => exact .inl trivial
    | markGrant => exact .inl trivial
    | markSession => exact .inl trivial
    | _ => exact hq.elim
  | @turn p q o r done move =>
    refine .inl ?_
    cases p with
    | rejected => exact absurd rfl (hp.approving rfl)
    | replayed s => exact trivial
    | closed s retry v => exact trivial
    | _ => exact (done rfl).elim
  | resume move => exact .inl trivial

/-- Nobody may dispatch the call but after the claim, or after a look at its record. -/
theorem ApprovalMove.mayDispatch (move : ApprovalMove rt sid toolCallId key rejects p o r q)
    (he : exec o env db = some (r, db')) (hp : p.Knows rt sid toolCallId rejects db h)
    (hq : q.MayDispatch) :
    p.MayDispatch ∨ (rejects = false ∧ ¬ GrantSpent sid db) ∨ mayBeTried key o r = true := by
  cases move with
  | decide move =>
    cases rejects with
    | false =>
      cases move with
      | consume now => exact .inr (.inl ⟨rfl, (GrantUpdate.spends_of_consume he).1⟩)
      | idle => exact .inl hq
      | claim => exact .inl trivial
      | lookupNone => exact .inl trivial
      | lookupFailed => exact .inl trivial
      | reserve => exact .inl trivial
      | reread => exact .inl trivial
      | _ => exact hq.elim
    | true =>
      cases move with
      | idle => exact .inl hq
      | _ => exact hq.elim
  | turn done move =>
    cases move with
    | go r thread first =>
      have hlooked := TryPos.at.inj hq
      simp only [lookedAfter, Bool.and_eq_true, Bool.or_eq_true] at hlooked
      exact .inr (.inr (hlooked.2.resolve_left (by decide)))
    | stray cp other => cases hq
  | resume move =>
    cases move with
    | go r thread first =>
      have hlooked := TryPos.at.inj hq
      simp only [lookedAfter, Bool.and_eq_true, Bool.or_eq_true] at hlooked
      rcases hlooked.2 with hlooked | htried
      · exact .inl (congrArg TryPos.at hlooked)
      · exact .inr (.inr htried)
    | stray cp other => cases hq
    | astray r => cases hq

/-- The thread stays the call's. -/
theorem ApprovalMove.thread (move : ApprovalMove rt sid toolCallId key rejects p o r q)
    (he : exec o env db = some (r, db')) (hp : p.Knows rt sid toolCallId rejects db h)
    (hthread : ∀ cp, db.threads.get sid = some cp → cp.ForCall rt toolCallId key) :
    (∀ cp, db'.threads.get sid = some cp → cp.ForCall rt toolCallId key) ∧
      (rejects = false → q ≠ .deciding .rejected) ∧ q ≠ .resuming .astray := by
  have hstored (hsave : ∀ cp, o = .thread (.save cp) → cp.ForCall rt toolCallId key) :
      ∀ cp, db'.threads.get sid = some cp → cp.ForCall rt toolCallId key := by
    intro cp hget
    rw [(exec_frame he).2.2.2] at hget
    rcases Op.get_threadsAfter hget with hget | ⟨hsaved, -⟩
    · exact hthread cp hget
    · exact hsave cp hsaved
  have htries {looked : Bool} {q : TryPos}
      (move : TryMove rt sid toolCallId key (.at looked) o r q) :
      (∀ cp, db'.threads.get sid = some cp → cp.ForCall rt toolCallId key) ∧ q ≠ .astray := by
    cases move with
    | go r thread first =>
      refine ⟨hstored ?_, by rintro ⟨⟩⟩
      rintro cp rfl
      exact thread
    | stray cp other =>
      obtain ⟨hget, -⟩ := exec_thread he
      exact absurd (hthread cp hget.symm) other
  cases move with
  | decide move =>
    refine ⟨hstored ?_, ?_, by rintro ⟨⟩⟩
    · rintro cp rfl
      cases rejects
      · cases move with
        | idle r quiet => exact quiet.elim
      · cases move with
        | idle r quiet => exact quiet.elim
    · rintro rfl
      change Move rt.py (.approve sid none) _ _ _ _ at move
      cases move with
      | idle r quiet => exact hp.approving rfl
      | _ => rintro ⟨⟩
  | turn done move =>
    obtain ⟨hkept, hq⟩ := htries move
    exact ⟨hkept, by rintro _ ⟨⟩, fun heq => hq (ApprovalPos.resuming.inj heq)⟩
  | @resume p q o r move =>
    cases p with
    | «at» looked =>
      obtain ⟨hkept, hq⟩ := htries move
      exact ⟨hkept, by rintro _ ⟨⟩, fun heq => hq (ApprovalPos.resuming.inj heq)⟩
    | astray => exact absurd rfl hp.onThread

end Step

/-- **The claim** leads to the executor's dispatch and to the graph; the condition keeps the
second from the call when the first has made it. -/
def approvalOutline (rt : AgentRuntime) (sid toolCallId key : String) :
    rt.server.Outline (approvalsHeeding rt sid toolCallId key)
      (fun req => ApprovalMove rt sid toolCallId key req.rejects) (fun _ => .deciding .start) where
  inv := CallStored rt sid toolCallId key
  asserts db h _ req p := p.Knows rt sid toolCallId req.rejects db h
  owns req p := req.rejects = false ∧ p.Claimed
  entry _ _ _ := ⟨⟨fun _ => False.elim, False.elim, by rintro _ ⟨⟩, by rintro ⟨⟩⟩, And.right⟩
  step {db db' h i req p q o r env} hi hp move he hok := by
    obtain ⟨hthread, hrejected, hastray⟩ := move.thread he hp hi.thread
    have hspent : GrantSpent sid db → GrantSpent sid db' := fun hs => hs.exec he
    have hclaimed : req.rejects = false → q.Claimed → GrantSpent sid db' := fun happroves hq =>
      (move.claims he hp happroves hq).elim (fun hp' => hspent (hp.spent happroves hp')) And.right
    cases hd : dispatchesCall rt sid toolCallId o with
    | true =>
      obtain ⟨hmay, hown, hnot⟩ := move.dispatches hp hd
      obtain ⟨happroves, hzero⟩ := hp.first hmay
      have hone : callDispatches rt sid toolCallId (⟨i, req, o, env, r⟩ :: h) = 1 :=
        (callDispatches_cons hd).trans (congrArg (· + 1) hzero)
      exact ⟨⟨fun _ => hspent (hp.spent happroves hown), hone.le, hthread⟩,
        ⟨hclaimed, fun hq => absurd hq hnot, hrejected, hastray⟩⟩
    | false =>
      have hsame := callDispatches_cons_of_not (h := h) (e := ⟨i, req, o, env, r⟩) hd
      refine ⟨⟨fun hn => hspent (hi.spent (hsame ▸ hn)), hsame ▸ hi.once, hthread⟩,
        ⟨hclaimed, fun hq => ?_, hrejected, hastray⟩⟩
      rw [hsame]
      rcases move.mayDispatch he hp hq with hmay | ⟨happroves, hfresh⟩ | htried
      · exact hp.first hmay
      · exact ⟨happroves, by_contra fun hn => hfresh (hi.spent hn)⟩
      · exact hok htried
  free {db db' h i req p q o r env j req' p'} hi hp hp' move he _ _ hex := by
    refine ⟨fun happroves hq => (hp'.spent happroves hq).exec he, fun hmay => ?_, hp'.approving,
      hp'.onThread⟩
    obtain ⟨happroves', hzero⟩ := hp'.first hmay
    -- who may dispatch has claimed the grant, and nobody else has
    have hclaimed : p'.Claimed := by
      cases p' with
      | deciding p' => exact Pos.Holds.claimed hmay
      | resuming p' => exact trivial
    cases hd : dispatchesCall rt sid toolCallId o with
    | true =>
      obtain ⟨hmay, hown, -⟩ := move.dispatches hp hd
      exact absurd ⟨⟨(hp.first hmay).1, hown⟩, happroves', hclaimed⟩ hex
    | false =>
      rw [callDispatches_cons_of_not hd]
      exact ⟨happroves', hzero⟩
  excl {db db' h i req p q o r env j req' p'} hi hp hp' move he ho hq :=
    ⟨hq.1, (move.claims he hp hq.1 hq.2).resolve_right fun hfresh =>
      hfresh.1 (hp'.spent ho.1 ho.2)⟩

/-- **Once, by whomever**: over any approvals and rejections of the session at the same time, by
any actors, with any answers of the tool server and crashes anywhere, the executor and the graph
together dispatch the call once at most, if no record is looked up as one that may be tried
after a dispatch, nor after a rejection. -/
theorem approved_call_dispatched_once {db : Db} {c : rt.server.Config}
    (hthread : ∀ cp, db.threads.get sid = some cp → cp.ForCall rt toolCallId key)
    (run : rt.server.Reach (approvalsHeeding rt sid toolCallId key) (Pool.init db) c) :
    callDispatches rt sid toolCallId c.hist ≤ 1 := by
  have hcode (req : Request) (start : (approvalsHeeding rt sid toolCallId key).start req) :
      Follows (ApprovalMove rt sid toolCallId key req.rejects) (fun _ _ => True) (rt.serve req)
        (.deciding .start) := by
    obtain ⟨runId, rfl | rfl⟩ := start
    · exact Follows.map (Follows.mono id (fun _ => trivial) (approveEndpoint_follows runId))
    · exact Follows.map (Follows.mono id (fun _ => trivial) (rejectEndpoint_follows runId))
  have hinit : CallStored rt sid toolCallId key db [] :=
    ⟨fun hn => absurd rfl hn, Nat.zero_le 1, hthread⟩
  exact ((approvalOutline rt sid toolCallId key).sound_inv hcode hinit run).once

/-! ## A transfer, once and twice -/

section Decidable

instance : DecidablePred (approvals sid).start
  | .approve sessionId runId =>
    decidable_of_iff (sessionId = sid)
      ⟨fun h => ⟨runId, .inl (h ▸ rfl)⟩, by rintro ⟨_, ⟨⟨⟩⟩ | ⟨⟨⟩⟩⟩; rfl⟩
  | .reject sessionId runId =>
    decidable_of_iff (sessionId = sid)
      ⟨fun h => ⟨runId, .inr (h ▸ rfl)⟩, by rintro ⟨_, ⟨⟨⟩⟩ | ⟨⟨⟩⟩⟩; rfl⟩
  | .agent _ => isFalse (by rintro ⟨_, ⟨⟨⟩⟩ | ⟨⟨⟩⟩⟩)

instance : Decidable (approvals sid).crash := instDecidableTrue

instance : Decidable (approvals sid).sequential := instDecidableFalse

instance (db : Db) (h : List (LogEntry Request)) (e : LogEntry Request) :
    Decidable ((approvals sid).ok db h e) := instDecidableTrue

instance : DecidablePred (approvalsHeeding rt sid toolCallId key).start :=
  inferInstanceAs (DecidablePred (approvals sid).start)

instance : Decidable (approvalsHeeding rt sid toolCallId key).crash := instDecidableTrue

instance : Decidable (approvalsHeeding rt sid toolCallId key).sequential := instDecidableFalse

instance (db : Db) (h : List (LogEntry Request)) (e : LogEntry Request) :
    Decidable ((approvalsHeeding rt sid toolCallId key).ok db h e) :=
  inferInstanceAs (Decidable (mayBeTried key e.op e.res = true →
    e.call.rejects = false ∧ callDispatches rt sid toolCallId h = 0))

end Decidable

/-- The customer has asked for a transfer, and the graph waits for an approval. -/
def suspendedDb : Db :=
  ((runAlone exec waitingEnv 60 (demoRuntime.serve (.agent transferRequest)) Db.empty).map
    fun x => x.2.2).getD Db.empty

/-- The thread is that of the transfer. -/
theorem suspendedDb_forCall : ∀ cp, suspendedDb.threads.get "s" = some cp →
    cp.ForCall demoRuntime "call-1" "s:call-1" := by
  have hall : (suspendedDb.threads.get "s").all (fun cp =>
      demoRuntime.recordKey cp.state.sessionId "call-1" = some "s:call-1") = true := by
    decide +kernel
  intro cp hget
  rw [hget] at hall
  exact of_decide_eq_true
    (p := demoRuntime.recordKey cp.state.sessionId "call-1" = some "s:call-1") hall

/-- Two operators approve at the same time, and the tool server answers. -/
def approvedTwice (outcome : McpOutcome) : List (Machine.Act Request Op Env) :=
  let go : Op → Env
    | .callTool _ _ => .mcp outcome
    | o => waitingEnv o
  [.spawn (.approve "s" "run-1"), .spawn (.approve "s" "run-2"), .steps 0 3 go, .steps 1 40 go,
    .steps 0 40 go]

/-- The transfer fails: it is dispatched once. -/
theorem failed_transfer_dispatched_once :
    ∃ c : demoRuntime.server.Config,
      demoRuntime.server.Reach (approvalsHeeding demoRuntime "s" "call-1" "s:call-1")
        (Pool.init suspendedDb) c ∧
        callDispatches demoRuntime "s" "call-1" c.hist = 1 ∧
          callDispatches demoRuntime "s" "call-1" c.hist ≤ 1 := by
  have hrun : ((demoRuntime.server.run? (approvalsHeeding demoRuntime "s" "call-1" "s:call-1")
    (approvedTwice demoFailure) (Pool.init suspendedDb)).map fun c =>
      decide (callDispatches demoRuntime "s" "call-1" c.hist = 1)).getD false = true := by
    decide +kernel
  obtain ⟨c, run, hc⟩ := Machine.exists_reach_of_run?
    (P := fun c => decide (callDispatches demoRuntime "s" "call-1" c.hist = 1)) hrun
  exact ⟨c, run, of_decide_eq_true hc, approved_call_dispatched_once suspendedDb_forCall run⟩

/-- The transfer succeeds: the executor dispatches it, and then the graph. -/
theorem approved_transfer_dispatched_twice :
    ∃ c : demoRuntime.server.Config,
      demoRuntime.server.Reach (approvals "s") (Pool.init suspendedDb) c ∧
        ¬ callDispatches demoRuntime "s" "call-1" c.hist ≤ 1 := by
  have hrun : ((demoRuntime.server.run? (approvals "s") (approvedTwice demoSuccess)
    (Pool.init suspendedDb)).map fun c =>
      decide (callDispatches demoRuntime "s" "call-1" c.hist = 2)).getD false = true := by
    decide +kernel
  obtain ⟨c, run, hc⟩ := Machine.exists_reach_of_run?
    (P := fun c => decide (callDispatches demoRuntime "s" "call-1" c.hist = 2)) hrun
  refine ⟨c, run, fun hle => ?_⟩
  rw [of_decide_eq_true hc] at hle
  exact absurd hle (by decide)

end BankingAgent
