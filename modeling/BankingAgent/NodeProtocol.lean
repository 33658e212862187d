import BankingAgent.ApprovalProtocol
import BankingAgent.Graph

/-!
# The protocol of the tool node

`_tool_node` goes through the calls of a message one after the other, and between two
calls it knows nothing of what the database holds. Within one call it looks the key
up, makes sure there is a record, calls the tool and records the outcome; a position
remembers the call it is at, and which calls were answered from the store.

The node shares the records with every other run of the node and with the approval
executor. `AgentRuntime.workers` is the machine of all of them.
-/

namespace BankingAgent

open Async

/-- Where the handling of a call stands, once the lookup has let it through. -/
inductive Stage : Type where
  /-- the record was looked at -/
  | looked
  /-- looked at again, there was none -/
  | missing
  /-- there is a record -/
  | present
  deriving DecidableEq

/-- The calls answered from the store so far, with the records. -/
abbrev StoredAnswers : Type := List (ToolRequest × IdempotencyRecord)

/-- Where a run of the node stands. -/
inductive NodePos : Type where
  /-- between two calls, or before the lookup of one -/
  | ready (stored : StoredAnswers)
  /-- the call is to be executed under the key -/
  | cleared (stored : StoredAnswers) (key : String) (tc : ToolRequest) (stage : Stage)
  /-- the tool server has answered it -/
  | answered (stored : StoredAnswers) (key : String) (tc : ToolRequest) (result : ToolResult)

/-- A call that was answered from the store. -/
def Handled.stored? (h : Handled) : Option (ToolRequest × IdempotencyRecord) :=
  match h.answer with
  | .stored existing => some (h.call, existing)
  | _ => none

/-- What a run of the node on the state `s` may do, and where it leads. -/
inductive NodeMove (rt : AgentRuntime) (s : AgentState) :
    NodePos → (o : Op) → o.Res → NodePos → Prop
  | idle {p : NodePos} {o : Op} (r : o.Res) (quiet : o.Quiet) : NodeMove rt s p o r p
  | lookupBroken {A : StoredAnswers} {key : String} {tc : ToolRequest}
      (row : IdempotencyRow) (hkey : rt.recordKey s.sessionId tc.id = some key)
      (hrow : row.toRecord rt.py = none) :
      NodeMove rt s (.ready A) (.idem (.select key)) (some row) (.ready A)
  | lookupSucceeded {A : StoredAnswers} {key : String} {tc : ToolRequest} {row : IdempotencyRow}
      {existing : IdempotencyRecord} (hkey : rt.recordKey s.sessionId tc.id = some key)
      (hrow : row.toRecord rt.py = some existing) (hst : row.status = .succeeded) :
      NodeMove rt s (.ready A) (.idem (.select key)) (some row) (.ready (A ++ [(tc, existing)]))
  | lookupUnfinished {A : StoredAnswers} {key : String} {tc : ToolRequest} {row : IdempotencyRow}
      (hkey : rt.recordKey s.sessionId tc.id = some key)
      (hst : row.status = .executing ∨ row.status = .unknown)
      (hkind : rt.operationKind tc.name ≠ .read) :
      NodeMove rt s (.ready A) (.idem (.select key)) (some row) (.ready A)
  | lookupNone {A : StoredAnswers} {key : String} {tc : ToolRequest}
      (hkey : rt.recordKey s.sessionId tc.id = some key) :
      NodeMove rt s (.ready A) (.idem (.select key)) none (.cleared A key tc .looked)
  | lookupRetry {A : StoredAnswers} {key : String} {tc : ToolRequest} {row : IdempotencyRow}
      (hkey : rt.recordKey s.sessionId tc.id = some key)
      (hst : row.status = .failed ∨ row.status = .reserved) :
      NodeMove rt s (.ready A) (.idem (.select key)) (some row) (.cleared A key tc .looked)
  | lookupRead {A : StoredAnswers} {key : String} {tc : ToolRequest} {row : IdempotencyRow}
      (hkey : rt.recordKey s.sessionId tc.id = some key)
      (hst : row.status = .executing ∨ row.status = .unknown)
      (hkind : rt.operationKind tc.name = .read) :
      NodeMove rt s (.ready A) (.idem (.select key)) (some row) (.cleared A key tc .looked)
  | markExecuting {A : StoredAnswers} {key : String} {tc : ToolRequest} (hit : Bool) :
      NodeMove rt s (.cleared A key tc .looked) (.idem (.update key .executing)) hit
        (.cleared A key tc .looked)
  | recheckSome {A : StoredAnswers} {key : String} {tc : ToolRequest} (row : IdempotencyRow) :
      NodeMove rt s (.cleared A key tc .looked) (.idem (.select key)) (some row)
        (.cleared A key tc .present)
  | recheckNone {A : StoredAnswers} {key : String} {tc : ToolRequest} :
      NodeMove rt s (.cleared A key tc .looked) (.idem (.select key)) none
        (.cleared A key tc .missing)
  | reserve {A : StoredAnswers} {key : String} {tc : ToolRequest} (text now : String)
      (hit : Bool) :
      NodeMove rt s (.cleared A key tc .missing) (.idem (.reserve key tc.name text now)) hit
        (.cleared A key tc .present)
  | reread {A : StoredAnswers} {key : String} {tc : ToolRequest} (row : Option IdempotencyRow) :
      NodeMove rt s (.cleared A key tc .present) (.idem (.select key)) row
        (.cleared A key tc .present)
  | execute {A : StoredAnswers} {key : String} {tc : ToolRequest} (result : ToolResult)
      (hkey : rt.recordKey s.sessionId tc.id = some key) :
      NodeMove rt s (.cleared A key tc .present)
        (.callTool (.node s.messages.length tc.id (some key)) ⟨.str tc.name, tc.args⟩) (.ok result)
        (.answered A key tc result)
  | executeRaised {A : StoredAnswers} {key : String} {tc : ToolRequest} (exc : Exn)
      (hkey : rt.recordKey s.sessionId tc.id = some key) :
      NodeMove rt s (.cleared A key tc .present)
        (.callTool (.node s.messages.length tc.id (some key)) ⟨.str tc.name, tc.args⟩) (.error exc)
        (.ready A)
  | executeUnrecorded {A : StoredAnswers} {tc : ToolRequest} (answer : Except Exn ToolResult)
      (hkey : rt.recordKey s.sessionId tc.id = none) :
      NodeMove rt s (.ready A)
        (.callTool (.node s.messages.length tc.id none) ⟨.str tc.name, tc.args⟩) answer (.ready A)
  | succeed {A : StoredAnswers} {key : String} {tc : ToolRequest} {result : ToolResult}
      (now : String) (hit : Bool) (hs : result.success = true) :
      NodeMove rt s (.answered A key tc result) (.idem (.update key (.succeeded result.content now)))
        hit (.ready A)
  | fail {A : StoredAnswers} {key : String} {tc : ToolRequest} {result : ToolResult}
      (error now : String) (hit : Bool) (hs : result.success = false) :
      NodeMove rt s (.answered A key tc result) (.idem (.update key (.failed error now))) hit
        (.ready A)

theorem idles_nodeMove (rt : AgentRuntime) (s : AgentState) : Idles (NodeMove rt s) :=
  fun _ _ r quiet => .idle r quiet

/-! ## The walk -/

section Walk

variable {rt : AgentRuntime} {s : AgentState} {A : StoredAnswers} {tc : ToolRequest}

/-- After a step that may raise, the node stands somewhere; else as it is said. -/
def Returns {α : Type} (P : NodePos → α → Prop) (p : NodePos) : Except Exn α → Prop
  | .ok a => P p a
  | .error _ => True

theorem reserve_follows {key : String} :
    Follows (NodeMove rt s) (Returns fun p _ => p = .cleared A key tc .present)
      (rt.reserveUnlessPresent tc (some key)) (.cleared A key tc .looked) := by
  have idle := idles_nodeMove rt s
  refine Walk.idemGet ?_ ?_ ?_
  · refine ⟨_, .recheckNone, Walk.reserve idle fun text now hit => ⟨_, .reserve text now hit, ?_⟩⟩
    refine ⟨⟨_, .reread none, trivial⟩, fun row _ => ⟨_, .reread (some row), trivial⟩, ?_⟩
    exact fun row _ _ => ⟨_, .reread (some row), rfl⟩
  · exact fun row _ => ⟨_, .recheckSome row, trivial⟩
  · exact fun row _ _ => ⟨_, .recheckSome row, rfl⟩

theorem recordOutcome_follows {key : String} (result : ToolResult) :
    Follows (NodeMove rt s) (Returns fun p _ => p = .ready A)
      (rt.recordOutcome result (some key)) (.answered A key tc result) := by
  have idle := idles_nodeMove rt s
  rw [AgentRuntime.recordOutcome]
  cases hs : result.success with
  | true => exact Walk.markSucceeded idle fun now hit => ⟨_, .succeed now hit hs, rfl⟩
  | false => exact Walk.markFailed idle fun now hit => ⟨_, .fail _ now hit hs, rfl⟩

/-- Executing a call ends between two calls. -/
theorem executeCall_follows {key : Option String} (hkey : rt.recordKey s.sessionId tc.id = key) :
    Follows (NodeMove rt s) (Returns fun p _ => p = .ready A)
      (rt.executeCall s.messages.length key tc)
      (key.elim (.ready A) fun k => .cleared A k tc .looked) := by
  cases key with
  | none =>
    exact Walk.callTool (fun result => ⟨_, .executeUnrecorded (.ok result) hkey, rfl⟩)
      fun exc => ⟨_, .executeUnrecorded (.error exc) hkey, trivial⟩
  | some key =>
    refine Follows.bind ?_ (fun _ => trivial) reserve_follows
    rintro _ _ rfl
    refine Walk.callTool (fun result => ⟨_, .execute result hkey, ?_⟩)
      fun exc => ⟨_, .executeRaised exc hkey, trivial⟩
    refine Follows.bind ?_ (fun _ => trivial) (recordOutcome_follows result)
    rintro _ _ rfl
    exact rfl

/-- The lookup: an answer from the store, no answer, or a call to be executed. -/
theorem checkRecord_follows {key : Option String} (hkey : rt.recordKey s.sessionId tc.id = key) :
    Follows (NodeMove rt s)
      (Returns fun p answer => match answer with
        | some a => p = .ready (A ++ (Handled.stored? ⟨tc, a⟩).toList)
        | none => p = key.elim (.ready A) fun k => .cleared A k tc .looked)
      (rt.checkRecord (rt.operationKind tc.name) key) (.ready A) := by
  cases key with
  | none => exact rfl
  | some key =>
    refine Walk.idemGet ⟨_, .lookupNone hkey, rfl⟩
      (fun row h => ⟨_, .lookupBroken row hkey h, trivial⟩) ?_
    intro row existing hrow
    have hst := IdempotencyRow.status_toRecord hrow
    simp only [hst]
    -- an unfinished record stops the call unless it only reads
    have unfinished (h : row.status = .executing ∨ row.status = .unknown) :
        ∃ q, NodeMove rt s (.ready A) (.idem (.select key)) (some row) q ∧
          (if rt.operationKind tc.name = .read then q = .cleared A key tc .looked
            else q = .ready A) := by
      by_cases hkind : rt.operationKind tc.name = .read
      · exact ⟨_, .lookupRead hkey h hkind, by rw [if_pos hkind]⟩
      · exact ⟨_, .lookupUnfinished hkey h hkind, by rw [if_neg hkind]⟩
    cases hs : row.status with
    | succeeded => exact ⟨_, .lookupSucceeded hkey hrow hs, rfl⟩
    | failed => exact ⟨_, .lookupRetry hkey (.inl hs), fun hit => ⟨_, .markExecuting hit, rfl⟩⟩
    | reserved => exact ⟨_, .lookupRetry hkey (.inr hs), fun hit => ⟨_, .markExecuting hit, rfl⟩⟩
    | executing =>
      obtain ⟨q, hq, h⟩ := unfinished (.inl hs)
      refine ⟨q, hq, ?_⟩
      split at h <;> rename_i hkind <;> subst h <;> simp [hkind, Returns, Handled.stored?]
    | unknown =>
      obtain ⟨q, hq, h⟩ := unfinished (.inr hs)
      refine ⟨q, hq, ?_⟩
      split at h <;> rename_i hkind <;> subst h <;> simp [hkind, Returns, Handled.stored?]

/-- An approved call, answered from the store or executed. -/
theorem answerCall_follows :
    Follows (NodeMove rt s)
      (Returns fun p answer => p = .ready (A ++ (Handled.stored? ⟨tc, answer⟩).toList))
      (rt.answerCall s.messages.length s.sessionId tc) (.ready A) := by
  refine Follows.bind ?_ (fun _ => trivial) (checkRecord_follows rfl)
  intro p answer h
  cases answer with
  | some answer => exact h
  | none =>
    obtain rfl := h
    refine Follows.bind ?_ (fun _ => trivial) (executeCall_follows rfl)
    rintro _ result rfl
    simp [Returns, Handled.stored?]

/-- The gate never answers from the store. -/
theorem authorizeCall_follows {resumes : List Json} {n : ℕ} :
    Follows (NodeMove rt s)
      (Returns fun p gate => p = .ready A ∧
        ∀ answer, gate.1 = .error answer → Handled.stored? ⟨tc, answer⟩ = none)
      (rt.authorizeCall s.sessionId resumes n tc) (.ready A) := by
  have idle := idles_nodeMove rt s
  refine Walk.quiet idle trivial fun decision => ?_
  cases decision.decision with
  | approved => exact ⟨rfl, fun _ h => nomatch h⟩
  | denied => exact ⟨rfl, by rintro _ ⟨⟩; rfl⟩
  | pending =>
    refine Walk.quiet idle trivial fun _ => ?_
    cases resumes[n]? with
    | none => exact trivial
    | some approval =>
      refine ⟨rfl, fun answer h => ?_⟩
      simp only [readApproval] at h
      split at h <;> cases h <;> rfl

theorem handleCall_follows {resumes : List Json} {progress : Progress} :
    Follows (NodeMove rt s) (Returns fun p x => p = .ready (A ++ x.1.stored?.toList))
      (rt.handleCall s resumes progress tc) (.ready A) := by
  rw [AgentRuntime.handleCall]
  cases rt.validationError tc with
  | some error => simp [Returns, Handled.stored?]
  | none =>
    by_cases hdone : tc.id ≠ "" ∧ tc.id ∈ progress.executedIds
    · simp only [if_pos hdone]
      simp [Returns, Handled.stored?]
    · simp only [if_neg hdone]
      refine Follows.bind ?_ (fun _ => trivial) authorizeCall_follows
      rintro _ ⟨gate, interrupts⟩ ⟨rfl, hgate⟩
      cases gate with
      | error answer =>
        have hnone : Handled.stored? ⟨tc, answer⟩ = none := hgate answer rfl
        simp [Returns, hnone]
      | ok call =>
        refine Follows.bind ?_ (fun _ => trivial) answerCall_follows
        rintro _ answer rfl
        exact rfl

/-- **The loop**: it ends between two calls, knowing which ones the store answered. -/
theorem handleCalls_follows {resumes : List Json} (calls : List ToolRequest) :
    ∀ {progress : Progress} {A : StoredAnswers},
      Follows (NodeMove rt s)
        (Returns fun p x => p = .ready (A ++ x.1.filterMap Handled.stored?))
        (rt.handleCalls s resumes calls progress) (.ready A) := by
  induction calls with
  | nil =>
    intro progress A
    simp [AgentRuntime.handleCalls, Returns]
  | cons tc rest ih =>
    intro progress A
    refine Follows.bind ?_ (fun _ => trivial) handleCall_follows
    rintro _ first rfl
    refine Follows.bind ?_ (fun _ => trivial) ih
    rintro _ others rfl
    cases hfirst : first.1.stored? <;> simp [Returns, hfirst]

end Walk

/-! ## The machine of all users of the store -/

/-- What runs against the one database: the tool node, on any state with any answers to
its interrupts, and the decisions. -/
inductive Work : Type where
  | toolNode (state : AgentState) (resumes : List Json)
  | decision (call : Call)

/-- What a piece of work returns. -/
inductive WorkReply : Type where
  | handled (calls : List Handled)
  | decided (reply : Reply)

/-- The coroutine of a piece of work. -/
def AgentRuntime.workCode (rt : AgentRuntime) : Work → Co WorkReply
  | .toolNode s resumes => (fun done => .handled done.1) <$> rt.runTools s resumes
  | .decision call => .decided <$> code rt.toDeployment call

/-- The machine. -/
def AgentRuntime.workers (rt : AgentRuntime) : Machine Op Op.Res Exn WorkReply Work Env Db :=
  ⟨exec, rt.workCode⟩

/-- Where a piece of work stands. -/
inductive WorkPos : Type where
  | node (p : NodePos)
  | decision (p : Pos)

/-- The protocol of each piece of work. -/
inductive WorkMove (rt : AgentRuntime) : Work → WorkPos → (o : Op) → o.Res → WorkPos → Prop
  | node {s : AgentState} {resumes : List Json} {p q : NodePos} {o : Op} {r : o.Res}
      (move : NodeMove rt s p o r q) : WorkMove rt (.toolNode s resumes) (.node p) o r (.node q)
  | decision {call : Call} {p q : Pos} {o : Op} {r : o.Res} (move : Move rt.py call p o r q) :
      WorkMove rt (.decision call) (.decision p) o r (.decision q)

/-- Where a piece of work starts. -/
def Work.entry : Work → WorkPos
  | toolNode _ _ => .node (.ready [])
  | decision _ => .decision .start

/-- How it ends. -/
def WorkPos.Ends (py : PyLib) : Work → WorkPos → Except Exn WorkReply → Prop
  | .toolNode _ _, .node p, out =>
    ∃ res, out = res.map .handled ∧
      Returns (fun p handled => p = .ready (handled.filterMap Handled.stored?)) p res
  | .decision call, .decision p, out => ∃ res, out = res.map .decided ∧ p.EndsCall py call res
  | _, _, _ => False

/-- Every piece of work obeys its protocol. -/
theorem work_follows (rt : AgentRuntime) (w : Work)
    (dec : ∀ call, w = .decision call → call.IsDecision) :
    Follows (WorkMove rt w) (WorkPos.Ends rt.py w) (rt.workCode w) w.entry := by
  cases w with
  | toolNode s resumes =>
    refine Follows.map
      (follows_embed WorkPos.node (fun move => .node move) ?_ (handleCalls_follows s.lastCalls))
    intro p out h
    cases out with
    | ok done => exact ⟨.ok done.1, rfl, by simpa [Returns] using h⟩
    | error e => exact ⟨.error e, rfl, trivial⟩
  | decision call =>
    refine Follows.map (follows_embed WorkPos.decision (fun move => .decision move) ?_
      (decision_follows rt.toDeployment call (dec call rfl)))
    exact fun h => ⟨_, rfl, h⟩

end BankingAgent
