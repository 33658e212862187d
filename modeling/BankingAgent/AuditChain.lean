import BankingAgent.Recording
import Mathlib.Data.List.Chain

/-!
# `audit/models.py`: the chain of hashes

Every event of an audit trail carries a hash of some of its fields and of the hash before it.
The verifier computes the hash of every event but the first again, from the hash the event
before it carries. It does not look at the previous hash an event names, nor at the fields that
are left out of the hash.

* `tampering_detected_iff` — with an honest chain, a change of one field is noticed exactly if
  the event is not the first and the field goes into the hash; the removal of an event that is
  not the last, exactly if it is not the first and its hash is not the one before it again.
-/

namespace BankingAgent

/-! ## The model -/

/-- `AuditEventKind`. -/
inductive AuditEventKind : Type where
  | agentRunStarted
  | llmCall
  | toolProposed
  | authorizationDecision
  | approvalRequested
  | approvalGranted
  | approvalRejected
  | toolExecuted
  | toolFailed
  | finalResponse
  | errorOccurred
  | configChanged
  deriving DecidableEq, Repr

/-- `AuditEventKind.value`. -/
def AuditEventKind.value : AuditEventKind → String
  | agentRunStarted => "agent_run_started"
  | llmCall => "llm_call"
  | toolProposed => "tool_proposed"
  | authorizationDecision => "authorization_decision"
  | approvalRequested => "approval_requested"
  | approvalGranted => "approval_granted"
  | approvalRejected => "approval_rejected"
  | toolExecuted => "tool_executed"
  | toolFailed => "tool_failed"
  | finalResponse => "final_response"
  | errorOccurred => "error_occurred"
  | configChanged => "config_changed"

/-- `AuditEvent`. -/
structure AuditEvent : Type where
  eventId : String
  kind : AuditEventKind
  actorId : String
  tenantId : String
  sessionId : String
  threadId : String
  timestamp : String
  details : String
  previousHash : String
  eventHash : String
  promptVersion : String
  modelVersion : String
  toolVersion : String

/-- `ComplianceEvidenceBundle`, without the time it was made. -/
structure ComplianceEvidenceBundle : Type where
  bundleId : String
  timeRangeStart : String
  timeRangeEnd : String
  eventCount : ℕ
  hashChainVerified : Bool
  controlsCovered : List String

section Model

variable (py : PyLib)

/-- `compute_hash`, of an event's own fields and a previous hash. -/
def AuditEvent.computeHash (e : AuditEvent) (previousHash : String) : String :=
  py.sha256
    (e.eventId ++ "|" ++ e.timestamp ++ "|" ++ e.kind.value ++ "|" ++ e.details ++ "|" ++
      previousHash)

/-- The loop of `build_evidence_bundle`, behind an event with the given hash: it ends with the
first event whose hash is not the one expected. -/
def chainOkAfter (previousHash : String) : List AuditEvent → Bool
  | [] => true
  | e :: events =>
    if e.eventHash ≠ e.computeHash py previousHash then false
    else chainOkAfter e.eventHash events

/-- `chain_ok`; the first event is passed over. -/
def chainOk : List AuditEvent → Bool
  | [] => true
  | e :: events => chainOkAfter py e.eventHash events

/-- `build_evidence_bundle`. -/
def buildEvidenceBundle (bundleId : String) (events : List AuditEvent)
    (controls : List String) : ComplianceEvidenceBundle :=
  { bundleId
    timeRangeStart := (events.head?.map AuditEvent.timestamp).getD ""
    timeRangeEnd := (events.getLast?.map AuditEvent.timestamp).getD ""
    eventCount := events.length
    hashChainVerified := chainOk py events
    controlsCovered := controls }

/-! ## Honest chains -/

/-- Every hash is the hash of the event and of the hash before it, which is the previous hash
the event names. -/
def HonestAfter (previousHash : String) : List AuditEvent → Prop
  | [] => True
  | e :: events => e.previousHash = previousHash ∧ e.eventHash = e.computeHash py previousHash ∧
      HonestAfter e.eventHash events

/-- The first event names no hash. -/
def Honest (events : List AuditEvent) : Prop := HonestAfter py "" events

/-- What the verifier expects of two events in a row. -/
def Linked (previous e : AuditEvent) : Prop := e.eventHash = e.computeHash py previous.eventHash

end Model

/-- A new value for one field other than the hash. -/
inductive FieldChange : Type where
  | eventId (v : String)
  | kind (v : AuditEventKind)
  | actorId (v : String)
  | tenantId (v : String)
  | sessionId (v : String)
  | threadId (v : String)
  | timestamp (v : String)
  | details (v : String)
  | previousHash (v : String)
  | promptVersion (v : String)
  | modelVersion (v : String)
  | toolVersion (v : String)

namespace FieldChange

/-- The event with the new value. -/
def apply (e : AuditEvent) : FieldChange → AuditEvent
  | eventId v => { e with eventId := v }
  | kind v => { e with kind := v }
  | actorId v => { e with actorId := v }
  | tenantId v => { e with tenantId := v }
  | sessionId v => { e with sessionId := v }
  | threadId v => { e with threadId := v }
  | timestamp v => { e with timestamp := v }
  | details v => { e with details := v }
  | previousHash v => { e with previousHash := v }
  | promptVersion v => { e with promptVersion := v }
  | modelVersion v => { e with modelVersion := v }
  | toolVersion v => { e with toolVersion := v }

/-- The field goes into the hash. -/
def Hashed : FieldChange → Prop
  | eventId _ | kind _ | timestamp _ | details _ => True
  | _ => False

end FieldChange

/-- The events between which something is changed, and what. -/
inductive Tampering : Type where
  /-- one field of one event -/
  | replace (before : List AuditEvent) (e : AuditEvent) (after : List AuditEvent)
      (change : FieldChange)
  /-- an event is left out, and it is not the last -/
  | delete (before : List AuditEvent) (e next : AuditEvent) (after : List AuditEvent)

namespace Tampering

/-- The events before. -/
def original : Tampering → List AuditEvent
  | replace before e after _ => before ++ e :: after
  | delete before e next after => before ++ e :: next :: after

/-- The events afterwards. -/
def result : Tampering → List AuditEvent
  | replace before e after change => before ++ change.apply e :: after
  | delete before _ next after => before ++ next :: after

/-- The new value is another one. -/
def Changes : Tampering → Prop
  | replace _ e _ change => change.apply e ≠ e
  | delete _ _ _ _ => True

/-- The place is one the verifier looks at. -/
def Covered : Tampering → Prop
  | replace before _ _ change => before ≠ [] ∧ change.Hashed
  | delete before e _ _ => ∃ previous, before.getLast? = some previous ∧
      previous.eventHash ≠ e.eventHash

end Tampering

/-! ## The verifier and the links -/

section Chain

variable {py : PyLib} {before after events : List AuditEvent} {e e' next : AuditEvent}
  {change : FieldChange}

theorem chainOkAfter_iff : chainOkAfter py e.eventHash events = true ↔
    (e :: events).IsChain (Linked py) := by
  induction events generalizing e with
  | nil => simp [chainOkAfter]
  | cons next events ih =>
    rw [chainOkAfter, List.isChain_cons_cons]
    split
    · rename_i hbroken
      exact iff_of_false (by simp) fun h => hbroken h.1
    · rename_i hlinked
      exact ih.trans (and_iff_right (not_not.mp hlinked)).symm

/-- The verifier accepts what is linked from the first event on. -/
theorem chainOk_iff : chainOk py events = true ↔ events.IsChain (Linked py) := by
  cases events with
  | nil => simp [chainOk]
  | cons e events => exact chainOkAfter_iff

theorem HonestAfter.isChain {previousHash : String} (h : HonestAfter py previousHash events) :
    events.IsChain (Linked py) := by
  induction events generalizing previousHash with
  | nil => exact .nil
  | cons e events ih =>
    obtain ⟨-, -, hrest⟩ := h
    refine List.isChain_cons.mpr ⟨fun next hnext => ?_, ih hrest⟩
    cases events with
    | nil => cases hnext
    | cons e' events =>
      obtain rfl := Option.some.inj hnext
      exact hrest.2.1

/-- An event that keeps its hash is replaced: the link before it counts, the one behind it
holds as before. -/
theorem isChain_replace_iff (h : (before ++ e :: after).IsChain (Linked py))
    (hhash : e'.eventHash = e.eventHash) : (before ++ e' :: after).IsChain (Linked py) ↔
      ∀ previous ∈ before.getLast?, Linked py previous e' := by
  obtain ⟨hbefore, hrest, -⟩ := List.isChain_append.mp h
  obtain ⟨hnext, hafter⟩ := List.isChain_cons.mp hrest
  have hrest' : (e' :: after).IsChain (Linked py) := by
    refine List.isChain_cons.mpr ⟨fun next hn => ?_, hafter⟩
    rw [Linked, hhash]
    exact hnext next hn
  rw [List.isChain_append]
  constructor
  · rintro ⟨-, -, hlink⟩ previous hp
    exact hlink previous hp e' rfl
  · intro hlink
    refine ⟨hbefore, hrest', fun previous hp next hn => ?_⟩
    obtain rfl := Option.some.inj hn
    exact hlink previous hp

/-- An event is left out: the events around it have to be linked. -/
theorem isChain_delete_iff (h : (before ++ e :: next :: after).IsChain (Linked py)) :
    (before ++ next :: after).IsChain (Linked py) ↔
      ∀ previous ∈ before.getLast?, Linked py previous next := by
  obtain ⟨hbefore, hrest, -⟩ := List.isChain_append.mp h
  rw [List.isChain_append]
  constructor
  · rintro ⟨-, -, hlink⟩ previous hp
    exact hlink previous hp next rfl
  · intro hlink
    refine ⟨hbefore, (List.isChain_cons.mp hrest).2, fun previous hp next' hn => ?_⟩
    obtain rfl := Option.some.inj hn
    exact hlink previous hp

/-! ## What goes into a hash -/

theorem eventHash_apply : (change.apply e).eventHash = e.eventHash := by cases change <;> rfl

theorem AuditEventKind.value_injective : Function.Injective AuditEventKind.value := by
  intro a b h
  cases a <;> cases b <;> first | rfl | exact absurd h (by decide)

theorem computeHash_apply_of_not_hashed (h : ¬ change.Hashed) (previousHash : String) :
    (change.apply e).computeHash py previousHash = e.computeHash py previousHash := by
  cases change with
  | eventId | kind | timestamp | details => exact absurd trivial h
  | _ => rfl

/-- Another value of a field is another text, since the rest of it stays. -/
theorem computeHash_apply_ne (inj : Function.Injective py.sha256) (h : change.Hashed)
    (hne : change.apply e ≠ e) (previousHash : String) :
    (change.apply e).computeHash py previousHash ≠ e.computeHash py previousHash := by
  intro heq
  -- the texts are the same but for the field, so the field is
  have htext := inj heq
  refine hne ?_
  cases change with
  | eventId v =>
    have hv : v = e.eventId := by simpa [FieldChange.apply, ← String.toList_inj] using htext
    subst hv
    rfl
  | kind v =>
    have hv : v.value = e.kind.value := by
      simpa [FieldChange.apply, ← String.toList_inj] using htext
    obtain rfl := AuditEventKind.value_injective hv
    rfl
  | timestamp v =>
    have hv : v = e.timestamp := by simpa [FieldChange.apply, ← String.toList_inj] using htext
    subst hv
    rfl
  | details v =>
    have hv : v = e.details := by simpa [FieldChange.apply, ← String.toList_inj] using htext
    subst hv
    rfl
  | _ => exact h.elim

/-- The hash of an event determines the one before it. -/
theorem computeHash_inj (inj : Function.Injective py.sha256) {a b : String} :
    e.computeHash py a = e.computeHash py b ↔ a = b := by
  refine ⟨fun h => ?_, fun h => h ▸ rfl⟩
  have htext := inj h
  simpa [← String.toList_inj] using htext

/-! ## Tampering -/

theorem replace_accepted_iff (inj : Function.Injective py.sha256)
    (h : (before ++ e :: after).IsChain (Linked py)) (hne : change.apply e ≠ e) :
    (before ++ change.apply e :: after).IsChain (Linked py) ↔
      ¬ (before ≠ [] ∧ change.Hashed) := by
  rw [isChain_replace_iff h eventHash_apply]
  have hlinked := (List.isChain_append.mp h).2.2
  cases hlast : before.getLast? with
  | none =>
    obtain rfl := List.getLast?_eq_none_iff.mp hlast
    exact iff_of_true (by rintro _ ⟨⟩) fun hb => hb.1 rfl
  | some previous =>
    have hbefore : before ≠ [] := by
      rintro rfl
      cases hlast
    have hlink : e.eventHash = e.computeHash py previous.eventHash :=
      hlinked previous hlast e rfl
    -- the change keeps the stored hash, so the link breaks if the computed one changes
    by_cases hhashed : change.Hashed
    · refine iff_of_false (fun hall => ?_) (not_not.mpr ⟨hbefore, hhashed⟩)
      have hlink' := hall previous rfl
      rw [Linked, eventHash_apply, hlink] at hlink'
      exact computeHash_apply_ne inj hhashed hne _ hlink'.symm
    · refine iff_of_true ?_ fun hb => hhashed hb.2
      rintro _ ⟨⟩
      rw [Linked, eventHash_apply, computeHash_apply_of_not_hashed hhashed]
      exact hlink

theorem delete_accepted_iff (inj : Function.Injective py.sha256)
    (h : (before ++ e :: next :: after).IsChain (Linked py)) :
    (before ++ next :: after).IsChain (Linked py) ↔
      ¬ ∃ previous, before.getLast? = some previous ∧ previous.eventHash ≠ e.eventHash := by
  rw [isChain_delete_iff h]
  have hnext : next.eventHash = next.computeHash py e.eventHash :=
    (List.isChain_cons_cons.mp (List.isChain_append.mp h).2.1).1
  constructor
  · rintro hall ⟨previous, hp, hne⟩
    have hlink : next.eventHash = _ := hall previous hp
    exact hne ((computeHash_inj inj).mp (hlink.symm.trans hnext))
  · intro hnone previous hp
    by_contra hbroken
    refine hnone ⟨previous, hp, fun heq => hbroken ?_⟩
    rw [Linked, heq]
    exact hnext

theorem result_accepted_iff (inj : Function.Injective py.sha256) {tampering : Tampering}
    (h : Honest py tampering.original) (hchanges : tampering.Changes) :
    tampering.result.IsChain (Linked py) ↔ ¬ tampering.Covered := by
  cases tampering with
  | replace before e after change => exact replace_accepted_iff inj h.isChain hchanges
  | delete before e next after => exact delete_accepted_iff inj h.isChain

end Chain

/-- **Tampering is detected** in an honest chain exactly if it happens behind the first event,
to a field that goes into the hash or to an event whose hash is not the one before it again. -/
theorem tampering_detected_iff (py : PyLib) (inj : Function.Injective py.sha256)
    (bundleId : String) (controls : List String) (tampering : Tampering)
    (honest : Honest py tampering.original) (changes : tampering.Changes) :
    (buildEvidenceBundle py bundleId tampering.result controls).hashChainVerified = false ↔
      tampering.Covered := by
  have haccepted : chainOk py tampering.result = true ↔ ¬ tampering.Covered :=
    chainOk_iff.trans (result_accepted_iff inj honest changes)
  rw [← not_iff_not, Bool.not_eq_false]
  exact haccepted

/-! ## Two events -/

/-- SHA-256 on the three texts the two events give rise to. -/
def chainedPy : PyLib :=
  { demoPy with
    sha256 :=
      (Equiv.swap "e1|2024-01-01T00:00:00+00:00|agent_run_started|{}|"
        "da3080ac8d048afea583a77111b9d611131975bb3cf54a1cf21a13ee6f266774").trans
      ((Equiv.swap ("e2|2024-01-01T00:00:01+00:00|tool_executed|{}|" ++
          "da3080ac8d048afea583a77111b9d611131975bb3cf54a1cf21a13ee6f266774")
        "199c4f2f7d3c36fbe32148ce0b061068f3c2ad61e6006278b335ed6c0e638cc3").trans
      (Equiv.swap ("e2|2024-01-01T00:00:01+00:00|tool_failed|{}|" ++
          "da3080ac8d048afea583a77111b9d611131975bb3cf54a1cf21a13ee6f266774")
        "94203fd3f928e238c0502305ee435339f0d578e58de39ff8d18f9d7f9f7d0268")) }

/-- The start of a run. -/
def startedEvent : AuditEvent :=
  ⟨"e1", .agentRunStarted, "alice", "default", "", "", "2024-01-01T00:00:00+00:00", "{}", "",
    "da3080ac8d048afea583a77111b9d611131975bb3cf54a1cf21a13ee6f266774", "", "", ""⟩

/-- A tool that was called in it. -/
def executedEvent : AuditEvent :=
  ⟨"e2", .toolExecuted, "alice", "default", "", "", "2024-01-01T00:00:01+00:00", "{}",
    "da3080ac8d048afea583a77111b9d611131975bb3cf54a1cf21a13ee6f266774",
    "199c4f2f7d3c36fbe32148ce0b061068f3c2ad61e6006278b335ed6c0e638cc3", "", "", ""⟩

theorem honest_two_events : Honest chainedPy [startedEvent, executedEvent] :=
  ⟨rfl, by decide +kernel, rfl, by decide +kernel, trivial⟩

/-- Somebody else has started the run: the first event is not looked at, and the actor is part
of no hash. -/
theorem forged_actor_accepted :
    Honest chainedPy [startedEvent, executedEvent] ∧
      FieldChange.apply startedEvent (.actorId "mallory") ≠ startedEvent ∧
      (buildEvidenceBundle chainedPy "b1"
        [FieldChange.apply startedEvent (.actorId "mallory"), executedEvent]
        []).hashChainVerified = true := by
  refine ⟨honest_two_events, fun h => ?_, by decide +kernel⟩
  exact absurd (congrArg AuditEvent.actorId h) (by decide)

/-- The tool has failed instead: that is noticed. -/
theorem forged_kind_detected :
    (buildEvidenceBundle chainedPy "b1"
      [startedEvent, FieldChange.apply executedEvent (.kind .toolFailed)]
      []).hashChainVerified = false := by
  refine (tampering_detected_iff chainedPy (Equiv.injective _) "b1" []
    (.replace [startedEvent] executedEvent [] (.kind .toolFailed)) honest_two_events
    fun h => ?_).mpr ⟨by simp, trivial⟩
  exact absurd (congrArg AuditEvent.kind h) (by decide)

end BankingAgent
