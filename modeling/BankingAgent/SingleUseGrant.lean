import BankingAgent.Recording

/-!
# A grant for one operation

`ApprovedOperationGrantPolicy` approves at most one operation: the first one that its grant
accepts. Before the comparison it makes strings of whatever the details hold, and a dictionary of
the arguments; so it approves an operation other than the one of the grant if the details are of
the wrong types.

* `approvedOps_authorizeAll` — what is approved is the first operation the grant accepts.
* `single_use_exact_iff` — it is the operation of the grant exactly if its details are of the
  right types.
-/

namespace BankingAgent

/-! ## The grant -/

/-- `ApprovedOperationGrant`, without its stamps. -/
structure ApprovedOperationGrant : Type where
  sessionId : String
  approvingUser : String
  requestingUser : String
  threadId : String
  toolName : String
  /-- a dictionary -/
  toolArgs : List (String × Json)
  idempotencyKey : String
  decision : String
  expiresAt : Option String
  consumed : Bool

/-- The arguments of `can_authorize`. -/
structure GrantRequest : Type where
  sessionId : String
  userId : String
  threadId : String
  toolName : Json
  toolArgs : Json
  idempotencyKey : String

variable (py : PyLib) (now : Instant)

/-- `is_expired`; `none` stands for `ValueError`. -/
def ApprovedOperationGrant.isExpired (g : ApprovedOperationGrant) : Option Bool :=
  match g.expiresAt with
  | none => some false
  | some text =>
    if text = "" then some false
    else (py.fromisoformat text).map fun expiresAt => decide (expiresAt < now)

/-- `can_authorize`. -/
def ApprovedOperationGrant.canAuthorize (g : ApprovedOperationGrant) (r : GrantRequest) :
    Option Bool :=
  if g.decision ≠ "approved" then some false
  else if g.consumed then some false
  else (g.isExpired py now).map fun expired =>
    if expired then false
    else if g.sessionId ≠ r.sessionId then false
    else if g.requestingUser ≠ r.userId then false
    else if g.threadId ≠ r.threadId then false
    else if .str g.toolName ≠ r.toolName then false
    else if g.idempotencyKey ≠ r.idempotencyKey then false
    else py.dumpsSorted (.obj g.toolArgs) = py.dumpsSorted r.toolArgs

/-! ## The policy -/

/-- `ApprovedOperationGrantPolicy`. -/
structure ApprovedOperationGrantPolicy : Type where
  grant : ApprovedOperationGrant
  /-- `_consumed` -/
  consumed : Bool

/-- What the policy reads from an operation. -/
def Operation.request (op : Operation) : GrantRequest where
  sessionId := py.str ((op.details.get? "session_id").getD (.str ""))
  userId := py.str ((op.details.get? "user_id").getD (.str ""))
  threadId := py.str ((op.details.get? "thread_id").getD (.str ""))
  toolName := op.name
  toolArgs := ((op.details.get? "args").getD .null).dictOrEmpty
  idempotencyKey := py.str ((op.details.get? "idempotency_key").getD (.str ""))

/-- `authorize`; `none` stands for an exception. -/
def ApprovedOperationGrantPolicy.authorize (policy : ApprovedOperationGrantPolicy)
    (op : Operation) : Option AuthorizationDecision × ApprovedOperationGrantPolicy :=
  if policy.consumed then
    (some ⟨.denied, "Approved operation grant already consumed — requires new authorization"⟩,
      policy)
  else match policy.grant.canAuthorize py now (op.request py) with
    | none => (none, policy)
    | some true =>
      (some ⟨.approved, s!"Approved by {policy.grant.approvingUser} via HITL grant"⟩,
        { policy with consumed := true })
    | some false =>
      (some ⟨.denied, "Operation does not match approved grant — exact match required"⟩, policy)

/-- The answers to operations submitted one after the other, each at a reading of the clock. -/
def ApprovedOperationGrantPolicy.authorizeAll :
    ApprovedOperationGrantPolicy → List (Instant × Operation) →
      List (Operation × Option AuthorizationDecision)
  | _, [] => []
  | policy, (now, op) :: rest =>
    (op, (policy.authorize py now op).1) ::
      ApprovedOperationGrantPolicy.authorizeAll (policy.authorize py now op).2 rest

/-- The answer is an approval. -/
def isApproved (answer : Option AuthorizationDecision) : Bool :=
  answer.map AuthorizationDecision.decision = some .approved

/-- The operations that were approved. -/
def approvedOps (answers : List (Operation × Option AuthorizationDecision)) : List Operation :=
  (answers.filter fun x => isApproved x.2).map Prod.fst

/-- The grant accepts the operation. -/
def ApprovedOperationGrant.accepts (g : ApprovedOperationGrant) (x : Instant × Operation) : Bool :=
  g.canAuthorize py x.1 (x.2.request py) = some true

section Run

variable {py now}

theorem authorize_of_consumed (py : PyLib) (now : Instant) {policy : ApprovedOperationGrantPolicy}
    (op : Operation) (h : policy.consumed = true) :
    isApproved (policy.authorize py now op).1 = false ∧ (policy.authorize py now op).2 = policy := by
  simp [ApprovedOperationGrantPolicy.authorize, isApproved, h]

/-- An accepted operation is approved and consumes the grant. -/
theorem authorize_of_accepts {g : ApprovedOperationGrant} {op : Operation}
    (h : g.accepts py (now, op) = true) :
    isApproved ((ApprovedOperationGrantPolicy.mk g false).authorize py now op).1 = true ∧
      ((ApprovedOperationGrantPolicy.mk g false).authorize py now op).2 = ⟨g, true⟩ := by
  have hcan : g.canAuthorize py now (op.request py) = some true := of_decide_eq_true h
  simp [ApprovedOperationGrantPolicy.authorize, isApproved, hcan]

/-- Any other leaves it as it is. -/
theorem authorize_of_not_accepts {g : ApprovedOperationGrant} {op : Operation}
    (h : g.accepts py (now, op) = false) :
    isApproved ((ApprovedOperationGrantPolicy.mk g false).authorize py now op).1 = false ∧
      ((ApprovedOperationGrantPolicy.mk g false).authorize py now op).2 = ⟨g, false⟩ := by
  have hcan : g.canAuthorize py now (op.request py) ≠ some true := of_decide_eq_false h
  cases hanswer : g.canAuthorize py now (op.request py) with
  | none => simp [ApprovedOperationGrantPolicy.authorize, isApproved, hanswer]
  | some accepted =>
    cases accepted with
    | true => exact absurd hanswer hcan
    | false => simp [ApprovedOperationGrantPolicy.authorize, isApproved, hanswer]

theorem approvedOps_cons_of_approved {x : Operation × Option AuthorizationDecision}
    (h : isApproved x.2 = true) (rest : List (Operation × Option AuthorizationDecision)) :
    approvedOps (x :: rest) = x.1 :: approvedOps rest := by
  simp [approvedOps, h]

theorem approvedOps_cons_of_not_approved {x : Operation × Option AuthorizationDecision}
    (h : isApproved x.2 = false) (rest : List (Operation × Option AuthorizationDecision)) :
    approvedOps (x :: rest) = approvedOps rest := by
  simp [approvedOps, h]

/-- A consumed grant approves nothing more. -/
theorem approvedOps_of_consumed {policy : ApprovedOperationGrantPolicy}
    (h : policy.consumed = true) (run : List (Instant × Operation)) :
    approvedOps (policy.authorizeAll py run) = [] := by
  induction run with
  | nil => rfl
  | cons x run ih =>
    obtain ⟨now, op⟩ := x
    obtain ⟨hdecision, hpolicy⟩ := authorize_of_consumed py now op h
    rw [ApprovedOperationGrantPolicy.authorizeAll, approvedOps_cons_of_not_approved hdecision,
      hpolicy, ih]

/-- **What is approved** is the first operation the grant accepts. -/
theorem approvedOps_authorizeAll (g : ApprovedOperationGrant) (run : List (Instant × Operation)) :
    approvedOps ((ApprovedOperationGrantPolicy.mk g false).authorizeAll py run) =
      ((run.find? (g.accepts py)).map Prod.snd).toList := by
  induction run with
  | nil => rfl
  | cons x run ih =>
    obtain ⟨now, op⟩ := x
    rw [ApprovedOperationGrantPolicy.authorizeAll, List.find?_cons]
    cases haccepts : g.accepts py (now, op) with
    | true =>
      obtain ⟨hdecision, hpolicy⟩ := authorize_of_accepts haccepts
      rw [approvedOps_cons_of_approved hdecision, hpolicy, approvedOps_of_consumed rfl]
      rfl
    | false =>
      obtain ⟨hdecision, hpolicy⟩ := authorize_of_not_accepts haccepts
      rw [approvedOps_cons_of_not_approved hdecision, hpolicy, ih]

end Run

/-! ## Exactness -/

/-- The operation is the one of the grant. -/
structure Operation.Exact (g : ApprovedOperationGrant) (op : Operation) : Prop where
  session : op.details.get? "session_id" = some (.str g.sessionId)
  user : op.details.get? "user_id" = some (.str g.requestingUser)
  thread : op.details.get? "thread_id" = some (.str g.threadId)
  tool : op.name = .str g.toolName
  key : op.details.get? "idempotency_key" = some (.str g.idempotencyKey)
  args : ∃ args, op.details.get? "args" = some args ∧ args.Same (.obj g.toolArgs)

/-- At most one operation of a sequence is approved, and that one is the one of the grant. -/
def SingleUseExact (g : ApprovedOperationGrant) (run : List (Instant × Operation)) : Prop :=
  (approvedOps ((ApprovedOperationGrantPolicy.mk g false).authorizeAll py run)).length ≤ 1 ∧
    ∀ op ∈ approvedOps ((ApprovedOperationGrantPolicy.mk g false).authorizeAll py run), op.Exact g

/-- The details hold strings where the policy makes strings, and a dictionary of arguments. -/
structure Operation.WellTyped (op : Operation) : Prop where
  session : ∃ s, op.details.get? "session_id" = some (.str s)
  user : ∃ s, op.details.get? "user_id" = some (.str s)
  thread : ∃ s, op.details.get? "thread_id" = some (.str s)
  key : ∃ s, op.details.get? "idempotency_key" = some (.str s)
  args : ∃ fields, op.details.get? "args" = some (.obj fields)

section Exactness

variable {py now}

/-- What an accepted operation agrees with the grant on. -/
theorem ApprovedOperationGrant.request_of_accepts {g : ApprovedOperationGrant} {op : Operation}
    (h : g.accepts py (now, op) = true) :
    g.sessionId = (op.request py).sessionId ∧ g.requestingUser = (op.request py).userId ∧
      g.threadId = (op.request py).threadId ∧ .str g.toolName = op.name ∧
      g.idempotencyKey = (op.request py).idempotencyKey ∧
      py.dumpsSorted (.obj g.toolArgs) = py.dumpsSorted (op.request py).toolArgs := by
  have hcan : g.canAuthorize py now (op.request py) = some true := of_decide_eq_true h
  have hdecision : g.decision = "approved" := by
    by_contra hne
    simp [ApprovedOperationGrant.canAuthorize, hne] at hcan
  have hunused : ¬ g.consumed = true := by
    intro hused
    simp [ApprovedOperationGrant.canAuthorize, hused] at hcan
  rw [ApprovedOperationGrant.canAuthorize, if_neg (not_not.mpr hdecision), if_neg hunused] at hcan
  obtain ⟨expired, -, hcan⟩ := Option.map_eq_some_iff.mp hcan
  split_ifs at hcan with _ hsession huser hthread htool hkey
  exact ⟨not_not.mp hsession, not_not.mp huser, not_not.mp hthread, not_not.mp htool,
    not_not.mp hkey, of_decide_eq_true hcan⟩

theorem str_of_get? {details : Json} {name text : String} {value : Json}
    (htext : text = py.str ((details.get? name).getD value))
    (h : ∃ s, details.get? name = some (.str s)) : details.get? name = some (.str text) := by
  obtain ⟨s, hs⟩ := h
  rw [hs] at htext
  rw [hs, htext]
  rfl

/-- Only a dictionary is equal to a dictionary. -/
theorem Json.Same.isDict {v : Json} {fields : List (String × Json)} (h : v.Same (.obj fields)) :
    ∃ fields', v = .obj fields' := by
  cases v with
  | obj fields' => exact ⟨fields', rfl⟩
  | _ => simp [Json.Same, Json.sortKeys] at h

theorem Operation.Exact.wellTyped {g : ApprovedOperationGrant} {op : Operation} (h : op.Exact g) :
    op.WellTyped := by
  obtain ⟨args, hargs, hsame⟩ := h.args
  obtain ⟨fields, rfl⟩ := hsame.isDict
  exact ⟨⟨_, h.session⟩, ⟨_, h.user⟩, ⟨_, h.thread⟩, ⟨_, h.key⟩, ⟨_, hargs⟩⟩

/-- An accepted operation with details of the right types is the one of the grant. -/
theorem Operation.WellTyped.exact {g : ApprovedOperationGrant} {op : Operation}
    (hdumps : ∀ fields, py.dumpsSorted (.obj g.toolArgs) = py.dumpsSorted (.obj fields) →
      (Json.obj fields).Same (.obj g.toolArgs))
    (htyped : op.WellTyped) (h : g.accepts py (now, op) = true) : op.Exact g := by
  obtain ⟨hsession, huser, hthread, htool, hkey, hargs⟩ := g.request_of_accepts h
  obtain ⟨fields, hfields⟩ := htyped.args
  have hrequest : (op.request py).toolArgs = .obj fields := by
    rw [Operation.request, hfields]
    rfl
  rw [hrequest] at hargs
  exact {
    session := str_of_get? hsession htyped.session
    user := str_of_get? huser htyped.user
    thread := str_of_get? hthread htyped.thread
    tool := htool.symm
    key := str_of_get? hkey htyped.key
    args := ⟨_, hfields, hdumps fields hargs⟩ }

end Exactness

/-- **A single-use grant** approves the operation it was given for, and nothing after it, exactly
if the first operation it accepts has details of the right types. -/
theorem single_use_exact_iff (g : ApprovedOperationGrant) (run : List (Instant × Operation))
    (hdumps : ∀ fields, py.dumpsSorted (.obj g.toolArgs) = py.dumpsSorted (.obj fields) →
      (Json.obj fields).Same (.obj g.toolArgs)) :
    SingleUseExact py g run ↔ ∀ x, run.find? (g.accepts py) = some x → x.2.WellTyped := by
  rw [SingleUseExact, approvedOps_authorizeAll]
  cases hfirst : run.find? (g.accepts py) with
  | none => simp
  | some x =>
    obtain ⟨now, op⟩ := x
    have haccepts : g.accepts py (now, op) = true := List.find?_some hfirst
    constructor
    · rintro ⟨-, hexact⟩ _ hx
      obtain rfl := Option.some_inj.mp hx
      exact (hexact op (by simp)).wellTyped
    · intro htyped
      refine ⟨by simp, fun op' hop' => ?_⟩
      obtain rfl : op' = op := by simpa using hop'
      exact (htyped _ rfl).exact hdumps haccepts

/-! ## Two grants -/

/-- The arguments of a grant, in the order in which `json.dumps` sorts them. -/
def closeArgs : List (String × Json) := [("account_id", .str "A-1"), ("reason", .str "moved")]

/-- A library that writes `{}` and the arguments of the grant as the real one does. -/
def closingPy : PyLib :=
  { demoPy with dumps := fun v => if v = .obj [] ∨ v = .obj closeArgs then demoDumps v else "" }

/-- A grant to close an account. -/
def closeGrant (args : List (String × Json)) : ApprovedOperationGrant :=
  { sessionId := "s", approvingUser := "bob", requestingUser := "alice", threadId := "t",
    toolName := "close_account", toolArgs := args, idempotencyKey := "k", decision := "approved",
    expiresAt := none, consumed := false }

/-- An operation of that tool with some arguments. -/
def closeAccount (args : Json) : Operation :=
  { kind := .write, name := .str "close_account", target := "",
    details := .obj [("args", args), ("session_id", .str "s"), ("user_id", .str "alice"),
      ("thread_id", .str "t"), ("idempotency_key", .str "k")] }

/-- What is written as the arguments of the grant is a dictionary with these arguments. -/
theorem closingPy_dumpsSorted (fields : List (String × Json))
    (h : closingPy.dumpsSorted (.obj closeArgs) = closingPy.dumpsSorted (.obj fields)) :
    (Json.obj fields).Same (.obj closeArgs) := by
  have hsorted : (Json.obj closeArgs).sortKeys = .obj closeArgs := by decide +kernel
  have hempty : closingPy.dumps (.obj closeArgs) ≠ closingPy.dumps (.obj []) := by decide +kernel
  have hblank : closingPy.dumps (.obj closeArgs) ≠ "" := by decide +kernel
  rw [PyLib.dumpsSorted, PyLib.dumpsSorted, hsorted] at h
  rw [Json.Same, hsorted]
  by_contra hne
  by_cases hnil : (Json.obj fields).sortKeys = .obj []
  · rw [hnil] at h
    exact hempty h
  · refine hblank (h.trans (if_neg ?_))
    rintro (h | h)
    · exact hnil h
    · exact hne h

/-- The same arguments in another order are those of the grant, a list is not approved, and a second
operation comes too late. -/
theorem single_use_close :
    approvedOps ((ApprovedOperationGrantPolicy.mk (closeGrant closeArgs) false).authorizeAll closingPy
        [(0, closeAccount (.arr [.str "A-1"])), (1, closeAccount (.obj closeArgs.reverse)),
          (2, closeAccount (.obj closeArgs))]) = [closeAccount (.obj closeArgs.reverse)] ∧
      SingleUseExact closingPy (closeGrant closeArgs)
        [(0, closeAccount (.arr [.str "A-1"])), (1, closeAccount (.obj closeArgs.reverse)),
          (2, closeAccount (.obj closeArgs))] := by
  have hlist : (closeGrant closeArgs).accepts closingPy (0, closeAccount (.arr [.str "A-1"])) =
      false := by decide +kernel
  have hother : (closeGrant closeArgs).accepts closingPy
      (1, closeAccount (.obj closeArgs.reverse)) = true := by decide +kernel
  have hfirst : [(0, closeAccount (.arr [.str "A-1"])), (1, closeAccount (.obj closeArgs.reverse)),
      (2, closeAccount (.obj closeArgs))].find? ((closeGrant closeArgs).accepts closingPy) =
        some (1, closeAccount (.obj closeArgs.reverse)) := by
    rw [List.find?_cons_of_neg (by rw [hlist]; exact Bool.false_ne_true),
      List.find?_cons_of_pos hother]
  refine ⟨?_, (single_use_exact_iff closingPy (closeGrant closeArgs) _
    closingPy_dumpsSorted).mpr fun x hx => ?_⟩
  · rw [approvedOps_authorizeAll, hfirst]
    rfl
  · rw [hfirst] at hx
    obtain rfl := (Option.some_inj.mp hx).symm
    exact ⟨⟨_, rfl⟩, ⟨_, rfl⟩, ⟨_, rfl⟩, ⟨_, rfl⟩, ⟨_, rfl⟩⟩

/-- An operation with a list of accounts for arguments passes as one without arguments. -/
theorem list_args_approved :
    approvedOps ((ApprovedOperationGrantPolicy.mk (closeGrant []) false).authorizeAll closingPy
        [(0, closeAccount (.arr [.str "A-1", .str "A-2"]))]) =
      [closeAccount (.arr [.str "A-1", .str "A-2"])] ∧
    ¬ SingleUseExact closingPy (closeGrant [])
        [(0, closeAccount (.arr [.str "A-1", .str "A-2"]))] := by
  have happroved : approvedOps ((ApprovedOperationGrantPolicy.mk (closeGrant []) false).authorizeAll
      closingPy [(0, closeAccount (.arr [.str "A-1", .str "A-2"]))]) =
        [closeAccount (.arr [.str "A-1", .str "A-2"])] := rfl
  refine ⟨happroved, fun h => ?_⟩
  obtain ⟨fields, hfields⟩ := (h.2 _ (happroved ▸ List.mem_singleton_self _)).wellTyped.args
  exact Json.noConfusion (Option.some_inj.mp hfields)

end BankingAgent
