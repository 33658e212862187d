import BankingAgent.Banking.ToolHandlers
import BankingAgent.ShownSchema

/-!
# Validated arguments and the banking tools

What `validate_tool_call` accepts for a schema of `tool_schemas` has every key the handler reads,
with a value of the type it expects. Two things are left that a schema does not say: `number` admits
integers that are no float, and a stored draft may carry a deadline that is no time with a zone.

* `validated_executable_iff` — validated arguments reach their tool and it returns, exactly if it is
  neither of the two.
-/

namespace BankingAgent

open FloatFormat (binary64)

/-- The call reaches a tool function, and the function returns. -/
def ReachesTool (lib : BankLib) (toolName : String) (args : Json) (input : HandlerInput)
    (repo : StoredBank) : Prop :=
  ∃ handler, toolFunction lib toolName = some handler ∧
    ∃ outcome, handler args input repo = .ok outcome

/-- If the amount is an integer, the nearest float is finite. -/
def AmountFits (args : Json) : Prop :=
  ∀ n : ℤ, args.get? "amount" = some (.int n) → |binary64.value n| < 2 ^ binary64.maxExp

/-- If the draft could be submitted by the user, its deadline, if it has one, is a time with a
zone. -/
def DeadlineReadable (lib : BankLib) (args : Json) (repo : StoredBank) : Prop :=
  ∀ draftId userId draft, args.get? "draft_id" = some (.str draftId) →
    args.get? "user_id" = some (.str userId) →
    repo.transferDrafts.lookup draftId = some draft → draft.status = .draft →
    (repo.ownAccount draft.sourceAccountId userId).isSome = true → draft.expiresAt ≠ "" →
      ∃ t, lib.fromisoformat draft.expiresAt = .aware t

/-- What validation leaves open. -/
def Executable (lib : BankLib) (toolName : String) (args : Json) (repo : StoredBank) : Prop :=
  (toolName = "create_transfer_draft" → AmountFits args) ∧
    (toolName = "submit_transfer" → DeadlineReadable lib args repo)

section Schemas

variable {properties : List (String × String)} {needed : List String} {name type : String}
  {fields : List (String × Json)} {args : Json}

/-! ## What the schemas say -/

theorem strings_map_str (names : List String) :
    (Json.arr (names.map Json.str)).strings = names := by
  simp only [Json.strings, List.filterMap_map]
  exact List.filterMap_some

theorem requiredNames_objectSchema :
    (objectSchema properties needed).requiredNames = needed :=
  strings_map_str needed

theorem property_objectSchema : (objectSchema properties needed).properties.get? name =
    (properties.lookup name).map fun type => .obj [("type", .str type)] := by
  change (Json.obj (properties.map fun p => (p.1, .obj [("type", .str p.2)]))).get? name = _
  rw [Json.get?, List.find?_map]
  induction properties with
  | nil => rfl
  | cons p properties ih =>
    by_cases heq : p.1 = name
    · subst heq
      rw [List.lookup_cons_self, List.find?_cons_of_pos (by simp)]
      rfl
    · have hne : (name == p.1) = false := by simpa using Ne.symm heq
      rw [List.lookup_cons, hne, List.find?_cons_of_neg (by simpa using heq)]
      exact ih

theorem wellFormed_objectSchema : WellFormed (objectSchema properties needed) where
  isDict := rfl
  required names hnames := ⟨needed, (Option.some.inj hnames).symm⟩
  properties props hprops := by
    rw [← Option.some.inj hprops]
    rfl
  property name prop hprop := by
    rw [property_objectSchema] at hprop
    obtain ⟨type, -, rfl⟩ := Option.map_eq_some_iff.mp hprop
    rfl
  type name prop type hprop htype := by
    rw [property_objectSchema] at hprop
    obtain ⟨declared, -, rfl⟩ := Option.map_eq_some_iff.mp hprop
    exact .inl ⟨declared, (Option.some.inj htype).symm⟩

/-- A declared argument that is there has the declared type. -/
theorem Accepted.checked (h : Accepted (objectSchema properties needed) fields)
    (hdeclared : properties.lookup name = some type) {value : Json}
    (hvalue : (Json.obj fields).get? name = some value) : checkType value type = true := by
  have hprop : (objectSchema properties needed).properties.get? name =
      some (.obj [("type", .str type)]) := by
    rw [property_objectSchema, hdeclared]
    rfl
  exact h.typed (name, value) (mem_of_get? hvalue) _ hprop type rfl

/-- A required argument is there, and has the declared type. -/
theorem Accepted.required (h : Accepted (objectSchema properties needed) fields)
    (hrequired : name ∈ needed) (hdeclared : properties.lookup name = some type) :
    ∃ value, (Json.obj fields).get? name = some value ∧ checkType value type = true := by
  obtain ⟨value, hvalue, -⟩ := h.present name (by rwa [requiredNames_objectSchema])
  exact ⟨value, hvalue, h.checked hdeclared hvalue⟩

theorem checkType_string {value : Json} (h : checkType value "string" = true) :
    ∃ s, value = .str s := by
  cases value with
  | str s => exact ⟨s, rfl⟩
  | _ => cases h

theorem checkType_integer {value : Json} (h : checkType value "integer" = true) :
    ∃ n, value = .int n := by
  cases value with
  | int n => exact ⟨n, rfl⟩
  | _ => cases h

theorem checkType_number {value : Json} (h : checkType value "number" = true) :
    (∃ n, value = .int n) ∨ ∃ text, value = .float text := by
  cases value with
  | int n => exact .inl ⟨n, rfl⟩
  | float text => exact .inr ⟨text, rfl⟩
  | _ => cases h

/-! ## What the handlers read -/

theorem Accepted.strItem (h : Accepted (objectSchema properties needed) fields) (name : String)
    (hschema : name ∈ needed ∧ properties.lookup name = some "string") :
    ∃ s, strItem name (.obj fields) = .ok s ∧ (Json.obj fields).get? name = some (.str s) := by
  obtain ⟨value, hvalue, hchecked⟩ := h.required hschema.1 hschema.2
  obtain ⟨s, rfl⟩ := checkType_string hchecked
  exact ⟨s, by rw [BankingAgent.strItem, hvalue], hvalue⟩

theorem Accepted.strItemOr (h : Accepted (objectSchema properties needed) fields)
    (hdeclared : properties.lookup name = some "string") (default : String) :
    ∃ s, strItemOr name default (.obj fields) = .ok s := by
  rw [BankingAgent.strItemOr]
  cases hvalue : (Json.obj fields).get? name with
  | none => exact ⟨default, rfl⟩
  | some value =>
    obtain ⟨s, rfl⟩ := checkType_string (h.checked hdeclared hvalue)
    exact ⟨s, rfl⟩

theorem Accepted.intItemOr (h : Accepted (objectSchema properties needed) fields)
    (hdeclared : properties.lookup name = some "integer") (default : ℤ) :
    ∃ n, intItemOr name default (.obj fields) = .ok n := by
  rw [BankingAgent.intItemOr]
  cases hvalue : (Json.obj fields).get? name with
  | none => exact ⟨default, rfl⟩
  | some value =>
    obtain ⟨n, rfl⟩ := checkType_integer (h.checked hdeclared hvalue)
    exact ⟨n, rfl⟩

/-- `float` of an integer raises if the nearest float is an infinity. -/
theorem toFloat_int (n : ℤ) : (∃ x, (PyNumber.int n).toFloat = some x) ↔
    |binary64.value n| < 2 ^ binary64.maxExp := by
  -- the equation of `toFloat` would evaluate the rounding
  delta PyNumber.toFloat
  dsimp only
  rw [Number.round]
  by_cases h : |binary64.value n| < 2 ^ binary64.maxExp
  · rw [dif_pos h]
    exact iff_of_true ⟨_, rfl⟩ h
  · rw [dif_neg h]
    exact iff_of_false (by rintro ⟨x, ⟨⟩⟩) h

theorem Accepted.floatItem (h : Accepted (objectSchema properties needed) fields)
    (hrequired : "amount" ∈ needed) (hdeclared : properties.lookup "amount" = some "number")
    (lib : BankLib) : (∃ x, floatItem lib "amount" (.obj fields) = .ok x) ↔
      AmountFits (.obj fields) := by
  obtain ⟨value, hvalue, hchecked⟩ := h.required hrequired hdeclared
  rw [BankingAgent.floatItem, AmountFits, hvalue]
  rcases checkType_number hchecked with ⟨n, rfl⟩ | ⟨text, rfl⟩
  · have hfits : (∀ m : ℤ, some (Json.int n) = some (.int m) →
        |binary64.value m| < 2 ^ binary64.maxExp) ↔ |binary64.value n| < 2 ^ binary64.maxExp :=
      ⟨fun hall => hall n rfl, by rintro hn m ⟨⟩; exact hn⟩
    rw [hfits, ← toFloat_int]
    cases hfloat : (PyNumber.int n).toFloat <;> simp [hfloat]
  · exact iff_of_true ⟨_, rfl⟩ (by rintro n ⟨⟩)

end Schemas

section Handlers

variable {lib : BankLib} {args : Json} {input : HandlerInput} {repo : StoredBank}
  {α β ε : Type}

/-! ## The handlers -/

theorem returns_bind_iff {x : Except ε α} {f : α → Except ε β} :
    (∃ b, (x >>= f) = .ok b) ↔ ∃ a, x = .ok a ∧ ∃ b, f a = .ok b := by
  cases x with
  | ok a => exact ⟨fun h => ⟨a, rfl, h⟩, by rintro ⟨_, ⟨⟩, h⟩; exact h⟩
  | error e => exact ⟨by rintro ⟨_, ⟨⟩⟩, by rintro ⟨_, ⟨⟩, -⟩⟩

/-- An argument that is there is read. -/
theorem returns_bind_of_ok {x : Except ε α} {f : α → Except ε β} {a : α} (hx : x = .ok a) :
    (∃ b, (x >>= f) = .ok b) ↔ ∃ b, f a = .ok b := by
  rw [hx]
  exact ⟨fun h => h, fun h => h⟩

theorem toolGetAccountSummary_returns {accountId userId : String}
    (haccount : strItem "account_id" args = .ok accountId)
    (huser : strItem "user_id" args = .ok userId) :
    ∃ outcome, toolGetAccountSummary lib args input repo = .ok outcome := by
  rw [toolGetAccountSummary, returns_bind_of_ok haccount, returns_bind_of_ok huser]
  cases repo.ownAccount accountId userId <;> exact ⟨_, rfl⟩

theorem toolGetBalance_returns {accountId userId : String}
    (haccount : strItem "account_id" args = .ok accountId)
    (huser : strItem "user_id" args = .ok userId) :
    ∃ outcome, toolGetBalance lib args input repo = .ok outcome := by
  rw [toolGetBalance, returns_bind_of_ok haccount, returns_bind_of_ok huser]
  cases repo.ownAccount accountId userId <;> exact ⟨_, rfl⟩

theorem toolListTransactions_returns {limit : ℤ} {accountId userId : String}
    (hlimit : intItemOr "limit" 20 args = .ok limit)
    (haccount : strItem "account_id" args = .ok accountId)
    (huser : strItem "user_id" args = .ok userId) :
    ∃ outcome, toolListTransactions lib args input repo = .ok outcome := by
  rw [toolListTransactions, returns_bind_of_ok hlimit, returns_bind_of_ok haccount,
    returns_bind_of_ok huser]
  cases repo.ownAccount accountId userId <;> exact ⟨_, rfl⟩

theorem toolFindBeneficiary_returns {beneficiaryId : String}
    (hbeneficiary : strItem "beneficiary_id" args = .ok beneficiaryId) :
    ∃ outcome, toolFindBeneficiary args input repo = .ok outcome := by
  rw [toolFindBeneficiary, returns_bind_of_ok hbeneficiary]
  cases repo.beneficiaries.lookup beneficiaryId <;> exact ⟨_, rfl⟩

/-- A draft is made or refused, if the amount is read at all. -/
theorem toolCreateTransferDraft_returns_iff {source beneficiary currency user key text : String}
    (hsource : strItem "source_account_id" args = .ok source)
    (hbeneficiary : strItem "beneficiary_id" args = .ok beneficiary)
    (hcurrency : strItem "currency" args = .ok currency)
    (huser : strItem "user_id" args = .ok user) (hkey : strItem "idempotency_key" args = .ok key)
    (htext : strItemOr "description" "" args = .ok text) :
    (∃ outcome, toolCreateTransferDraft lib args input repo = .ok outcome) ↔
      ∃ amount, floatItem lib "amount" args = .ok amount := by
  rw [toolCreateTransferDraft, returns_bind_of_ok hsource, returns_bind_of_ok hbeneficiary,
    returns_bind_iff]
  refine exists_congr fun amount => and_iff_left ?_
  rw [returns_bind_of_ok hcurrency, returns_bind_of_ok huser, returns_bind_of_ok hkey,
    returns_bind_of_ok htext]
  cases repo.draftError lib source beneficiary amount currency user key <;> exact ⟨_, rfl⟩

/-- A deadline is compared with the clock if it is a time with a zone. -/
theorem draftExpired_returns_iff {draft : StoredDraft} :
    (∃ expired, draftExpired lib draft input.now = .ok expired) ↔
      (draft.expiresAt ≠ "" → ∃ t, lib.fromisoformat draft.expiresAt = .aware t) := by
  rw [draftExpired]
  by_cases hnone : draft.expiresAt = ""
  · simp [hnone]
  · rw [if_neg hnone]
    cases lib.fromisoformat draft.expiresAt <;> simp [hnone]

/-- A draft is submitted or refused, if its deadline is read at all. -/
theorem toolSubmitTransfer_returns_iff {draftId userId : String}
    (hdraft : strItem "draft_id" args = .ok draftId)
    (huser : strItem "user_id" args = .ok userId) :
    (∃ outcome, toolSubmitTransfer lib args input repo = .ok outcome) ↔
      ∀ draft, repo.transferDrafts.lookup draftId = some draft → draft.status = .draft →
        (repo.ownAccount draft.sourceAccountId userId).isSome = true → draft.expiresAt ≠ "" →
          ∃ t, lib.fromisoformat draft.expiresAt = .aware t := by
  rw [toolSubmitTransfer, returns_bind_of_ok hdraft, returns_bind_of_ok huser]
  cases hlookup : repo.transferDrafts.lookup draftId with
  | none => exact iff_of_true ⟨_, rfl⟩ (by rintro draft ⟨⟩)
  | some draft =>
    have hone : (∀ d, some draft = some d → d.status = .draft →
        (repo.ownAccount d.sourceAccountId userId).isSome = true → d.expiresAt ≠ "" →
          ∃ t, lib.fromisoformat d.expiresAt = .aware t) ↔ (draft.status = .draft →
        (repo.ownAccount draft.sourceAccountId userId).isSome = true → draft.expiresAt ≠ "" →
          ∃ t, lib.fromisoformat draft.expiresAt = .aware t) :=
      ⟨fun h => h draft rfl, by rintro h d ⟨⟩; exact h⟩
    rw [hone]
    dsimp only
    by_cases hstatus : draft.status = .draft
    · rw [if_neg (not_not.mpr hstatus)]
      cases haccount : repo.ownAccount draft.sourceAccountId userId with
      | none => exact iff_of_true ⟨_, rfl⟩ (by simp)
      | some acc =>
        have hdeadline : (draft.status = .draft → (some acc).isSome = true →
            draft.expiresAt ≠ "" → ∃ t, lib.fromisoformat draft.expiresAt = .aware t) ↔
              ∃ expired, draftExpired lib draft input.now = .ok expired := by
          rw [draftExpired_returns_iff]
          exact ⟨fun h => h hstatus rfl, fun h _ _ => h⟩
        rw [hdeadline]
        dsimp only
        rw [returns_bind_iff]
        refine exists_congr fun expired => and_iff_left ?_
        -- whatever the clock says, the rest of the handler returns
        cases expired with
        | true => exact ⟨_, rfl⟩
        | false =>
          rw [if_neg Bool.false_ne_true]
          split
          · exact ⟨_, rfl⟩
          · split <;> exact ⟨_, rfl⟩
    · rw [if_pos hstatus]
      exact iff_of_true ⟨_, rfl⟩ fun h => absurd h hstatus

theorem toolCancelTransfer_returns {draftId userId : String}
    (hdraft : strItem "draft_id" args = .ok draftId)
    (huser : strItem "user_id" args = .ok userId) :
    ∃ outcome, toolCancelTransfer args input repo = .ok outcome := by
  rw [toolCancelTransfer, returns_bind_of_ok hdraft, returns_bind_of_ok huser]
  cases repo.transferDrafts.lookup draftId with
  | none => exact ⟨_, rfl⟩
  | some draft =>
    dsimp only
    split
    · exact ⟨_, rfl⟩
    · split <;> exact ⟨_, rfl⟩

theorem toolGetTransferStatus_returns {draftId : String}
    (hdraft : strItem "draft_id" args = .ok draftId) :
    ∃ outcome, toolGetTransferStatus lib args input repo = .ok outcome := by
  rw [toolGetTransferStatus, returns_bind_of_ok hdraft]
  cases repo.transferDrafts.lookup draftId <;> exact ⟨_, rfl⟩

theorem toolReportSuspiciousTransaction_returns {account transaction reason user : String}
    (haccount : strItem "account_id" args = .ok account)
    (htransaction : strItem "transaction_id" args = .ok transaction)
    (hreason : strItem "reason" args = .ok reason) (huser : strItem "user_id" args = .ok user) :
    ∃ outcome, toolReportSuspiciousTransaction args input repo = .ok outcome := by
  rw [toolReportSuspiciousTransaction, returns_bind_of_ok haccount,
    returns_bind_of_ok htransaction, returns_bind_of_ok hreason, returns_bind_of_ok huser]
  exact ⟨_, rfl⟩

end Handlers

section Tools

variable {lib : BankLib} {input : HandlerInput} {repo : StoredBank} {name : String}
  {properties : List (String × String)} {needed : List String} {fields : List (String × Json)}

/-! ## All tools -/

theorem reachesTool_iff {handler : Handler} {args : Json}
    (hhandler : toolFunction lib name = some handler) : ReachesTool lib name args input repo ↔
      ∃ outcome, handler args input repo = .ok outcome := by
  rw [ReachesTool, hhandler]
  exact ⟨by rintro ⟨_, ⟨⟩, h⟩; exact h, fun h => ⟨handler, rfl, h⟩⟩

/-- What does not reach its tool ends in the `except` of `execute`. -/
theorem executeTool_of_not_reaches {handler : Handler} {args : Json}
    (hhandler : toolFunction lib name = some handler) (h : ¬ ReachesTool lib name args input repo) :
    ∃ exc, executeTool lib name args input repo = (.error (lib.exceptionText exc), repo) := by
  rw [executeTool, hhandler]
  cases hraise : handler args input repo with
  | ok outcome => exact absurd ((reachesTool_iff hhandler).mpr ⟨outcome, hraise⟩) h
  | error exc => exact ⟨exc, by simp only [hraise]⟩

/-- A tool that always returns is executable. -/
theorem reachesTool_of_returns {handler : Handler} {args : Json}
    (hhandler : toolFunction lib name = some handler)
    (hcreate : name ≠ "create_transfer_draft") (hsubmit : name ≠ "submit_transfer")
    (hreturns : ∃ outcome, handler args input repo = .ok outcome) :
    ReachesTool lib name args input repo ↔ Executable lib name args repo :=
  iff_of_true ((reachesTool_iff hhandler).mpr hreturns)
    ⟨fun h => absurd h hcreate, fun h => absurd h hsubmit⟩

/-- **Arguments a schema accepts** reach their tool, exactly if what the schema leaves open is in
order. -/
theorem Accepted.reachesTool_iff (hschema : (name, properties, needed) ∈ toolSchemas)
    (h : Accepted (objectSchema properties needed) fields) :
    ReachesTool lib name (.obj fields) input repo ↔ Executable lib name (.obj fields) repo := by
  simp only [toolSchemas, List.mem_cons, Prod.mk.injEq, List.not_mem_nil, or_false] at hschema
  rcases hschema with ⟨rfl, rfl, rfl⟩ | ⟨rfl, rfl, rfl⟩ | ⟨rfl, rfl, rfl⟩ | ⟨rfl, rfl, rfl⟩ |
    ⟨rfl, rfl, rfl⟩ | ⟨rfl, rfl, rfl⟩ | ⟨rfl, rfl, rfl⟩ | ⟨rfl, rfl, rfl⟩ | ⟨rfl, rfl, rfl⟩
  · obtain ⟨accountId, haccount, -⟩ := h.strItem "account_id" (by decide)
    obtain ⟨userId, huser, -⟩ := h.strItem "user_id" (by decide)
    exact reachesTool_of_returns rfl (by decide) (by decide)
      (toolGetAccountSummary_returns haccount huser)
  · obtain ⟨accountId, haccount, -⟩ := h.strItem "account_id" (by decide)
    obtain ⟨userId, huser, -⟩ := h.strItem "user_id" (by decide)
    exact reachesTool_of_returns rfl (by decide) (by decide)
      (toolGetBalance_returns haccount huser)
  · obtain ⟨accountId, haccount, -⟩ := h.strItem "account_id" (by decide)
    obtain ⟨userId, huser, -⟩ := h.strItem "user_id" (by decide)
    obtain ⟨limit, hlimit⟩ := h.intItemOr (by decide : List.lookup "limit" _ = _) 20
    exact reachesTool_of_returns rfl (by decide) (by decide)
      (toolListTransactions_returns hlimit haccount huser)
  · obtain ⟨beneficiaryId, hbeneficiary, -⟩ := h.strItem "beneficiary_id" (by decide)
    exact reachesTool_of_returns rfl (by decide) (by decide)
      (toolFindBeneficiary_returns hbeneficiary)
  · obtain ⟨source, hsource, -⟩ := h.strItem "source_account_id" (by decide)
    obtain ⟨beneficiary, hbeneficiary, -⟩ := h.strItem "beneficiary_id" (by decide)
    obtain ⟨currency, hcurrency, -⟩ := h.strItem "currency" (by decide)
    obtain ⟨user, huser, -⟩ := h.strItem "user_id" (by decide)
    obtain ⟨key, hkey, -⟩ := h.strItem "idempotency_key" (by decide)
    obtain ⟨text, htext⟩ := h.strItemOr (by decide : List.lookup "description" _ = _) ""
    rw [BankingAgent.reachesTool_iff rfl, toolCreateTransferDraft_returns_iff hsource hbeneficiary
      hcurrency huser hkey htext, h.floatItem (by decide) (by decide)]
    exact ⟨fun hfits => ⟨fun _ => hfits, fun hname => absurd hname (by decide)⟩,
      fun hexec => hexec.1 rfl⟩
  · obtain ⟨draftId, hdraft, hdraftId⟩ := h.strItem "draft_id" (by decide)
    obtain ⟨userId, huser, huserId⟩ := h.strItem "user_id" (by decide)
    have hdeadline : DeadlineReadable lib (.obj fields) repo ↔
        ∀ draft, repo.transferDrafts.lookup draftId = some draft → draft.status = .draft →
          (repo.ownAccount draft.sourceAccountId userId).isSome = true → draft.expiresAt ≠ "" →
            ∃ t, lib.fromisoformat draft.expiresAt = .aware t := by
      rw [DeadlineReadable, hdraftId, huserId]
      exact ⟨fun hall draft => hall draftId userId draft rfl rfl,
        by rintro hall _ _ draft ⟨⟩ ⟨⟩; exact hall draft⟩
    rw [BankingAgent.reachesTool_iff rfl, toolSubmitTransfer_returns_iff hdraft huser, ← hdeadline]
    exact ⟨fun hread => ⟨fun hname => absurd hname (by decide), fun _ => hread⟩,
      fun hexec => hexec.2 rfl⟩
  · obtain ⟨draftId, hdraft, -⟩ := h.strItem "draft_id" (by decide)
    obtain ⟨userId, huser, -⟩ := h.strItem "user_id" (by decide)
    exact reachesTool_of_returns rfl (by decide) (by decide)
      (toolCancelTransfer_returns hdraft huser)
  · obtain ⟨draftId, hdraft, -⟩ := h.strItem "draft_id" (by decide)
    exact reachesTool_of_returns rfl (by decide) (by decide)
      (toolGetTransferStatus_returns hdraft)
  · obtain ⟨account, haccount, -⟩ := h.strItem "account_id" (by decide)
    obtain ⟨transaction, htransaction, -⟩ := h.strItem "transaction_id" (by decide)
    obtain ⟨reason, hreason, -⟩ := h.strItem "reason" (by decide)
    obtain ⟨user, huser, -⟩ := h.strItem "user_id" (by decide)
    exact reachesTool_of_returns rfl (by decide) (by decide)
      (toolReportSuspiciousTransaction_returns haccount htransaction hreason huser)

end Tools

/-- **Validated arguments** of a tool, whatever else is among them and whatever the repository
holds, reach their tool function and it returns, exactly if an amount that is an integer has a
finite nearest float, and the deadline of a draft to be submitted is a time with a zone. -/
theorem validated_executable_iff (py : PyLib) (lib : BankLib) (registry : ToolRegistry)
    (definition : ToolDefinition) (toolName : String) (properties : List (String × String))
    (needed : List String) (hschema : (toolName, properties, needed) ∈ toolSchemas)
    (hget : registry.get toolName = some definition)
    (hinput : definition.inputSchema = objectSchema properties needed)
    (fields : List (String × Json))
    (hvalid : validateToolCall py toolName (.obj fields) registry = none)
    (input : HandlerInput) (repo : StoredBank) :
    ReachesTool lib toolName (.obj fields) input repo ↔
      Executable lib toolName (.obj fields) repo := by
  have hname : definition.name = toolName := by
    have hfind : registry.tools.find? (fun t => decide (t.name = toolName)) = some definition :=
      hget
    have hfound := List.find?_some hfind
    exact of_decide_eq_true hfound
  subst hname
  have hformed : WellFormed definition.inputSchema := by
    rw [hinput]
    exact wellFormed_objectSchema
  have haccepted := (validateToolCall_iff hget hformed fields).mp hvalid
  rw [hinput] at haccepted
  exact haccepted.reachesTool_iff hschema

/-- A bank without accounts. -/
def emptyBank : StoredBank := ⟨∅, ∅, ∅, ∅, ∅⟩

/-- A library for a bank that reads no floats and no times. -/
def demoBankLib : BankLib where
  readFloat _ := floatZero
  floatRepr _ := "0.0"
  isoformat _ := "2026-01-01T00:00:00+00:00"
  fromisoformat _ := .invalid
  exceptionText _ := "int too large to convert to float"

/-- A registry with one banking tool. -/
def oneToolRegistry (name : String) (properties : List (String × String)) (needed : List String) :
    ToolRegistry :=
  ⟨[⟨name, objectSchema properties needed, false, .low⟩], List.nodup_singleton _⟩

/-- A library that reads one time. -/
def deadlineLib : BankLib :=
  { demoBankLib with
    fromisoformat := fun text =>
      if text = "2026-01-02T00:00:00+00:00" then .aware 86400 else .invalid }

/-- A draft with a deadline. -/
def openDraft : StoredDraft where
  draftId := "DRF-1"
  sourceAccountId := "ACC-1"
  beneficiaryId := "BEN-1"
  amount := floatTransactionLimit
  currency := "USD"
  description := "rent"
  status := .draft
  idempotencyKey := "k"
  createdAt := "2026-01-01T23:30:00+00:00"
  expiresAt := "2026-01-02T00:00:00+00:00"

/-- A bank with an account of Alice and that draft. -/
def draftedBank : StoredBank :=
  { emptyBank with
    accounts := AList.singleton "ACC-1" ⟨"ACC-1", "alice", "checking", floatZero, "USD", true⟩
    transferDrafts := AList.singleton "DRF-1" openDraft }

/-- Alice submits the draft: its deadline is read. -/
theorem open_draft_executable :
    (draftedBank.transferDrafts.lookup "DRF-1" = some openDraft ∧
      (draftedBank.ownAccount "ACC-1" "alice").isSome = true) ∧
      ReachesTool deadlineLib "submit_transfer"
        (.obj [("draft_id", .str "DRF-1"), ("user_id", .str "alice")]) ⟨0, 0, "u"⟩ draftedBank := by
  refine ⟨⟨rfl, rfl⟩, (validated_executable_iff demoPy deadlineLib
    (oneToolRegistry "submit_transfer" [("draft_id", "string"), ("user_id", "string")]
      ["draft_id", "user_id"]) _ "submit_transfer" [("draft_id", "string"), ("user_id", "string")]
      ["draft_id", "user_id"] ?_ rfl rfl _ rfl _ _).mpr ⟨fun h => absurd h (by decide), ?_⟩⟩
  · simp [toolSchemas]
  · intro _ draftId userId draft hid huser hdraft _ _ _
    obtain rfl : "DRF-1" = draftId := Json.str.inj (Option.some.inj hid)
    obtain rfl : openDraft = draft := Option.some.inj hdraft
    exact ⟨86400, by simp [deadlineLib, openDraft]⟩

/-- What `create_transfer_draft` takes. -/
def draftProperties : List (String × String) :=
  [("source_account_id", "string"), ("beneficiary_id", "string"), ("amount", "number"),
    ("currency", "string"), ("user_id", "string"), ("idempotency_key", "string"),
    ("description", "string")]

/-- What it needs. -/
def draftRequired : List String :=
  ["source_account_id", "beneficiary_id", "amount", "currency", "user_id", "idempotency_key"]

/-- The arguments of a transfer of `2 ^ 1024`. -/
def hugeFields : List (String × Json) :=
  [("source_account_id", .str "ACC-1"), ("beneficiary_id", .str "BEN-1"),
    ("amount", .int (2 ^ 1024)), ("currency", .str "USD"), ("user_id", .str "alice"),
    ("idempotency_key", .str "k")]

/-- `hugeFields` as an object. -/
def hugeTransfer : Json := .obj hugeFields

/-- `float` of `2 ^ 1024` raises. -/
theorem hugeTransfer_overflows : ¬ AmountFits hugeTransfer := by
  intro hfits
  have hlt := hfits _ rfl
  have hcast : ((2 ^ 1024 : ℤ) : ℚ) = 2 ^ binary64.maxExp := by
    rw [Int.cast_pow, Int.cast_ofNat]
    exact (zpow_natCast 2 1024).symm
  rw [hcast, FloatFormat.value_two_zpow (by decide), abs_of_pos (FloatFormat.two_zpow_pos _)] at hlt
  exact lt_irrefl _ hlt

/-- The arguments of the transfer are valid, and `float` raises. -/
theorem huge_amount_caught :
    validateToolCall demoPy "create_transfer_draft" hugeTransfer
        (oneToolRegistry "create_transfer_draft" draftProperties draftRequired) = none ∧
      ¬ ReachesTool demoBankLib "create_transfer_draft" hugeTransfer ⟨0, 0, "u"⟩ emptyBank ∧
      executeTool demoBankLib "create_transfer_draft" hugeTransfer ⟨0, 0, "u"⟩ emptyBank =
        (.error "int too large to convert to float", emptyBank) := by
  have hvalid : validateToolCall demoPy "create_transfer_draft" hugeTransfer
      (oneToolRegistry "create_transfer_draft" draftProperties draftRequired) = none := rfl
  have haccepted : Accepted (objectSchema draftProperties draftRequired) hugeFields :=
    (validateToolCall_iff (d := ⟨"create_transfer_draft", _, false, .low⟩) rfl
      wellFormed_objectSchema hugeFields).mp hvalid
  have hraises : ¬ ReachesTool demoBankLib "create_transfer_draft" hugeTransfer ⟨0, 0, "u"⟩
      emptyBank := by
    have hschema : ("create_transfer_draft", draftProperties, draftRequired) ∈ toolSchemas := by
      simp [toolSchemas, draftProperties, draftRequired]
    rw [hugeTransfer, haccepted.reachesTool_iff hschema]
    exact fun hexec => hugeTransfer_overflows (hexec.1 rfl)
  obtain ⟨exc, hexecute⟩ := executeTool_of_not_reaches rfl hraises
  exact ⟨hvalid, hraises, hexecute⟩

end BankingAgent
