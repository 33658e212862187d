import BankingAgent.Banking.DraftGuard
import BankingAgent.Retriever
import BankingAgent.Tools

/-!
# `banking/tools.py`: arguments as they come

What `BankingTools.execute` makes of a dictionary of arguments, with everything Python raises on the
way: a key that is missing, an integer that is no float, a stored text that is no time or has no
zone. All of it ends in the `except` of `execute`. Validation against the schemas is meant to keep
that branch from being taken.

* `toolSchemas` — the schemas of the nine tools.
* `toolFunction` — their handlers, over a repository that holds what Python holds.

The arguments are strings where the schema says so; what Python does with a value of another type
depends on the tool, and counts as an exception of its own here.
-/

namespace BankingAgent

/-! ## The schemas -/

/-- A schema of `tool_schemas`: the types of the properties, and which of them are required. -/
def objectSchema (properties : List (String × String)) (required : List String) : Json :=
  .obj [("type", .str "object"),
    ("properties", .obj (properties.map fun p => (p.1, .obj [("type", .str p.2)]))),
    ("required", .arr (required.map .str))]

/-- `tool_schemas`: the names, with the properties and the required ones. -/
def toolSchemas : List (String × List (String × String) × List String) :=
  [("get_account_summary", [("account_id", "string"), ("user_id", "string")],
      ["account_id", "user_id"]),
    ("get_balance", [("account_id", "string"), ("user_id", "string")], ["account_id", "user_id"]),
    ("list_transactions",
      [("account_id", "string"), ("user_id", "string"), ("limit", "integer")],
      ["account_id", "user_id"]),
    ("find_beneficiary", [("beneficiary_id", "string")], ["beneficiary_id"]),
    ("create_transfer_draft",
      [("source_account_id", "string"), ("beneficiary_id", "string"), ("amount", "number"),
        ("currency", "string"), ("user_id", "string"), ("idempotency_key", "string"),
        ("description", "string")],
      ["source_account_id", "beneficiary_id", "amount", "currency", "user_id",
        "idempotency_key"]),
    ("submit_transfer", [("draft_id", "string"), ("user_id", "string")], ["draft_id", "user_id"]),
    ("cancel_transfer", [("draft_id", "string"), ("user_id", "string")], ["draft_id", "user_id"]),
    ("get_transfer_status", [("draft_id", "string")], ["draft_id"]),
    ("report_suspicious_transaction",
      [("account_id", "string"), ("transaction_id", "string"), ("reason", "string"),
        ("user_id", "string")],
      ["account_id", "transaction_id", "reason", "user_id"])]

/-! ## The repository -/

/-- `Account`. -/
structure StoredAccount : Type where
  accountId : String
  ownerId : String
  accountType : String
  balance : PyFloat
  currency : String
  active : Bool

/-- `Transaction`. -/
structure StoredTransaction : Type where
  transactionId : String
  accountId : String
  amount : PyFloat
  currency : String
  description : String
  timestamp : String

/-- `TransferDraft`, with its times as text. -/
structure StoredDraft : Type where
  draftId : String
  sourceAccountId : String
  beneficiaryId : String
  amount : PyFloat
  currency : String
  description : String
  status : TransferStatus
  idempotencyKey : String
  createdAt : String
  expiresAt : String

/-- `BankingRepository`. -/
structure StoredBank : Type where
  accounts : AList fun _ : String => StoredAccount
  beneficiaries : AList fun _ : String => Beneficiary
  transactions : AList fun _ : String => List StoredTransaction
  transferDrafts : AList fun _ : String => StoredDraft
  completedTransfers : Finset String

/-- What a handler raises. -/
inductive HandlerExn : Type where
  /-- `KeyError` -/
  | keyError (key : String)
  /-- `OverflowError`, of `float` -/
  | overflowError
  /-- `ValueError`, of `fromisoformat` -/
  | valueError (text : String)
  /-- `TypeError`, of the comparison of a naive time with an aware one -/
  | typeError
  /-- whatever becomes of a value that has not the type of the schema -/
  | illTyped (key : String)
  deriving DecidableEq

/-- The library functions of the handlers. -/
structure BankLib : Type where
  /-- the value of a float that is held by its text -/
  readFloat : String → PyFloat
  /-- `repr` of a float -/
  floatRepr : PyFloat → String
  isoformat : Instant → String
  fromisoformat : String → ParsedDatetime
  /-- `str` of an exception -/
  exceptionText : HandlerExn → String

/-- What the handler reads besides its arguments: the clock, twice, and `uuid4`. -/
structure HandlerInput : Type where
  now : Instant
  later : Instant
  uuid : String

/-- What a handler returns: a dictionary that is rendered, or an error. -/
abbrev HandlerResult : Type := Except String Json

/-- A handler: it raises, or returns and leaves the repository in some state. -/
abbrev Handler : Type :=
  Json → HandlerInput → StoredBank → Except HandlerExn (HandlerResult × StoredBank)

/-! ## The arguments -/

/-- `args[key]`, where a string is expected. -/
def strItem (key : String) (args : Json) : Except HandlerExn String :=
  match args.get? key with
  | some (.str s) => .ok s
  | some _ => .error (.illTyped key)
  | none => .error (.keyError key)

/-- `args.get(key, default)`, where a string is expected. -/
def strItemOr (key default : String) (args : Json) : Except HandlerExn String :=
  match args.get? key with
  | some (.str s) => .ok s
  | some _ => .error (.illTyped key)
  | none => .ok default

/-- `args.get(key, default)`, where an integer is expected. -/
def intItemOr (key : String) (default : ℤ) (args : Json) : Except HandlerExn ℤ :=
  match args.get? key with
  | some (.int n) => .ok n
  | some _ => .error (.illTyped key)
  | none => .ok default

/-- `float(args[key])`. -/
def floatItem (lib : BankLib) (key : String) (args : Json) : Except HandlerExn PyFloat :=
  match args.get? key with
  | some (.int n) =>
    match (PyNumber.int n).toFloat with
    | some x => .ok x
    | none => .error .overflowError
  | some (.float text) => .ok (lib.readFloat text)
  | some _ => .error (.illTyped key)
  | none => .error (.keyError key)

namespace StoredBank

/-- The account, if the user owns it. -/
def ownAccount (repo : StoredBank) (accountId userId : String) : Option StoredAccount :=
  (repo.accounts.lookup accountId).filter fun acc => acc.ownerId = userId

/-- `transactions.get(account_id, [])`. -/
def transactionsOf (repo : StoredBank) (accountId : String) : List StoredTransaction :=
  (repo.transactions.lookup accountId).getD []

/-- `txs[-limit:]`, whatever the size of the limit. -/
def lastOf (txs : List StoredTransaction) (limit : ℤ) : List StoredTransaction :=
  if 0 < limit then txs.drop (txs.length - limit.toNat) else txs.drop (-limit).toNat

/-- Write a draft. -/
def putDraft (repo : StoredBank) (draftId : String) (draft : StoredDraft) : StoredBank :=
  { repo with transferDrafts := repo.transferDrafts.insert draftId draft }

/-- The checks of `create_transfer_draft`: the error of the first that fails. -/
def draftError (lib : BankLib) (repo : StoredBank) (sourceAccountId beneficiaryId : String)
    (amount : PyFloat) (currency userId idempotencyKey : String) : Option String :=
  match repo.accounts.lookup sourceAccountId with
  | none => some s!"Account not found: {sourceAccountId}"
  | some acc =>
    if !acc.active then some s!"Account inactive: {sourceAccountId}"
    else if acc.ownerId ≠ userId then
      some s!"User {userId} does not own account {sourceAccountId}"
    else match repo.beneficiaries.lookup beneficiaryId with
      | none => some s!"Beneficiary not found: {beneficiaryId}"
      | some ben =>
        if !ben.active then some s!"Beneficiary inactive: {beneficiaryId}"
        else if amount.le floatZero then some "Amount must be positive"
        else if floatTransactionLimit.lt amount then
          some s!"Amount exceeds limit of {lib.floatRepr floatTransactionLimit}"
        else if currency ∉ supportedCurrencies then some s!"Unsupported currency: {currency}"
        else if acc.balance.lt amount then
          some s!"Insufficient funds: balance {lib.floatRepr acc.balance} < {lib.floatRepr amount}"
        else if idempotencyKey ∈ repo.completedTransfers then
          some "Transfer already completed (idempotency key)"
        else none

/-- The part of `submit_transfer` that moves the money. -/
def complete (lib : BankLib) (repo : StoredBank) (draftId : String) (draft : StoredDraft)
    (acc : StoredAccount) (input : HandlerInput) : StoredBank :=
  let txn : StoredTransaction :=
    { transactionId := input.uuid
      accountId := draft.sourceAccountId
      amount := floatZero.sub draft.amount
      currency := draft.currency
      description :=
        if draft.description = "" then s!"Transfer to {draft.beneficiaryId}"
        else draft.description
      timestamp := lib.isoformat input.later }
  { repo with
    accounts := repo.accounts.insert draft.sourceAccountId
      { acc with balance := acc.balance.sub draft.amount }
    transferDrafts := repo.transferDrafts.insert draftId { draft with status := .completed }
    transactions := repo.transactions.insert draft.sourceAccountId
      (repo.transactionsOf draft.sourceAccountId ++ [txn])
    completedTransfers :=
      if draft.idempotencyKey = "" then repo.completedTransfers
      else insert draft.idempotencyKey repo.completedTransfers }

end StoredBank

/-! ## The handlers -/

section Handlers

variable (lib : BankLib)

/-- `_tool_get_account_summary`. -/
def toolGetAccountSummary : Handler := fun args _ repo => do
  let accountId ← strItem "account_id" args
  let userId ← strItem "user_id" args
  match repo.ownAccount accountId userId with
  | none => return (.error "Account not found or access denied", repo)
  | some acc =>
    return (.ok (.obj [("account_id", .str acc.accountId), ("owner_id", .str acc.ownerId),
      ("balance", .float (lib.floatRepr acc.balance)), ("currency", .str acc.currency),
      ("type", .str acc.accountType), ("active", .bool acc.active),
      ("recent_transaction_count",
        .int (StoredBank.lastOf (repo.transactionsOf accountId) 10).length),
      ("beneficiary_count", .int repo.beneficiaries.keys.length)]), repo)

/-- `_tool_get_balance`. -/
def toolGetBalance : Handler := fun args _ repo => do
  let accountId ← strItem "account_id" args
  let userId ← strItem "user_id" args
  match repo.ownAccount accountId userId with
  | none => return (.error "Account not found or access denied", repo)
  | some acc =>
    return (.ok (.obj [("account_id", .str accountId),
      ("balance", .float (lib.floatRepr acc.balance)), ("currency", .str "USD")]), repo)

/-- `_tool_list_transactions`. -/
def toolListTransactions : Handler := fun args _ repo => do
  let limit ← intItemOr "limit" 20 args
  let accountId ← strItem "account_id" args
  let userId ← strItem "user_id" args
  match repo.ownAccount accountId userId with
  | none => return (.error "Account not found or access denied", repo)
  | some _ =>
    let txs := StoredBank.lastOf (repo.transactionsOf accountId) limit
    return (.ok (.arr (txs.map fun t => .obj [("id", .str t.transactionId),
      ("amount", .float (lib.floatRepr t.amount)), ("currency", .str t.currency),
      ("description", .str t.description), ("timestamp", .str t.timestamp)])), repo)

/-- `_tool_find_beneficiary`. -/
def toolFindBeneficiary : Handler := fun args _ repo => do
  let beneficiaryId ← strItem "beneficiary_id" args
  match repo.beneficiaries.lookup beneficiaryId with
  | none => return (.error "Beneficiary not found", repo)
  | some ben =>
    return (.ok (.obj [("id", .str ben.beneficiaryId), ("name", .str ben.name),
      ("active", .bool ben.active)]), repo)

/-- `_tool_create_transfer_draft`, and `create_transfer_draft`. -/
def toolCreateTransferDraft : Handler := fun args input repo => do
  let sourceAccountId ← strItem "source_account_id" args
  let beneficiaryId ← strItem "beneficiary_id" args
  let amount ← floatItem lib "amount" args
  let currency ← strItem "currency" args
  let userId ← strItem "user_id" args
  let idempotencyKey ← strItem "idempotency_key" args
  let description ← strItemOr "description" "" args
  match repo.draftError lib sourceAccountId beneficiaryId amount currency userId idempotencyKey with
  | some error => return (.error error, repo)
  | none =>
    let draft : StoredDraft :=
      { draftId := input.uuid, sourceAccountId, beneficiaryId, amount, currency, description,
        status := .draft, idempotencyKey, createdAt := lib.isoformat input.now,
        expiresAt := lib.isoformat (input.now + transferDraftExpiry.toNat) }
    return (.ok (.obj [("draft_id", .str draft.draftId), ("status", .str draft.status.value),
      ("amount", .float (lib.floatRepr draft.amount)), ("expires_at", .str draft.expiresAt)]),
      repo.putDraft draft.draftId draft)

/-- The draft has expired; a text that is no time, or one without a zone, raises. -/
def draftExpired (draft : StoredDraft) (now : Instant) : Except HandlerExn Bool :=
  if draft.expiresAt = "" then .ok false
  else
    match lib.fromisoformat draft.expiresAt with
    | .invalid => .error (.valueError draft.expiresAt)
    | .naive => .error .typeError
    | .aware expires => .ok (expires < now)

/-- `_tool_submit_transfer`, and `submit_transfer`. -/
def toolSubmitTransfer : Handler := fun args input repo => do
  let draftId ← strItem "draft_id" args
  let userId ← strItem "user_id" args
  match repo.transferDrafts.lookup draftId with
  | none => return (.error s!"Draft not found: {draftId}", repo)
  | some draft =>
    if draft.status ≠ .draft then return (.error s!"Draft already {draft.status.value}", repo)
    else
      match repo.ownAccount draft.sourceAccountId userId with
      | none => return (.error "Ownership violation", repo)
      | some acc =>
        let expired ← draftExpired lib draft input.now
        if expired then
          return (.error "Draft expired", repo.putDraft draftId { draft with status := .failed })
        else if draft.idempotencyKey ≠ "" ∧ draft.idempotencyKey ∈ repo.completedTransfers then
          return (.error "Transfer already completed", repo)
        else if acc.balance.lt draft.amount then return (.error "Insufficient funds", repo)
        else
          return (.ok (.obj [("draft_id", .str draft.draftId),
            ("status", .str TransferStatus.completed.value)]),
            repo.complete lib draftId draft acc input)

/-- `_tool_cancel_transfer`, and `cancel_transfer`. -/
def toolCancelTransfer : Handler := fun args _ repo => do
  let draftId ← strItem "draft_id" args
  let userId ← strItem "user_id" args
  match repo.transferDrafts.lookup draftId with
  | none => return (.error s!"Draft not found: {draftId}", repo)
  | some draft =>
    if draft.status ≠ .draft ∧ draft.status ≠ .pending then
      return (.error s!"Cannot cancel: draft is {draft.status.value}", repo)
    else if (repo.ownAccount draft.sourceAccountId userId).isNone then
      return (.error "Ownership violation", repo)
    else
      return (.ok (.obj [("success", .bool true)]),
        repo.putDraft draftId { draft with status := .cancelled })

/-- `_tool_get_transfer_status`. -/
def toolGetTransferStatus : Handler := fun args _ repo => do
  let draftId ← strItem "draft_id" args
  match repo.transferDrafts.lookup draftId with
  | none => return (.error "Transfer draft not found", repo)
  | some draft =>
    return (.ok (.obj [("draft_id", .str draft.draftId), ("status", .str draft.status.value),
      ("amount", .float (lib.floatRepr draft.amount))]), repo)

/-- `_tool_report_suspicious_transaction`: what is logged is read first. -/
def toolReportSuspiciousTransaction : Handler := fun args _ repo => do
  let _ ← strItem "account_id" args
  let transactionId ← strItem "transaction_id" args
  let _ ← strItem "reason" args
  let _ ← strItem "user_id" args
  return (.ok (.obj [("reported", .bool true),
    ("reference", .str s!"SAR-{String.ofList (transactionId.toList.take 8)}")]), repo)

/-- `getattr(self, f"_tool_{tool_name}", None)`. -/
def toolFunction : String → Option Handler
  | "get_account_summary" => some (toolGetAccountSummary lib)
  | "get_balance" => some (toolGetBalance lib)
  | "list_transactions" => some (toolListTransactions lib)
  | "find_beneficiary" => some toolFindBeneficiary
  | "create_transfer_draft" => some (toolCreateTransferDraft lib)
  | "submit_transfer" => some (toolSubmitTransfer lib)
  | "cancel_transfer" => some toolCancelTransfer
  | "get_transfer_status" => some (toolGetTransferStatus lib)
  | "report_suspicious_transaction" => some toolReportSuspiciousTransaction
  | _ => none

/-- `execute`: an exception becomes an error, and leaves the repository as it was. -/
def executeTool (toolName : String) (args : Json) (input : HandlerInput) (repo : StoredBank) :
    HandlerResult × StoredBank :=
  match toolFunction lib toolName with
  | none => (.error s!"Unknown tool: {toolName}", repo)
  | some handler =>
    match handler args input repo with
    | .ok outcome => outcome
    | .error exc => (.error (lib.exceptionText exc), repo)

end Handlers

end BankingAgent
